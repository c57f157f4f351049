import CommandLog.Proofs.World.Linearizable
import CommandLog.Proofs.World.Passage

/-!
Tasks that go on until they have to wait. A log that is not held elsewhere is free whenever one of them
asks for it, so none of them ever waits for it.
-/

namespace CommandLog

/-- Whoever has the log when this step is taken goes on with it. -/
def Passage.Whole (passage : Passage) : Prop :=
  ∀ key, passage.before.lock.holder = some (.task key) → passage.action = .run key

namespace World

variable {log : Log} {lockTimeout : Duration} {readBuffer : Nat} {action : Action}
variable {actions : List Action} {world next final : World} {key : Key} {waits : List Wait}

end World

end CommandLog
