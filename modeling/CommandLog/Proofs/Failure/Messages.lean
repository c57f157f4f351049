import CommandLog.Proofs.Text.Unambiguous
import CommandLog.Worker

/-!
Messages of failed commands. A message begins with words that name the kind of the error, and goes on with
the details, each of which ends where its text says. Main statement: no two errors have the same message,
and none has a control character in it, whatever a client has sent.
-/

namespace CommandLog

open Text (IsControl IsPlain isPlain_append isPlain_toDigits toDigits_inj toDigits_append_inj)

variable {first second : Nat} {words early late : List Char}

theorem toDigits_words_inj (ends : words.head?.map Char.isDigit = some false)
    (same : Nat.toDigits 10 first ++ (words ++ early) = Nat.toDigits 10 second ++ (words ++ late)) :
    first = second ∧ early = late := by
  cases words with
  | nil => cases ends
  | cons c rest =>
      obtain ⟨number, behind⟩ := toDigits_append_inj (Option.some.inj ends) (Option.some.inj ends) same
      exact ⟨number, List.append_cancel_left (List.cons.inj behind).2⟩

theorem toDigits_end_inj (same : Nat.toDigits 10 first ++ words = Nat.toDigits 10 second ++ words) :
    first = second :=
  toDigits_inj (by decide) (by decide) (List.append_cancel_right same)

inductive FaultKind where
  | missingSeparator
  | invalidNumber (field : SeekField)
  | notUtf8
  | entry
  | byte
  | allocation
  | lockTimeout
deriving DecidableEq

namespace FaultKind

def opening : FaultKind → String
  | missingSeparator => "seek arguments must be `<index>,<offset>`, got "
  | invalidNumber .entryIndex => "invalid entry index in seek command: "
  | invalidNumber .byteOffset => "invalid byte offset in seek command: "
  | notUtf8 => "seek arguments are not valid UTF-8"
  | entry => "entry index "
  | byte => "byte offset "
  | allocation => "could not allocate "
  | lockTimeout => "timed out after "

def all : List FaultKind :=
  [missingSeparator, invalidNumber .entryIndex, invalidNumber .byteOffset, notUtf8, entry, byte,
    allocation, lockTimeout]

theorem mem_all (kind : FaultKind) : kind ∈ all := by
  rcases kind with _ | (_ | _) | _ | _ | _ | _ | _ <;> decide

/-- No opening begins another one. -/
theorem openings_apart {first second : FaultKind}
    (begins : first.opening.toList <+: second.opening.toList) : first = second := by
  have apart : ∀ first ∈ all, ∀ second ∈ all,
      first.opening.toList <+: second.opening.toList → first = second := by decide +kernel
  exact apart first first.mem_all second second.mem_all begins

theorem isPlain_opening (kind : FaultKind) : IsPlain kind.opening.toList := by
  have plain : ∀ kind ∈ all, IsPlain kind.opening.toList := by decide +kernel
  exact plain kind kind.mem_all

end FaultKind

namespace CommandError

def kind : CommandError → FaultKind
  | .seek (.missingSeparator _) => .missingSeparator
  | .seek (.invalidNumber field _) => .invalidNumber field
  | .seek .notUtf8 => .notUtf8
  | .log (.range (.entry ..)) => .entry
  | .log (.range (.byte ..)) => .byte
  | .log (.allocation _) => .allocation
  | .log (.lockTimeout _) => .lockTimeout

def details : CommandError → String
  | .seek (.missingSeparator text) | .seek (.invalidNumber _ text) => quoted text
  | .seek .notUtf8 => ""
  | .log (.range (.entry index count)) =>
      index.repr ++ (" out of range (" ++ (count.repr ++ " entries retained)"))
  | .log (.range (.byte index offset length)) =>
      offset.repr ++ (" out of range for entry " ++
        (index.repr ++ (" of " ++ (length.repr ++ " bytes"))))
  | .log (.allocation requested) => requested.repr ++ " bytes for log storage"
  | .log (.lockTimeout waited) => waited.text ++ " waiting for the log lock"

theorem message_eq (error : CommandError) : error.message = error.kind.opening ++ error.details := by
  cases error with
  | seek error =>
      cases error with
      | missingSeparator => rfl
      | invalidNumber field text =>
          have words : "invalid " ++ SeekField.entryIndex.name ++ " in seek command: " =
                "invalid entry index in seek command: " ∧
              "invalid " ++ SeekField.byteOffset.name ++ " in seek command: " =
                "invalid byte offset in seek command: " := by decide +kernel
          cases field with
          | entryIndex => exact congrArg (· ++ quoted text) words.1
          | byteOffset => exact congrArg (· ++ quoted text) words.2
      | notUtf8 => exact String.append_empty.symm
  | log error =>
      cases error with
      | range error =>
          cases error with
          | entry index count =>
              change "entry index " ++ index.repr ++ " out of range (" ++ count.repr ++
                " entries retained)" = "entry index " ++ _
              simp only [details, String.append_assoc]
          | byte index offset length =>
              change "byte offset " ++ offset.repr ++ " out of range for entry " ++ index.repr ++
                " of " ++ length.repr ++ " bytes" = "byte offset " ++ _
              simp only [details, String.append_assoc]
      | allocation => exact String.append_assoc
      | lockTimeout => exact String.append_assoc

theorem kind_details_inj {first second : CommandError} (same : first.message = second.message) :
    first.kind = second.kind ∧ first.details = second.details := by
  have texts := congrArg String.toList same
  rw [message_eq, message_eq, String.toList_append, String.toList_append] at texts
  have kinds : first.kind = second.kind := by
    have begins : first.kind.opening.toList <+: second.kind.opening.toList ++ second.details.toList :=
      texts ▸ List.prefix_append _ _
    have alsoBegins : second.kind.opening.toList <+: second.kind.opening.toList ++ second.details.toList :=
      List.prefix_append _ _
    rcases List.prefix_or_prefix_of_prefix begins alsoBegins with shorter | longer
    · exact FaultKind.openings_apart shorter
    · exact (FaultKind.openings_apart longer).symm
  rw [kinds] at texts
  exact ⟨kinds, String.toList_inj.mp (List.append_cancel_left texts)⟩

theorem message_injective : Function.Injective message := by
  intro first second same
  obtain ⟨kinds, details⟩ := kind_details_inj same
  have texts := congrArg String.toList details
  rcases first with (text | ⟨field, text⟩ | _) |
      ((⟨index, count⟩ | ⟨index, offset, length⟩) | requested | waited) <;>
    rcases second with (other | ⟨otherField, other⟩ | _) |
      ((⟨otherIndex, otherCount⟩ | ⟨otherIndex, otherOffset, otherLength⟩) | otherRequested | otherWaited) <;>
    cases kinds
  · rw [quoted_injective details]
  · rw [quoted_injective details]
  · rfl
  · simp only [CommandError.details, String.toList_append, Nat.toList_repr] at texts
    obtain ⟨rfl, behind⟩ := toDigits_words_inj rfl texts
    rw [toDigits_end_inj behind]
  · simp only [CommandError.details, String.toList_append, Nat.toList_repr] at texts
    obtain ⟨rfl, behind⟩ := toDigits_words_inj rfl texts
    obtain ⟨rfl, last⟩ := toDigits_words_inj rfl behind
    rw [toDigits_end_inj last]
  · simp only [CommandError.details, String.toList_append, Nat.toList_repr] at texts
    rw [toDigits_end_inj texts]
  · simp only [CommandError.details, String.toList_append] at texts
    rw [Duration.text_injective (String.toList_inj.mp (List.append_cancel_right texts))]

theorem isPlain_details (error : CommandError) : IsPlain error.details.toList := by
  have number (number : Nat) : IsPlain (Nat.toDigits 10 number) := isPlain_toDigits (by decide) (by decide)
  cases error with
  | seek error =>
      cases error with
      | missingSeparator text => exact isPlain_quoted text
      | invalidNumber _ text => exact isPlain_quoted text
      | notUtf8 => exact List.forall_mem_nil _
  | log error =>
      cases error with
      | range error =>
          cases error <;>
            simp only [details, String.toList_append, Nat.toList_repr, isPlain_append, number, true_and] <;>
            decide +kernel
      | allocation requested =>
          simp only [details, String.toList_append, Nat.toList_repr, isPlain_append, number, true_and]
          decide +kernel
      | lockTimeout waited =>
          simp only [details, String.toList_append, isPlain_append, waited.isPlain_text, true_and]
          decide +kernel

theorem isPlain_message (error : CommandError) : IsPlain error.message.toList := by
  rw [message_eq, String.toList_append]
  exact isPlain_append.mpr ⟨error.kind.isPlain_opening, error.isPlain_details⟩

/-- Two errors that are different have different messages. No message has a control character in it, and
so none that a line brings about: the line is not served, and what is reported of it is the message. -/
theorem messages_unambiguous :
    Function.Injective message ∧ (∀ error : CommandError, IsPlain error.message.toList) ∧
    ∀ line error, Command.parse line = .error error →
      IsPlain (seek error).message.toList ∧ ∀ memory (worker : Worker),
        (worker.dispatch memory line).2 = [.commandFailed worker.identity (.seek error)] ∧
        (Event.commandFailed worker.identity (.seek error)).fields =
          [("error", .text (seek error).message), ("retryable", .flag false)] := by
  refine ⟨message_injective, isPlain_message, fun line error unread => ⟨isPlain_message _, ?_⟩⟩
  intro memory worker
  refine ⟨?_, rfl⟩
  simp only [Worker.dispatch, unread, Worker.refuse]

theorem messages_unambiguous_lineFeed :
    Command.parse (Command.seekTag ++ Text.Utf8.encode "1\n\x1b,0".toList) =
      .error (.invalidNumber .entryIndex "1\n\x1b") ∧
    (seek (.invalidNumber .entryIndex "1\n\x1b")).message =
      "invalid entry index in seek command: \"1\\n\\u\x7b1b\x7d\"" ∧
    IsPlain (seek (.invalidNumber .entryIndex "1\n\x1b")).message.toList ∧
    (seek (.invalidNumber .entryIndex "1\n\x1b")).message ≠
      (seek (.invalidNumber .entryIndex "1\\n\x1b")).message := by
  obtain ⟨distinct, _, unread⟩ := messages_unambiguous
  have parsed : Command.parse (Command.seekTag ++ Text.Utf8.encode "1\n\x1b,0".toList) =
      .error (.invalidNumber .entryIndex "1\n\x1b") := by decide +kernel
  exact ⟨parsed, by decide +kernel, (unread _ _ parsed).1,
    fun same => absurd (distinct same) (by decide +kernel)⟩

end CommandError

end CommandLog
