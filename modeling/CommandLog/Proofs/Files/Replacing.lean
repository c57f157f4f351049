import CommandLog.Files.Replacement
import CommandLog.Proofs.CommandLine.Flags
import CommandLog.Proofs.Files.Opening

/-!
What a run of the command does to the tree. Main statement: for every tree and all arguments, a run
replaces the content of the one file that its path opens, or it changes nothing, and its code tells which;
and a second run finds nothing left to change.
-/

namespace CommandLog.Files

open CommandLine
open CommandLine.Matching (dash)
open Text.Utf8 (encode)

/-- Afterwards one place is a file with this content, and nothing else is different. -/
structure Tree.Replaces (before after : Tree) (place : Place) (content : Bytes) : Prop where
  written : after.find? place = some (.file content)
  others : ∀ other ≠ place, after.find? other = before.find? other

theorem Tree.replaces_put (tree : Tree) {place : Place} (content : Bytes) (below : place ≠ []) :
    tree.Replaces (tree.put place (.file content)) place content where
  written := tree.find?_put_same _ below
  others := fun _ apart => tree.find?_put_other _ apart

namespace Replacement

variable {tree : Tree} {here place : Place} {path text : Bytes} {arguments : List Bytes}

def IsText (replacement : Replacement) : Prop := ∃ string, replacement.text = encode string

theorem isText_of_readText {raw : Bytes} (read : readText raw = .ok text) : ∃ string, text = encode string := by
  unfold readText at read
  split at read
  · cases read
    exact ⟨_, Text.Utf8.decode?_eq_some_iff.mp ‹_›⟩
  · cases read

theorem keeps_isText : grammar.Keeps IsText := by
  rintro parameter (⟨name, member⟩ | member) raw change read replacement isText
  · cases member
  · simp only [grammar, List.mem_cons, List.not_mem_nil, or_false] at member
    rcases member with rfl | rfl
    · obtain ⟨_, _, rfl⟩ := map_eq_ok.mp read
      exact isText
    · obtain ⟨_, found, rfl⟩ := map_eq_ok.mp read
      exact isText_of_readText found

theorem isText_of_parse {replacement : Replacement} (parsed : parse arguments = .ok replacement) :
    replacement.IsText :=
  Grammar.parse_keeps keeps_isText ⟨[], rfl⟩ parsed

def fileParameter : Parameter Replacement := grammar.positionals[0]

def textParameter : Parameter Replacement := grammar.positionals[1]

theorem read_fileParameter (filled : path ≠ []) :
    fileParameter.read path = .ok fun replacement => { replacement with path } := by
  change (readPath path).map _ = _
  rw [readPath, if_neg filled]
  rfl

theorem read_textParameter (string : List Char) :
    textParameter.read (encode string) = .ok fun replacement => { replacement with text := encode string } := by
  change (readText (encode string)).map _ = _
  rw [readText, Text.Utf8.decode?_encode]
  rfl

theorem parse_pair {string : List Char} (filled : path ≠ []) (unflagged : path.head? ≠ some dash)
    (apart : (encode string).head? ≠ some dash) :
    parse [path, encode string] = .ok ⟨path, encode string⟩ := by
  let start : Matching Replacement := { value := ⟨[], []⟩, positionals := [fileParameter, textParameter] }
  let named : Matching Replacement := { start with
    pending := some (fileParameter, some path), positionals := [textParameter] }
  let opened : Matching Replacement :=
    { value := ⟨path, []⟩, seen := [fileParameter.label], positionals := [textParameter] }
  let told : Matching Replacement := { opened with
    pending := some (textParameter, some (encode string)), positionals := [] }
  let done : Matching Replacement :=
    { value := ⟨path, encode string⟩, seen := [fileParameter.label, textParameter.label], positionals := [] }
  have first : Matching.argument grammar start path = .ok named := by
    rw [Matching.argument_value unflagged]
    rfl
  have settled : named.resolve = .ok opened :=
    Matching.read_eq_ok.mpr ⟨List.not_mem_nil, _, read_fileParameter filled, rfl⟩
  have second : Matching.argument grammar named (encode string) = .ok told := by
    rw [Matching.argument_value apart]
    change named.resolve.bind _ = _
    rw [settled]
    rfl
  have fresh : textParameter.label ∉ [fileParameter.label] := by decide
  have last : told.resolve = .ok done :=
    Matching.read_eq_ok.mpr ⟨fresh, _, read_textParameter string, rfl⟩
  have matched : Matching.arguments grammar start [path, encode string] = .ok told := by
    simp only [Matching.arguments, first, second, bind, Except.bind]
  change (Matching.arguments grammar start [path, encode string] >>= fun state => state.resolve >>= _) = _
  rw [matched]
  change told.resolve.bind _ = _
  rw [last]
  rfl

theorem run_of_opens (parsed : parse arguments = .ok ⟨path, text⟩) (opens : Opens tree here path place) :
    run tree here arguments = write tree place text := by
  simp only [run, parsed, perform, Tree.openForWriting_iff.mpr opens]

theorem run_of_not_opens (parsed : parse arguments = .ok ⟨path, text⟩)
    (closed : ∀ place, ¬ Opens tree here path place) :
    (run tree here arguments).code = 1 ∧ (run tree here arguments).tree = tree := by
  cases opened : tree.openForWriting here path with
  | ok place => exact absurd (Tree.openForWriting_iff.mp opened) (closed place)
  | error => simp [run, parsed, perform, opened]

theorem run_of_error {error : UsageError} (refused : parse arguments = .error error) :
    (run tree here arguments).code = (if error.isRequest then 0 else 2) ∧
      (run tree here arguments).tree = tree := by
  cases request : error.isRequest <;> simp [run, refused, request]

theorem write_of_not_device (notDevice : ∀ device, tree.find? place ≠ some (.device device)) :
    write tree place text = ⟨0, "", "", tree.put place (.file text)⟩ := by
  unfold write
  split
  · exact absurd ‹_› (notDevice _)
  · exact absurd ‹_› (notDevice _)
  · exact absurd ‹_› (notDevice _)
  · exact absurd ‹_› (notDevice _)
  · rfl

theorem write_device {device : Device} (found : tree.find? place = some (.device device)) :
    (write tree place text).tree = tree ∧
      (write tree place text).code = if device = .full ∧ text ≠ [] then 1 else 0 := by
  simp only [write, found]
  cases device with
  | full => by_cases empty : text = [] <;> simp [empty]
  | null | standardOutput | standardError => exact ⟨rfl, rfl⟩

theorem run_cases (tree : Tree) (here : Place) (arguments : List Bytes) :
    (run tree here arguments).tree = tree ∨
    ∃ path text place, parse arguments = .ok ⟨path, text⟩ ∧ Opens tree here path place ∧
      run tree here arguments = ⟨0, "", "", tree.put place (.file text)⟩ := by
  cases parsed : parse arguments with
  | error => exact .inl (run_of_error parsed).2
  | ok replacement =>
      obtain ⟨path, text⟩ := replacement
      by_cases found : ∃ place, Opens tree here path place
      · obtain ⟨place, opens⟩ := found
        by_cases device : ∃ device, tree.find? place = some (.device device)
        · obtain ⟨device, found⟩ := device
          rw [run_of_opens parsed opens]
          exact .inl (write_device found).1
        · rw [not_exists] at device
          refine .inr ⟨path, text, place, rfl, opens, ?_⟩
          rw [run_of_opens parsed opens, write_of_not_device device]
      · rw [not_exists] at found
        exact .inl (run_of_not_opens parsed found).2

theorem run_run (tree : Tree) (here : Place) (arguments : List Bytes) :
    (run (run tree here arguments).tree here arguments).tree = (run tree here arguments).tree := by
  rcases run_cases tree here arguments with same | ⟨path, text, place, parsed, opens, done⟩
  · rw [same, same]
  · have again : Opens (tree.put place (.file text)) here path place :=
      opens.put opens.not_directory opens.ne_nil
    have written : (tree.put place (.file text)).find? place = some (.file text) :=
      tree.find?_put_same _ opens.ne_nil
    have notDevice : ∀ device, (tree.put place (.file text)).find? place ≠ some (.device device) := by
      rw [written]
      nofun
    rw [done, run_of_opens parsed again, write_of_not_device notDevice]
    exact congrArg Tree.mk (Table.put_put place _ _ tree.nodes)

theorem isClosed_run (closed : tree.IsClosed) (inside : tree.find? here = some .directory) :
    (run tree here arguments).tree.IsClosed := by
  rcases run_cases tree here arguments with same | ⟨path, text, place, _, opens, done⟩
  · rwa [same]
  · rw [done]
    exact opens.isClosed_put closed inside

/-- Arguments that say which file and which text have the file replaced when it can be opened, with code 0,
and otherwise end with code 1 and the same tree; devices keep nothing. Other arguments change nothing, with
code 2 when they do not ask for help. The same run again changes nothing more, and no node is ever put
where there is no directory. -/
theorem run_replaces_or_keeps (tree : Tree) (here : Place) (arguments : List Bytes) :
    (∀ path text, parse arguments = .ok ⟨path, text⟩ →
      (∃ string : List Char, text = encode string) ∧
      (∀ place, Opens tree here path place →
        ((∀ device, tree.find? place ≠ some (.device device)) →
          (run tree here arguments).code = 0 ∧
            tree.Replaces (run tree here arguments).tree place text) ∧
        (∀ device, tree.find? place = some (.device device) →
          (run tree here arguments).tree = tree ∧
            (run tree here arguments).code = if device = .full ∧ text ≠ [] then 1 else 0)) ∧
      ((∀ place, ¬ Opens tree here path place) →
        (run tree here arguments).code = 1 ∧ (run tree here arguments).tree = tree)) ∧
    (∀ error, parse arguments = .error error →
      (run tree here arguments).code = (if error.isRequest then 0 else 2) ∧
        (run tree here arguments).tree = tree) ∧
    (run (run tree here arguments).tree here arguments).tree = (run tree here arguments).tree ∧
    (tree.IsClosed → tree.find? here = some .directory → (run tree here arguments).tree.IsClosed) := by
  refine ⟨?_, fun _ => run_of_error, run_run tree here arguments, isClosed_run⟩
  intro path text parsed
  refine ⟨isText_of_parse parsed, ?_, run_of_not_opens parsed⟩
  intro place opens
  rw [run_of_opens parsed opens]
  constructor
  · intro notDevice
    rw [write_of_not_device notDevice]
    exact ⟨rfl, tree.replaces_put text opens.ne_nil⟩
  · exact fun _ => write_device

theorem run_replaces_or_keeps_longer :
    let folder : Place := [encode ['d']]
    let place : Place := [encode ['d'], encode ['f']]
    let tree : Tree := ⟨[(folder, .directory), (place, .file [1, 2, 3]), ([encode ['g']], .file [0])]⟩
    let arguments := ["../d/./f", "ß"].map (encode ·.toList)
    (parse arguments = .ok ⟨encode "../d/./f".toList, encode ['ß']⟩ ∧
      Opens tree folder (encode "../d/./f".toList) place ∧
      (∀ device, tree.find? place ≠ some (.device device)) ∧
      tree.IsClosed ∧ tree.find? folder = some .directory) ∧
    (run tree folder arguments).code = 0 ∧
      (run tree folder arguments).tree.find? place = some (.file [0xC3, 0x9F]) ∧
      (run tree folder arguments).tree.find? [encode ['g']] = some (.file [0]) ∧
      (run tree folder arguments).tree.IsClosed := by
  intro folder place tree arguments
  have parsed : parse arguments = .ok ⟨encode "../d/./f".toList, encode ['ß']⟩ :=
    parse_pair (by decide) (by decide) (by decide)
  have opens : Opens tree folder (encode "../d/./f".toList) place := Tree.openForWriting_iff.mp (by decide)
  have notDevice : ∀ device, tree.find? place ≠ some (.device device) := nofun
  have closed : tree.IsClosed := Tree.isClosed_of_keys (by decide)
  have inside : tree.find? folder = some .directory := by decide
  obtain ⟨accepted, _, _, stays⟩ := run_replaces_or_keeps tree folder arguments
  obtain ⟨_, changed, _⟩ := accepted _ _ parsed
  obtain ⟨code, replaces⟩ := (changed place opens).1 notDevice
  refine ⟨⟨parsed, opens, notDevice, closed, inside⟩, code, replaces.written, ?_, stays closed inside⟩
  rw [replaces.others [encode ['g']] (by decide)]
  rfl

end Replacement

end CommandLog.Files
