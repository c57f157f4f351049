import CommandLog.Files.Tree

/-!
Which place a path opens for writing: the file that its last name has in the directory to which the names
before it lead. Main statements: `openForWriting` finds just these places, and in a tree without stray
nodes the directory of such a place is there; new content in a place that is not a directory changes
nothing about what any path opens.
-/

namespace CommandLog.Files

/-- One name leads from a directory to another. -/
inductive Enters (tree : Tree) (here : Place) : Bytes → Place → Prop
  | same : Enters tree here [dot] here
  | above : Enters tree here [dot, dot] here.dropLast
  | below {name} : name ≠ [dot] → name ≠ [dot, dot] → name.length ≤ maxName →
      tree.find? (here ++ [name]) = some .directory → Enters tree here name (here ++ [name])

inductive Leads (tree : Tree) : Place → List Bytes → Place → Prop
  | nil {here} : Leads tree here [] here
  | cons {here next there name names} : Enters tree here name next → Leads tree next names there →
      Leads tree here (name :: names) there

def origin (here : Place) (path : Bytes) : Place := if path.head? = some slash then [] else here

/-- A path opens the file with its last name in the directory to which its other names lead. There is
such a directory, and the file, if it is there, is not a directory itself. -/
inductive Opens (tree : Tree) (here : Place) (path : Bytes) : Place → Prop
  | file {folders folder name} : path.length ≤ maxPath → path.getLast? ≠ some slash →
      names path = folders ++ [name] → Leads tree (origin here path) folders folder →
      name ≠ [dot] → name ≠ [dot, dot] → name.length ≤ maxName →
      tree.find? (folder ++ [name]) ≠ some .directory → Opens tree here path (folder ++ [name])

variable {tree : Tree} {here next folder place : Place} {name path : Bytes} {folders : List Bytes}

namespace Tree

theorem enter_iff : tree.enter here name = .ok next ↔ Enters tree here name next := by
  constructor
  · intro entered
    unfold enter at entered
    split at entered
    · cases entered
      subst name
      exact .same
    · split at entered
      · cases entered
        subst name
        exact .above
      · split at entered
        · cases entered
        · split at entered
          · cases entered
            exact .below ‹_› ‹_› (Nat.le_of_not_lt ‹_›) ‹_›
          · cases entered
          · cases entered
  · rintro (_ | _ | ⟨notSame, notAbove, short, found⟩)
    · rfl
    · rfl
    · rw [enter, if_neg notSame, if_neg notAbove, if_neg (Nat.not_lt.mpr short), found]

theorem foldlM_enter_iff : folders.foldlM tree.enter here = .ok folder ↔ Leads tree here folders folder := by
  induction folders generalizing here with
  | nil =>
      constructor
      · intro led
        cases led
        exact .nil
      · rintro ⟨⟩
        rfl
  | cons name folders ih =>
      rw [List.foldlM_cons]
      constructor
      · intro led
        cases entered : tree.enter here name with
        | error => simp [entered, bind, Except.bind] at led
        | ok next =>
            rw [entered] at led
            exact .cons (enter_iff.mp entered) (ih.mp led)
      · rintro (_ | ⟨entered, led⟩)
        rw [enter_iff.mpr entered]
        exact ih.mpr led

theorem writable_iff : tree.writable folder name = .ok place ↔
    name ≠ [dot] ∧ name ≠ [dot, dot] ∧ name.length ≤ maxName ∧
      tree.find? (folder ++ [name]) ≠ some .directory ∧ folder ++ [name] = place := by
  by_cases dots : name = [dot] ∨ name = [dot, dot]
  · rcases dots with rfl | rfl <;> simp [writable]
  · rw [not_or] at dots
    by_cases long : maxName < name.length
    · simp [writable, dots, long, Nat.not_le.mpr long]
    · by_cases found : tree.find? (folder ++ [name]) = some .directory
      · simp [writable, dots, long, found]
      · simp [writable, dots, long, found, Nat.not_lt.mp long]

theorem openForWriting_eq (short : path.length ≤ maxPath) (split : names path = folders ++ [name]) :
    tree.openForWriting here path = (folders.foldlM tree.enter (origin here path)).bind fun folder =>
      if path.getLast? = some slash then .error .isDirectory else tree.writable folder name := by
  have filled : path ≠ [] := by
    rintro rfl
    exact List.append_ne_nil_of_right_ne_nil _ (List.cons_ne_nil _ _) split.symm
  simp only [openForWriting, if_neg (Nat.not_lt.mpr short), if_neg filled, split, List.getLast?_concat,
    List.dropLast_concat]
  rfl

theorem openForWriting_ne_ok (unfit : maxPath < path.length ∨ names path = []) :
    tree.openForWriting here path ≠ .ok place := by
  unfold openForWriting
  split
  · nofun
  · split
    · nofun
    · rcases unfit with long | nameless
      · contradiction
      · rw [nameless]
        nofun

theorem openForWriting_iff : tree.openForWriting here path = .ok place ↔ Opens tree here path place := by
  constructor
  · intro opened
    have short : path.length ≤ maxPath :=
      Nat.le_of_not_lt fun long => openForWriting_ne_ok (.inl long) opened
    rcases List.eq_nil_or_concat (names path) with nameless | ⟨folders, name, split⟩
    · exact absurd opened (openForWriting_ne_ok (.inr nameless))
    · rw [List.concat_eq_append] at split
      rw [openForWriting_eq short split] at opened
      cases led : folders.foldlM tree.enter (origin here path) with
      | error => simp [led, Except.bind] at opened
      | ok folder =>
          simp only [led, Except.bind] at opened
          split at opened
          · cases opened
          · obtain ⟨notSame, notAbove, fits, file, rfl⟩ := writable_iff.mp opened
            exact .file short ‹_› split (foldlM_enter_iff.mp led) notSame notAbove fits file
  · rintro ⟨short, unslashed, split, led, notSame, notAbove, fits, file⟩
    rw [openForWriting_eq short split, foldlM_enter_iff.mpr led, Except.bind, if_neg unslashed]
    exact writable_iff.mpr ⟨notSame, notAbove, fits, file, rfl⟩

end Tree

theorem Opens.ne_nil (opens : Opens tree here path place) : place ≠ [] := by
  cases opens
  exact List.append_ne_nil_of_right_ne_nil _ (List.cons_ne_nil _ _)

theorem Opens.not_directory (opens : Opens tree here path place) : tree.find? place ≠ some .directory := by
  cases opens
  assumption

variable {other : Place} {node : Node}

theorem Enters.put (enters : Enters tree here name next) (file : tree.find? place ≠ some .directory) :
    Enters (tree.put place node) here name next := by
  cases enters with
  | same => exact .same
  | above => exact .above
  | below notSame notAbove short found =>
      have apart : here ++ [name] ≠ place := fun same => file (same ▸ found)
      exact .below notSame notAbove short (by rw [Tree.find?_put_other _ _ apart, found])

theorem Leads.put (leads : Leads tree here folders folder) (file : tree.find? place ≠ some .directory) :
    Leads (tree.put place node) here folders folder := by
  induction leads with
  | nil => exact .nil
  | cons enters _ ih => exact .cons (enters.put file) ih

theorem Opens.put {content : Bytes} (opens : Opens tree here path other)
    (file : tree.find? place ≠ some .directory) (below : place ≠ []) :
    Opens (tree.put place (.file content)) here path other := by
  obtain ⟨short, unslashed, split, led, notSame, notAbove, fits, notDirectory⟩ := opens
  refine .file short unslashed split (led.put file) notSame notAbove fits ?_
  rename_i folder name
  by_cases same : folder ++ [name] = place
  · rw [same, Tree.find?_put_same _ _ below]
    nofun
  · rwa [Tree.find?_put_other _ _ same]

/-- Every node lies in a directory. -/
def Tree.IsClosed (tree : Tree) : Prop :=
  ∀ place name node, tree.find? (place ++ [name]) = some node → tree.find? place = some .directory

theorem Tree.isClosed_of_keys
    (inside : ∀ place ∈ Table.keys tree.nodes, tree.find? place.dropLast = some .directory) :
    tree.IsClosed := by
  intro place name node found
  have below : place ++ [name] ≠ [] := List.append_ne_nil_of_right_ne_nil _ (List.cons_ne_nil _ _)
  rw [find?, if_neg below] at found
  have folder := inside _ (Table.mem_keys_of_find? found)
  rwa [List.dropLast_concat] at folder

theorem Enters.directory (enters : Enters tree here name next) (closed : tree.IsClosed)
    (inside : tree.find? here = some .directory) : tree.find? next = some .directory := by
  cases enters with
  | same => exact inside
  | above =>
      rcases List.eq_nil_or_concat here with rfl | ⟨above, name, rfl⟩
      · rfl
      · rw [List.concat_eq_append] at inside ⊢
        rw [List.dropLast_concat]
        exact closed above name _ inside
  | below _ _ _ found => exact found

theorem Leads.directory (leads : Leads tree here folders folder) (closed : tree.IsClosed)
    (inside : tree.find? here = some .directory) : tree.find? folder = some .directory := by
  induction leads with
  | nil => exact inside
  | cons enters _ ih => exact ih (enters.directory closed inside)

theorem Opens.directory (opens : Opens tree here path place) (closed : tree.IsClosed)
    (inside : tree.find? here = some .directory) : tree.find? place.dropLast = some .directory := by
  obtain ⟨_, _, _, led, _⟩ := opens
  rw [List.dropLast_concat]
  refine led.directory closed ?_
  unfold origin
  split
  · rfl
  · exact inside

theorem Opens.isClosed_put {content : Bytes} (opens : Opens tree here path place) (closed : tree.IsClosed)
    (inside : tree.find? here = some .directory) : (tree.put place (.file content)).IsClosed := by
  intro above name node found
  have directory : tree.find? above = some .directory := by
    by_cases same : above ++ [name] = place
    · have folder := opens.directory closed inside
      rwa [← same, List.dropLast_concat] at folder
    · rw [Tree.find?_put_other _ _ same] at found
      exact closed above name node found
  have apart : above ≠ place := fun same => opens.not_directory (same ▸ directory)
  rw [Tree.find?_put_other _ _ apart, directory]

end CommandLog.Files
