/-!
Values under keys, in the order in which the keys came in. A key that is written again keeps its
place.
-/

namespace CommandLog

abbrev Key := Nat

abbrev Table (κ α : Type) := List (κ × α)

namespace Table

variable {κ α : Type} [DecidableEq κ]

def find? (key : κ) : Table κ α → Option α
  | [] => none
  | (other, value) :: table => if other = key then some value else find? key table

def put (key : κ) (value : α) : Table κ α → Table κ α
  | [] => [(key, value)]
  | (other, old) :: table =>
      if other = key then (other, value) :: table else (other, old) :: put key value table

def erase (key : κ) (table : Table κ α) : Table κ α := table.filter fun (other, _) => other != key

def keys (table : Table κ α) : List κ := table.map Prod.fst

@[simp] theorem find?_put_same (key : κ) (value : α) (table : Table κ α) :
    find? key (put key value table) = some value := by
  induction table with
  | nil => simp [put, find?]
  | cons entry table ih =>
      obtain ⟨other, old⟩ := entry
      by_cases same : other = key
      · simp [put, find?, same]
      · simp [put, find?, same, ih]

theorem put_put (key : κ) (first second : α) (table : Table κ α) :
    put key second (put key first table) = put key second table := by
  induction table with
  | nil => simp [put]
  | cons entry table ih =>
      obtain ⟨other, old⟩ := entry
      by_cases same : other = key
      · simp [put, same]
      · simp [put, same, ih]

theorem find?_put_other {key other : κ} (value : α) (table : Table κ α) (apart : other ≠ key) :
    find? other (put key value table) = find? other table := by
  induction table with
  | nil => simp [put, find?, Ne.symm apart]
  | cons entry table ih =>
      obtain ⟨first, old⟩ := entry
      by_cases same : first = key
      · subst same
        simp [put, find?, Ne.symm apart]
      · by_cases found : first = other
        · simp [put, find?, found, apart]
        · simp [put, find?, same, found, ih]

theorem mem_keys_of_find? {key : κ} {value : α} {table : Table κ α}
    (found : find? key table = some value) : key ∈ keys table := by
  induction table with
  | nil => cases found
  | cons entry table ih =>
      obtain ⟨other, old⟩ := entry
      by_cases same : other = key
      · simp [keys, same]
      · simp only [find?, if_neg same] at found
        exact List.mem_cons_of_mem _ (ih found)

theorem find?_erase_same (key : κ) (table : Table κ α) : find? key (erase key table) = none := by
  induction table with
  | nil => rfl
  | cons entry table ih =>
      obtain ⟨first, old⟩ := entry
      by_cases same : first = key
      · simpa [erase, find?, same] using ih
      · simpa [erase, find?, same] using ih

theorem find?_erase_other {key other : κ} (table : Table κ α) (apart : other ≠ key) :
    find? other (erase key table) = find? other table := by
  induction table with
  | nil => rfl
  | cons entry table ih =>
      obtain ⟨first, old⟩ := entry
      by_cases same : first = key
      · simpa [erase, find?, same, Ne.symm apart] using ih
      · by_cases found : first = other
        · simp [erase, find?, found, apart]
        · simpa [erase, find?, same, found] using ih

end Table

end CommandLog
