/-!
Finite maps that remember the order in which their keys came. Writing to a present key changes its
value and keeps its place; a new key goes to the end.
-/

namespace ValueNumbering

structure Dictionary (κ ν : Type) where
  entries : List (κ × ν) := []
  deriving DecidableEq, Repr

namespace Dictionary

variable {κ ν : Type} [DecidableEq κ]

instance : EmptyCollection (Dictionary κ ν) := ⟨⟨[]⟩⟩

instance : Inhabited (Dictionary κ ν) := ⟨∅⟩

def keys (d : Dictionary κ ν) : List κ := d.entries.map (·.1)

def values (d : Dictionary κ ν) : List ν := d.entries.map (·.2)

def size (d : Dictionary κ ν) : Nat := d.entries.length

def isEmpty (d : Dictionary κ ν) : Bool := d.entries.isEmpty

def find? (d : Dictionary κ ν) (key : κ) : Option ν :=
  (d.entries.find? fun entry => entry.1 = key).map (·.2)

def contains (d : Dictionary κ ν) (key : κ) : Bool := (d.find? key).isSome

def insertEntry (key : κ) (value : ν) : List (κ × ν) → List (κ × ν)
  | [] => [(key, value)]
  | entry :: rest => if entry.1 = key then (key, value) :: rest
      else entry :: insertEntry key value rest

def insert (d : Dictionary κ ν) (key : κ) (value : ν) : Dictionary κ ν :=
  ⟨insertEntry key value d.entries⟩

def erase (d : Dictionary κ ν) (key : κ) : Dictionary κ ν :=
  ⟨d.entries.filter fun entry => entry.1 ≠ key⟩

def merge (d other : Dictionary κ ν) : Dictionary κ ν :=
  other.entries.foldl (fun merged entry => merged.insert entry.1 entry.2) d

def ofList (entries : List (κ × ν)) : Dictionary κ ν := (∅ : Dictionary κ ν).merge ⟨entries⟩

@[simp] theorem find?_empty (key : κ) : (∅ : Dictionary κ ν).find? key = none := rfl

theorem find?_insert (d : Dictionary κ ν) (key : κ) (value : ν) (other : κ) :
    (d.insert key value).find? other = if key = other then some value else d.find? other := by
  obtain ⟨entries⟩ := d
  simp only [find?, insert]
  induction entries with
  | nil => by_cases same : key = other <;> simp [insertEntry, same]
  | cons entry rest ih =>
      by_cases here : entry.1 = key <;> by_cases same : key = other <;>
        by_cases hit : entry.1 = other <;> simp_all [insertEntry]

@[simp] theorem find?_insert_self (d : Dictionary κ ν) (key : κ) (value : ν) :
    (d.insert key value).find? key = some value := by
  simp [find?_insert]

theorem find?_insert_of_ne (d : Dictionary κ ν) {key other : κ} (value : ν)
    (different : key ≠ other) :
    (d.insert key value).find? other = d.find? other := by
  simp [find?_insert, different]

theorem find?_erase (d : Dictionary κ ν) (key other : κ) :
    (d.erase key).find? other = if key = other then none else d.find? other := by
  obtain ⟨entries⟩ := d
  simp only [find?, erase]
  induction entries with
  | nil => simp
  | cons entry rest ih =>
      by_cases here : entry.1 = key <;> by_cases same : key = other <;>
        by_cases hit : entry.1 = other <;> simp_all

theorem contains_eq_false_iff (d : Dictionary κ ν) (key : κ) :
    d.contains key = false ↔ d.find? key = none := by
  simp [contains]

theorem find?_eq_none_iff (d : Dictionary κ ν) (key : κ) : d.find? key = none ↔ key ∉ d.keys := by
  constructor
  · intro missing present
    obtain ⟨entry, member, rfl⟩ := List.mem_map.mp present
    have unequal := List.find?_eq_none.mp (Option.map_eq_none_iff.mp missing) entry member
    simp at unequal
  · intro absent
    refine Option.map_eq_none_iff.mpr (List.find?_eq_none.mpr fun entry member same => absent ?_)
    exact List.mem_map.mpr ⟨entry, member, of_decide_eq_true same⟩

theorem contains_iff_mem_keys (d : Dictionary κ ν) (key : κ) :
    d.contains key = true ↔ key ∈ d.keys := by
  have missing := d.find?_eq_none_iff key
  cases found : d.find? key with
  | none => simpa [contains, found] using missing.mp found
  | some value => simpa [contains, found] using missing

theorem keys_insert (d : Dictionary κ ν) (key : κ) (value : ν) :
    (d.insert key value).keys = if key ∈ d.keys then d.keys else d.keys ++ [key] := by
  obtain ⟨entries⟩ := d
  simp only [keys, insert]
  induction entries with
  | nil => simp [insertEntry]
  | cons entry rest ih =>
      by_cases here : entry.1 = key
      · simp [insertEntry, here]
      · have there : key ≠ entry.1 := fun same => here same.symm
        by_cases later : key ∈ rest.map (·.1) <;> simp_all [insertEntry]

theorem entries_insert_of_not_mem (d : Dictionary κ ν) {key : κ} (new : key ∉ d.keys) (value : ν) :
    (d.insert key value).entries = d.entries ++ [(key, value)] := by
  obtain ⟨entries⟩ := d
  simp only [keys, insert] at new ⊢
  induction entries with
  | nil => rfl
  | cons entry rest ih =>
      obtain ⟨here, later⟩ := not_or.mp (mt List.mem_cons.mpr new)
      simp [insertEntry, Ne.symm here, ih later]

theorem insert_insert (d : Dictionary κ ν) (key : κ) (value other : ν) :
    (d.insert key value).insert key other = d.insert key other := by
  obtain ⟨entries⟩ := d
  simp only [insert, Dictionary.mk.injEq]
  induction entries with
  | nil => simp [insertEntry]
  | cons entry rest ih => by_cases here : entry.1 = key <;> simp [insertEntry, here, ih]

end Dictionary

end ValueNumbering
