import ValueNumbering.Dictionary

/-! Dictionaries whose keys are distinct, what an insertion adds to one, and what is found where one
is merged into another. -/

namespace ValueNumbering.Dictionary

variable {κ ν : Type} [DecidableEq κ]

theorem contains_insert (d : Dictionary κ ν) (key : κ) (value : ν) (other : κ) :
    (d.insert key value).contains other = (decide (key = other) || d.contains other) := by
  by_cases same : key = other <;> simp [contains, find?_insert, same]

theorem contains_erase (d : Dictionary κ ν) (key other : κ) :
    (d.erase key).contains other = (!decide (key = other) && d.contains other) := by
  by_cases same : key = other <;> simp [contains, find?_erase, same]

theorem entries_eq_nil_iff (d : Dictionary κ ν) :
    d.entries = [] ↔ ∀ key, d.contains key = false := by
  constructor
  · intro empty key
    simp [contains, find?, empty]
  · intro absent
    cases entries : d.entries with
    | nil => rfl
    | cons entry rest =>
        have present := absent entry.1
        simp [contains, find?, entries] at present

theorem mem_entries_of_find? {d : Dictionary κ ν} {key : κ} {value : ν}
    (found : d.find? key = some value) :
    (key, value) ∈ d.entries := by
  obtain ⟨entry, isFirst, rfl⟩ := Option.map_eq_some_iff.mp found
  have same := List.find?_some isFirst
  obtain rfl : entry.1 = key := of_decide_eq_true same
  exact List.mem_of_find?_eq_some isFirst

theorem mem_entries_iff {d : Dictionary κ ν} (distinct : d.keys.Nodup) {key : κ} {value : ν} :
    (key, value) ∈ d.entries ↔ d.find? key = some value := by
  refine ⟨fun member => ?_, mem_entries_of_find?⟩
  obtain ⟨entries⟩ := d
  induction entries with
  | nil => cases member
  | cons entry rest ih =>
      obtain ⟨new, others⟩ := List.nodup_cons.mp distinct
      rcases List.mem_cons.mp member with rfl | later
      · simp [find?]
      · have apart : entry.1 ≠ key := by
          intro same
          exact new (List.mem_map.mpr ⟨(key, value), later, same.symm⟩)
        simpa [find?, List.find?_cons, apart] using ih others later

theorem mem_entries_insert {d : Dictionary κ ν} {key : κ} {value : ν} {entry : κ × ν}
    (member : entry ∈ (d.insert key value).entries) : entry = (key, value) ∨ entry ∈ d.entries := by
  obtain ⟨entries⟩ := d
  simp only [insert] at member ⊢
  induction entries with
  | nil => exact Or.inl (List.mem_singleton.mp member)
  | cons first rest ih =>
      unfold insertEntry at member
      split at member
      · rcases List.mem_cons.mp member with new | old
        · exact Or.inl new
        · exact Or.inr (List.mem_cons_of_mem _ old)
      · rcases List.mem_cons.mp member with here | later
        · exact Or.inr (here ▸ List.mem_cons_self ..)
        · exact (ih later).imp id (List.mem_cons_of_mem _)

theorem nodup_keys_insert {d : Dictionary κ ν} (distinct : d.keys.Nodup) (key : κ) (value : ν) :
    (d.insert key value).keys.Nodup := by
  rw [keys_insert]
  split
  · exact distinct
  · next new =>
      refine List.nodup_append.mpr ⟨distinct, by simp, ?_⟩
      rintro other member key isKey rfl
      exact new (List.mem_singleton.mp isKey ▸ member)

theorem nodup_keys_merge {d : Dictionary κ ν} (distinct : d.keys.Nodup) (other : Dictionary κ ν) :
    (d.merge other).keys.Nodup := by
  obtain ⟨entries⟩ := other
  induction entries generalizing d with
  | nil => exact distinct
  | cons entry rest ih => exact ih (nodup_keys_insert distinct entry.1 entry.2)

theorem nodup_keys_ofList (entries : List (κ × ν)) : (ofList entries).keys.Nodup :=
  nodup_keys_merge (d := ∅) List.nodup_nil ⟨entries⟩

theorem size_insert_of_missing {d : Dictionary κ ν} {key : κ} (missing : d.find? key = none)
    (value : ν) :
    (d.insert key value).size = d.size + 1 := by
  unfold size
  rw [d.entries_insert_of_not_mem (d.find?_eq_none_iff key |>.mp missing), List.length_append,
    List.length_singleton]

section Map

variable {μ : Type} (f : κ → ν → μ) (d : Dictionary κ ν)

theorem find?_map_entries (key : κ) :
    (⟨d.entries.map fun entry => (entry.1, f entry.1 entry.2)⟩ : Dictionary κ μ).find? key =
      (d.find? key).map (f key) := by
  obtain ⟨entries⟩ := d
  simp only [find?]
  induction entries with
  | nil => rfl
  | cons entry rest ih =>
      by_cases same : entry.1 = key
      · simp [same]
      · simpa [same] using ih

omit [DecidableEq κ] in
theorem keys_map_entries :
    (⟨d.entries.map fun entry => (entry.1, f entry.1 entry.2)⟩ : Dictionary κ μ).keys = d.keys := by
  rw [keys, List.map_map]
  rfl

end Map

/-- Where a dictionary is merged into another one its entries take precedence. -/
theorem find?_merge (d : Dictionary κ ν) {other : Dictionary κ ν} (distinct : other.keys.Nodup)
    (key : κ) :
    (d.merge other).find? key = (other.find? key).or (d.find? key) := by
  obtain ⟨entries⟩ := other
  induction entries generalizing d with
  | nil => rfl
  | cons entry rest ih =>
      have apart : entry.1 ∉ (⟨rest⟩ : Dictionary κ ν).keys ∧
          (⟨rest⟩ : Dictionary κ ν).keys.Nodup := List.nodup_cons.mp distinct
      have merged := ih (d.insert entry.1 entry.2) apart.2
      have first : (⟨entry :: rest⟩ : Dictionary κ ν).find? key =
          if entry.1 = key then some entry.2 else (⟨rest⟩ : Dictionary κ ν).find? key := by
        by_cases same : entry.1 = key <;> simp [find?, same]
      rw [first]
      refine merged.trans ?_
      rw [find?_insert]
      split
      · next same =>
          rw [← same, (find?_eq_none_iff _ _).mpr apart.1]
          rfl
      · rfl

end ValueNumbering.Dictionary
