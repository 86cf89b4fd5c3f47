import ValueNumbering.Proofs.Assembly.Coherent

/-!
Names and their definitions in one function. A name that has a value is defined by an argument or a
result, or waits for its definition; none is defined twice.
-/

namespace ValueNumbering.Assembly

namespace Names

theorem global_scope (names : Names) (name : String) :
    (names.global name).2.values = names.values ∧
      (names.global name).2.pending = names.pending := by
  unfold global
  split <;> exact ⟨rfl, rfl⟩

theorem expression_scope (names : Names) (words type : String) :
    (names.expression words type).2.values = names.values ∧
      (names.expression words type).2.pending = names.pending ∧
      (names.expression words type).2.globals = names.globals := by
  unfold expression
  split <;> exact ⟨rfl, rfl, rfl⟩

end Names

/-- The named values of a function whose arguments and results so far have the names `defined`. -/
structure Accounted (names : Names) (defined : List String) : Prop where
  covered : ∀ {name v}, names.values.find? name = some v → name ∈ defined ∨
    names.pending.contains name = true
  known : ∀ {name}, name ∈ defined → ∃ v, names.values.find? name = some v
  settled : ∀ {name}, name ∈ defined → names.pending.contains name = false
  waiting : ∀ {name}, names.pending.contains name = true →
    ∃ v, names.values.find? name = some v ∧ v.form = .result (some name)
  distinct : defined.Nodup

/-- A definition takes over the value that waits for it, or makes one. -/
theorem define_cases {names after : Names} {name : String} {v : Value}
    (defined : names.define name = .ok (v, after)) :
    (names.values.find? name = some v ∧ names.pending.contains name = true ∧
      after = { names with pending := names.pending.erase name }) ∨
    (names.values.find? name = none ∧ v = ⟨names.nextId, .result (some name)⟩ ∧
      after = { names with nextId := names.nextId + 1, values := names.values.insert name v }) := by
  unfold Names.define at defined
  split at defined
  · next found known =>
      split at defined
      · next waits =>
          cases defined
          exact Or.inl ⟨known, waits, rfl⟩
      · cases defined
  · next absent =>
      cases defined
      exact Or.inr ⟨absent, rfl, rfl⟩

theorem addArgument_ok {line : Nat} {signature signature' : Signature} {names after : Names}
    {name type : String}
    (added : addArgument line signature names name type = .ok (signature', after)) :
    names.values.find? name = none ∧
      signature'.arguments = signature.arguments ++ [⟨names.nextId, name, type⟩] ∧
      after = { names with
        nextId := names.nextId + 1
        values := names.values.insert name ⟨names.nextId, .argument name type⟩ } := by
  unfold addArgument at added
  split at added
  · cases added
  · next absent =>
      cases added
      exact ⟨(Dictionary.contains_eq_false_iff _ _).mp (Bool.eq_false_iff.mpr absent), rfl, rfl⟩

theorem addParameter_ok {line : Nat} {signature signature' : Signature} {names after : Names}
    {parameter : Parameter}
    (added : addParameter line signature names parameter = .ok (signature', after)) :
    (signature' = signature ∧ after = names) ∨ ∃ (earlier : Signature) (name type : String),
      earlier.arguments = signature.arguments ∧
      addArgument line earlier names name type = .ok (signature', after) := by
  cases parameter with
  | variadic =>
      cases added
      exact Or.inl ⟨rfl, rfl⟩
  | unnamed type =>
      obtain ⟨name, -, rest⟩ := bind_eq_ok.mp added
      exact Or.inr ⟨{ signature with slot := signature.slot + 1 }, name, String.ofList type,
        rfl, rest⟩
  | named type name =>
      obtain ⟨slot, -, rest⟩ := bind_eq_ok.mp added
      exact Or.inr ⟨{ signature with slot := slot }, String.ofList name, String.ofList type,
        rfl, rest⟩

namespace Accounted

variable {names : Names} {defined : List String}

theorem newFunction (names : Names) : Accounted names.newFunction [] where
  covered := by simp [Names.newFunction]
  known := by simp
  settled := by simp
  waiting := by simp [Names.newFunction, Dictionary.contains]
  distinct := List.nodup_nil

theorem congr (accounted : Accounted names defined) {after : Names}
    (values : after.values = names.values) (pending : after.pending = names.pending) :
    Accounted after defined where
  covered := by
    rw [values, pending]
    exact accounted.covered
  known := by
    rw [values]
    exact accounted.known
  settled := by
    rw [pending]
    exact accounted.settled
  waiting := by
    rw [values, pending]
    exact accounted.waiting
  distinct := accounted.distinct

theorem fresh (accounted : Accounted names defined) (form : Form) :
    Accounted (names.fresh form).2 defined :=
  accounted.congr rfl rfl

theorem not_mem_of_absent (accounted : Accounted names defined) {name : String}
    (absent : names.values.find? name = none) : name ∉ defined := by
  intro member
  obtain ⟨v, found⟩ := accounted.known member
  simp [absent] at found

theorem not_waiting_of_absent (accounted : Accounted names defined) {name : String}
    (absent : names.values.find? name = none) : names.pending.contains name = false := by
  apply Bool.eq_false_iff.mpr
  intro waits
  obtain ⟨v, found, -⟩ := accounted.waiting waits
  simp [absent] at found

theorem distinct_concat (accounted : Accounted names defined) {name : String}
    (new : name ∉ defined) :
    (defined ++ [name]).Nodup := by
  refine List.nodup_append.mpr ⟨accounted.distinct, by simp, ?_⟩
  intro other member last isLast same
  rw [same, List.mem_singleton.mp isLast] at member
  exact new member

theorem insert (accounted : Accounted names defined) {name : String}
    (absent : names.values.find? name = none) (v : Value) (nextId : Nat) :
    Accounted { names with nextId := nextId, values := names.values.insert name v }
      (defined ++ [name]) where
  covered := by
    intro other w found
    rw [Dictionary.find?_insert] at found
    split at found
    · next same => exact Or.inl (by simp [same])
    · exact (accounted.covered found).imp (List.mem_append_left _) id
  known := by
    intro other member
    rw [Dictionary.find?_insert]
    split
    · exact ⟨v, rfl⟩
    · next different =>
        rcases List.mem_append.mp member with old | new
        · exact accounted.known old
        · exact absurd (List.mem_singleton.mp new).symm different
  settled := by
    intro other member
    rcases List.mem_append.mp member with old | new
    · exact accounted.settled old
    · rw [List.mem_singleton.mp new]
      exact accounted.not_waiting_of_absent absent
  waiting := by
    intro other waits
    obtain ⟨w, found, form⟩ := accounted.waiting waits
    have different : name ≠ other := by
      rintro rfl
      simp [absent] at found
    exact ⟨w, (Dictionary.find?_insert_of_ne _ v different).trans found, form⟩
  distinct := accounted.distinct_concat (accounted.not_mem_of_absent absent)

theorem addArgument (accounted : Accounted names defined) (settled : names.pending = ∅)
    {name : String} (new : name ∉ defined) (line : Nat) (signature : Signature) (type : String) :
    ∃ arg after, Assembly.addArgument line signature names name type =
        .ok ({ signature with arguments := signature.arguments ++ [arg] }, after) ∧
      arg.name = name ∧ arg.type = type ∧ Accounted after (defined ++ [name]) ∧
        after.globals = names.globals ∧ after.pending = ∅ := by
  have absent : names.values.find? name = none := by
    cases known : names.values.find? name with
    | none => rfl
    | some v =>
        rcases accounted.covered known with member | waits
        · exact absurd member new
        · simp [settled, Dictionary.contains] at waits
  have unused : names.values.contains name = false :=
    (Dictionary.contains_eq_false_iff _ _).mpr absent
  let arg : Argument := ⟨names.nextId, name, type⟩
  refine ⟨arg, _, ?_, rfl, rfl, accounted.insert absent arg.value (names.nextId + 1), rfl, settled⟩
  simp [Assembly.addArgument, unused, arg]

theorem settle (accounted : Accounted names defined) {name : String}
    (waits : names.pending.contains name = true) :
    Accounted { names with pending := names.pending.erase name } (defined ++ [name]) where
  covered := by
    intro other v found
    by_cases same : name = other
    · exact Or.inl (by simp [same])
    · rcases accounted.covered found with member | waits
      · exact Or.inl (List.mem_append_left _ member)
      · refine Or.inr ?_
        simpa [Dictionary.contains, Dictionary.find?_erase, same] using waits
  known := by
    intro other member
    rcases List.mem_append.mp member with old | new
    · exact accounted.known old
    · obtain ⟨v, found, -⟩ := accounted.waiting waits
      rw [List.mem_singleton.mp new]
      exact ⟨v, found⟩
  settled := by
    intro other member
    rw [Dictionary.contains_eq_false_iff, Dictionary.find?_erase]
    split
    · rfl
    · next different =>
        rcases List.mem_append.mp member with old | new
        · exact (Dictionary.contains_eq_false_iff _ _).mp (accounted.settled old)
        · exact absurd (List.mem_singleton.mp new).symm different
  waiting := by
    intro other later
    refine accounted.waiting ?_
    rw [Dictionary.contains, Dictionary.find?_erase] at later
    split at later
    · simp at later
    · exact later
  distinct := accounted.distinct_concat fun member => by simp [accounted.settled member] at waits

theorem lookup (accounted : Accounted names defined) (line : Nat) (name : String) :
    Accounted (names.lookup line name).2 defined := by
  unfold Names.lookup
  cases known : names.values.find? name with
  | some found => exact accounted
  | none =>
      have outside := accounted.not_mem_of_absent known
      refine ⟨?_, ?_, ?_, ?_, accounted.distinct⟩
      · intro other v found
        simp only [Names.fresh, Dictionary.contains, Dictionary.find?_insert] at found ⊢
        split at found
        · exact Or.inr (by simp_all)
        · next different =>
            rcases accounted.covered found with member | waits
            · exact Or.inl member
            · exact Or.inr (by simpa [Dictionary.contains, different] using waits)
      · intro other member
        obtain ⟨v, found⟩ := accounted.known member
        have different : name ≠ other := fun same => outside (same ▸ member)
        exact ⟨v, (Dictionary.find?_insert_of_ne _ _ different).trans found⟩
      · intro other member
        have different : name ≠ other := fun same => outside (same ▸ member)
        have settled := accounted.settled member
        rw [Dictionary.contains_eq_false_iff] at settled ⊢
        exact (Dictionary.find?_insert_of_ne _ _ different).trans settled
      · intro other waits
        simp only [Names.fresh, Dictionary.contains, Dictionary.find?_insert] at waits ⊢
        split at waits
        · next same => exact ⟨_, if_pos same, same ▸ rfl⟩
        · next different =>
            obtain ⟨v, found, form⟩ := accounted.waiting waits
            exact ⟨v, (if_neg different).trans found, form⟩

theorem bind (accounted : Accounted names defined) (line : Nat) (token : Token) :
    Accounted (names.bind line token).2 defined := by
  cases token with
  | named name => exact accounted.lookup line name
  | global name =>
      obtain ⟨values, pending⟩ := names.global_scope name
      exact accounted.congr values pending
  | literal value type => exact accounted.fresh (.literal value type)
  | expression words type =>
      obtain ⟨values, pending, -⟩ := names.expression_scope words type
      exact accounted.congr values pending
  | constant text type => exact accounted.fresh (.constant text type)

theorem bindAll (accounted : Accounted names defined) (line : Nat) (tokens : List TypedToken) :
    Accounted (names.bindAll line tokens).2 defined := by
  induction tokens generalizing names with
  | nil => exact accounted
  | cons operand rest ih => exact ih (accounted.bind line operand.token)

end Accounted

end ValueNumbering.Assembly
