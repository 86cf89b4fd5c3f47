import ValueNumbering.Proofs.Numbering.Actions
import ValueNumbering.Proofs.Numbering.LookBack

/-!
The maps of the store and the table only summarise the records: looking back through the records
finds the same numbers.
-/

namespace ValueNumbering

/-- A look-up agrees with the numbers that the records offer: none where they offer none, and else
any of them. -/
def Agrees (found : Option Int) (candidates : List Int) : Prop :=
  (candidates = [] → found = none) ∧ ∀ n ∈ candidates, found = some n

namespace Agrees

variable {found : Option Int} {candidates : List Int} {n : Int}

theorem choose_eq (agrees : Agrees found candidates) (choice : Choice) :
    choice.choose candidates = found := by
  cases chosen : choice.choose candidates with
  | some n => exact (agrees.2 n (choice.mem chosen)).symm
  | none =>
      by_cases empty : candidates = []
      · exact (agrees.1 empty).symm
      · have some := choice.isSome empty
        rw [chosen] at some
        cases some

theorem again (agrees : Agrees (some n) candidates) : Agrees (some n) (n :: candidates) := by
  refine ⟨by simp, ?_⟩
  intro m member
  rcases List.mem_cons.mp member with rfl | old
  · rfl
  · exact agrees.2 m old

theorem first (agrees : Agrees none candidates) (n : Int) : Agrees (some n) (n :: candidates) := by
  refine ⟨by simp, ?_⟩
  intro m member
  rcases List.mem_cons.mp member with rfl | old
  · rfl
  · cases agrees.2 m old

end Agrees

namespace LookBack

def Mentions (history : List Event) (n : Int) : Prop := ∃ e ∈ history, e.number = n

theorem Mentions.cons {history : List Event} {n : Int} (mentions : Mentions history n) (e : Event) :
    Mentions (e :: history) n := by
  obtain ⟨earlier, member, same⟩ := mentions
  exact ⟨earlier, List.mem_cons_of_mem e member, same⟩

theorem le_highest {history : List Event} {n : Int} (mentions : Mentions history n) :
    n ≤ highest history := by
  obtain ⟨e, member, rfl⟩ := mentions
  induction history with
  | nil => cases member
  | cons last rest ih =>
      rcases List.mem_cons.mp member with rfl | old
      · exact Int.le_max_left _ _
      · exact Int.le_trans (ih old) (Int.le_max_right _ _)

theorem fresh_cons_old {history : List Event} {e : Event} (mentions : Mentions history e.number) :
    fresh (e :: history) = fresh history := by
  have bound := le_highest mentions
  simp only [fresh, highest]
  omega

theorem fresh_cons_new {history : List Event} {e : Event} (new : e.number = fresh history) :
    fresh (e :: history) = fresh history + 1 := by
  simp only [fresh, highest] at new ⊢
  omega

theorem mentions_of_findSome? {history : List Event} {n : Int} {f : Event → Option Int}
    (number_eq : ∀ e m, f e = some m → e.number = m) (found : history.findSome? f = some n) :
    Mentions history n := by
  obtain ⟨e, member, here⟩ := List.exists_of_findSome?_eq_some found
  exact ⟨e, member, number_eq e n here⟩

theorem mentions_of_agrees {history : List Event} {n : Int} {f : Event → Option Int}
    (number_eq : ∀ e m, f e = some m → e.number = m)
    (agrees : Agrees (some n) (history.filterMap f)) :
    Mentions history n := by
  cases offered : history.filterMap f with
  | nil => cases agrees.1 offered
  | cons m rest =>
      have member : m ∈ history.filterMap f := by simp [offered]
      cases agrees.2 m member
      obtain ⟨e, inside, here⟩ := List.mem_filterMap.mp member
      exact ⟨e, inside, number_eq e n here⟩

theorem number_of_value {v : Value} {e : Event} {n : Int} (about : e.ofValue? v = some n) :
    e.number = n := by
  cases e <;> simp_all [Event.ofValue?, Event.number]

theorem number_of_literal {c : Int} {e : Event} {n : Int} (about : e.ofLiteral? c = some n) :
    e.number = n := by
  cases e <;> simp_all [Event.ofLiteral?, Event.number]

theorem number_of_pointer {p : Value} {e : Event} {n : Int} (about : e.ofPointer? p = some n) :
    e.number = n := by
  cases e <;> simp_all [Event.ofPointer?, Event.number]

theorem number_of_computation {opcode : Opcode} {lhs rhs : Int} {e : Event} {n : Int}
    (about : e.ofComputation? opcode lhs rhs = some n) : e.number = n := by
  cases e <;> simp_all [Event.ofComputation?, Event.number]

theorem ofComputation?_computed (opcode opcode' : Opcode) (lhs rhs lhs' rhs' n : Int) :
    (Event.computed opcode' lhs' rhs' n).ofComputation? opcode lhs rhs =
      if Expression.canonical opcode' lhs' rhs' = Expression.canonical opcode lhs rhs then some n
        else none := by
  rw [Event.ofComputation?]
  refine if_congr ?_ rfl rfl
  rw [Expression.canonical_eq_iff]
  constructor
  · rintro ⟨rfl, operands⟩
    exact ⟨rfl, operands⟩
  · rintro ⟨rfl, operands⟩
    exact ⟨rfl, operands⟩

theorem ofComputation?_congr {opcode opcode' : Opcode} {lhs rhs lhs' rhs' : Int}
    (same : Expression.canonical opcode lhs rhs = Expression.canonical opcode' lhs' rhs') :
    Event.ofComputation? opcode lhs rhs = Event.ofComputation? opcode' lhs' rhs' := by
  funext e
  cases e with
  | computed => rw [ofComputation?_computed, ofComputation?_computed, same]
  | _ => rfl

/-- Every map of the store and the table is what looking back through the history finds. Where
literals are shared, the map of values says nothing about them. -/
structure Remembers (history : List Event) (store : Store) (table : Dictionary Expression Int) :
    Prop where
  next : store.next = fresh history
  value : ∀ v, (store.shareLiterals = true → v.literal? = none) →
    store.values.find? v = history.findSome? (Event.ofValue? v)
  literal : store.shareLiterals = true → ∀ c,
    Agrees (store.literals.find? c) (history.filterMap (Event.ofLiteral? c))
  pointer : ∀ p, store.pointers.find? p = history.findSome? (Event.ofPointer? p)
  key : ∀ opcode lhs rhs, Agrees (table.find? (Expression.canonical opcode lhs rhs))
    (history.filterMap (Event.ofComputation? opcode lhs rhs))

namespace Remembers

variable {history : List Event} {store : Store} {table : Dictionary Expression Int}

theorem start (shareLiterals : Bool) : Remembers [] { shareLiterals := shareLiterals } ∅ where
  next := rfl
  value := by simp
  literal := by simp [Agrees]
  pointer := by simp
  key := by simp [Agrees]

theorem numberOf (remembers : Remembers history store table) {v : Value}
    (plain : store.shareLiterals = true → v.literal? = none) :
    (store.numberOf v).1 = (history.findSome? (Event.ofValue? v)).getD (fresh history) ∧
      Remembers (.used v (store.numberOf v).1 :: history) (store.numberOf v).2 table := by
  have held := remembers.value v plain
  unfold Store.numberOf
  split
  · next n found =>
      rw [found] at held
      have mentions := mentions_of_findSome? (fun _ _ => number_of_value) held.symm
      refine ⟨by simp [← held], ?_, ?_, ?_, ?_, ?_⟩
      · rw [fresh_cons_old mentions]
        exact remembers.next
      · intro w other
        by_cases same : v = w
        · subst same
          simp [Event.ofValue?, found]
        · simpa [List.findSome?_cons, Event.ofValue?, same] using remembers.value w other
      · intro shared c
        simpa [List.filterMap_cons, Event.ofLiteral?, plain shared] using remembers.literal shared c
      · intro p
        simpa [List.findSome?_cons, Event.ofPointer?] using remembers.pointer p
      · intro opcode lhs rhs
        simpa [List.filterMap_cons, Event.ofComputation?] using remembers.key opcode lhs rhs
  · next missing =>
      rw [missing] at held
      refine ⟨by simp [← held, remembers.next], ?_, ?_, ?_, ?_, ?_⟩
      · rw [fresh_cons_new (e := .used v store.next) remembers.next, ← remembers.next]
      · intro w other
        rw [Dictionary.find?_insert]
        by_cases same : v = w
        · simp [Event.ofValue?, same]
        · simpa [List.findSome?_cons, Event.ofValue?, same] using remembers.value w other
      · intro shared c
        simpa [List.filterMap_cons, Event.ofLiteral?, plain shared] using remembers.literal shared c
      · intro p
        simpa [List.findSome?_cons, Event.ofPointer?] using remembers.pointer p
      · intro opcode lhs rhs
        simpa [List.filterMap_cons, Event.ofComputation?] using remembers.key opcode lhs rhs

theorem numberOfLiteral (remembers : Remembers history store table) (choice : Choice) {v : Value}
    {c : Int} (shared : store.shareLiterals = true) (literal : v.literal? = some c) :
    (store.numberOfLiteral c).1 =
        (choice.choose (history.filterMap (Event.ofLiteral? c))).getD (fresh history) ∧
      Remembers (.used v (store.numberOfLiteral c).1 :: history)
        (store.numberOfLiteral c).2 table := by
  have held := remembers.literal shared c
  rw [held.choose_eq choice]
  -- the use of a shared literal is not about a plain value
  have other (w : Value) (plain : store.shareLiterals = true → w.literal? = none) : v ≠ w := by
    rintro rfl
    rw [plain shared] at literal
    cases literal
  unfold Store.numberOfLiteral
  split
  · next n found =>
      rw [found] at held
      have mentions := mentions_of_agrees (fun _ _ => number_of_literal) held
      refine ⟨by simp [found], ?_, ?_, ?_, ?_, ?_⟩
      · rw [fresh_cons_old mentions]
        exact remembers.next
      · intro w plain
        simpa [List.findSome?_cons, Event.ofValue?, other w plain] using remembers.value w plain
      · intro _ c'
        by_cases same : c = c'
        · subst same
          simpa [List.filterMap_cons, Event.ofLiteral?, literal, found] using held.again
        · simpa [List.filterMap_cons, Event.ofLiteral?, literal, same]
            using remembers.literal shared c'
      · intro p
        simpa [List.findSome?_cons, Event.ofPointer?] using remembers.pointer p
      · intro opcode lhs rhs
        simpa [List.filterMap_cons, Event.ofComputation?] using remembers.key opcode lhs rhs
  · next missing =>
      rw [missing] at held
      refine ⟨by simp [missing, remembers.next], ?_, ?_, ?_, ?_, ?_⟩
      · rw [fresh_cons_new (e := .used v store.next) remembers.next, ← remembers.next]
      · intro w plain
        simpa [List.findSome?_cons, Event.ofValue?, other w plain] using remembers.value w plain
      · intro _ c'
        rw [Dictionary.find?_insert]
        by_cases same : c = c'
        · subst same
          simpa [List.filterMap_cons, Event.ofLiteral?, literal] using held.first store.next
        · simpa [List.filterMap_cons, Event.ofLiteral?, literal, same]
            using remembers.literal shared c'
      · intro p
        simpa [List.findSome?_cons, Event.ofPointer?] using remembers.pointer p
      · intro opcode lhs rhs
        simpa [List.filterMap_cons, Event.ofComputation?] using remembers.key opcode lhs rhs

theorem resolve (remembers : Remembers history store table) (choice : Choice) (v : Value) :
    (store.resolve v).1 = operand choice store.shareLiterals history v ∧
      Remembers (.used v (store.resolve v).1 :: history) (store.resolve v).2 table := by
  unfold Store.resolve operand
  cases shared : store.shareLiterals with
  | false => exact remembers.numberOf (by simp [shared])
  | true =>
      cases literal : v.literal? with
      | none => exact remembers.numberOf (by simp [literal])
      | some c => exact remembers.numberOfLiteral choice shared literal

theorem recordPointer (remembers : Remembers history store table) {n : Int}
    (mentions : Mentions history n) (pointer : Value) :
    Remembers (.stored pointer n :: history) (store.recordPointer pointer n) table where
  next := by
    rw [fresh_cons_old mentions]
    exact remembers.next
  value := by
    intro v plain
    simpa [Store.recordPointer, List.findSome?_cons, Event.ofValue?] using remembers.value v plain
  literal := by
    intro shared c
    simpa [Store.recordPointer, List.filterMap_cons, Event.ofLiteral?]
      using remembers.literal shared c
  pointer := by
    intro p
    simp only [Store.recordPointer, Dictionary.find?_insert]
    by_cases same : pointer = p
    · simp [Event.ofPointer?, same]
    · simpa [List.findSome?_cons, Event.ofPointer?, same] using remembers.pointer p
  key := by
    intro opcode lhs rhs
    simpa [List.filterMap_cons, Event.ofComputation?] using remembers.key opcode lhs rhs

theorem assign (remembers : Remembers history store table) {n : Int} (mentions : Mentions history n)
    (result : Value) : Remembers (.defined result n :: history) (store.assign result n) table where
  next := by
    rw [fresh_cons_old mentions]
    exact remembers.next
  value := by
    intro v plain
    simp only [Store.assign, Dictionary.find?_insert]
    by_cases same : result = v
    · simp [Event.ofValue?, same]
    · simpa [List.findSome?_cons, Event.ofValue?, same] using remembers.value v plain
  literal := by
    intro shared c
    simpa [Store.assign, List.filterMap_cons, Event.ofLiteral?] using remembers.literal shared c
  pointer := by
    intro p
    simpa [Store.assign, List.findSome?_cons, Event.ofPointer?] using remembers.pointer p
  key := by
    intro opcode lhs rhs
    simpa [List.filterMap_cons, Event.ofComputation?] using remembers.key opcode lhs rhs

theorem fresh (remembers : Remembers history store table) (result : Value) :
    Remembers (.defined result (LookBack.fresh history) :: history)
      (store.fresh result).2 table where
  next := by
    rw [fresh_cons_new (e := .defined result (LookBack.fresh history)) rfl, ← remembers.next]
    rfl
  value := by
    intro v plain
    simp only [Store.fresh, Dictionary.find?_insert]
    by_cases same : result = v
    · simp [Event.ofValue?, same, remembers.next]
    · simpa [List.findSome?_cons, Event.ofValue?, same] using remembers.value v plain
  literal := by
    intro shared c
    simpa [Store.fresh, List.filterMap_cons, Event.ofLiteral?] using remembers.literal shared c
  pointer := by
    intro p
    simpa [Store.fresh, List.findSome?_cons, Event.ofPointer?] using remembers.pointer p
  key := by
    intro opcode lhs rhs
    simpa [List.filterMap_cons, Event.ofComputation?] using remembers.key opcode lhs rhs

/-- A computation is remembered under its key, whether the key was in the table or is written
now. -/
theorem computed (remembers : Remembers history store table) {n : Int}
    (mentions : Mentions history n) {opcode : Opcode} {left right : Int}
    {table' : Dictionary Expression Int}
    (entry : Agrees (table'.find? (Expression.canonical opcode left right))
      (n :: history.filterMap (Event.ofComputation? opcode left right)))
    (others : ∀ key, key ≠ Expression.canonical opcode left right →
      table'.find? key = table.find? key) :
    Remembers (.computed opcode left right n :: history) store table' where
  next := by
    rw [fresh_cons_old mentions]
    exact remembers.next
  value := by
    intro v plain
    simpa [List.findSome?_cons, Event.ofValue?] using remembers.value v plain
  literal := by
    intro shared c
    simpa [List.filterMap_cons, Event.ofLiteral?] using remembers.literal shared c
  pointer := by
    intro p
    simpa [List.findSome?_cons, Event.ofPointer?] using remembers.pointer p
  key := by
    intro opcode' lhs rhs
    rw [List.filterMap_cons, ofComputation?_computed]
    by_cases same : Expression.canonical opcode left right = Expression.canonical opcode' lhs rhs
    · rw [if_pos same, ← same, ← ofComputation?_congr same]
      exact entry
    · rw [if_neg same, others _ fun equal => same equal.symm]
      exact remembers.key opcode' lhs rhs

variable {k : Knowledge}

theorem storeThrough (remembers : Remembers history k.store k.table) (choice : Choice)
    (value pointer : Value) :
    let found := decisionFor choice k.store.shareLiterals history (.store value pointer)
    (k.storeThrough value pointer).1 = found.1 ∧
      Remembers found.2 (k.storeThrough value pointer).2.store
        (k.storeThrough value pointer).2.table := by
  obtain ⟨number_eq, after⟩ := remembers.resolve choice value
  dsimp only [decisionFor]
  rw [← number_eq]
  exact ⟨rfl, after.recordPointer ⟨_, List.mem_cons_self, rfl⟩ pointer⟩

theorem loadFrom (remembers : Remembers history k.store k.table) (choice : Choice)
    (result pointer : Value) :
    let found := decisionFor choice k.store.shareLiterals history (.load result pointer)
    (k.loadFrom result pointer).1 = found.1 ∧
      Remembers found.2 (k.loadFrom result pointer).2.store
        (k.loadFrom result pointer).2.table := by
  have held := remembers.pointer pointer
  dsimp only [decisionFor]
  rw [← held]
  cases written : k.store.pointers.find? pointer with
  | some n =>
      have mentions := mentions_of_findSome? (fun _ _ => number_of_pointer)
        (held.symm.trans written)
      rw [Knowledge.loadFrom_written written]
      exact ⟨rfl, remembers.assign mentions result⟩
  | none =>
      rw [Knowledge.loadFrom_unwritten written, remembers.next]
      exact ⟨rfl, remembers.fresh result⟩

theorem compute (remembers : Remembers history k.store k.table) (choice : Choice) (opcode : Opcode)
    (result lhs rhs : Value) :
    let found := decisionFor choice k.store.shareLiterals history (.binary opcode result lhs rhs)
    (k.compute opcode result lhs rhs).1 = found.1 ∧
      Remembers found.2 (k.compute opcode result lhs rhs).2.store
        (k.compute opcode result lhs rhs).2.table := by
  obtain ⟨left_eq, afterLeft⟩ := remembers.resolve choice lhs
  obtain ⟨right_eq, after⟩ := afterLeft.resolve choice rhs
  have mode := Store.resolve_shareLiterals k.store lhs
  rcases resolved : k.store.resolve lhs with ⟨left, first⟩
  rcases resolved' : first.resolve rhs with ⟨right, second⟩
  rw [resolved] at left_eq right_eq after mode
  rw [resolved'] at right_eq after
  rw [mode] at right_eq
  dsimp only at left_eq right_eq after
  have held := after.key opcode left right
  dsimp only [decisionFor]
  rw [← left_eq, ← right_eq, held.choose_eq choice]
  cases found : k.table.find? (Expression.canonical opcode left right) with
  | some n =>
      rw [found] at held
      have mentions := mentions_of_agrees (fun _ _ => number_of_computation) held
      rw [Knowledge.compute_known resolved resolved' found]
      refine ⟨rfl, (after.assign mentions result).computed (mentions.cons _) ?_ fun _ _ => rfl⟩
      rw [found]
      exact held.again
  | none =>
      rw [found] at held
      rw [Knowledge.compute_new resolved resolved' found, after.next]
      refine ⟨rfl, (after.fresh result).computed ⟨_, List.mem_cons_self, rfl⟩ ?_ ?_⟩
      · rw [Dictionary.find?_insert_self]
        exact held.first _
      · intro key other
        exact Dictionary.find?_insert_of_ne _ _ other.symm

theorem perform (remembers : Remembers history k.store k.table) (choice : Choice)
    (action : Action) :
    let found := decisionFor choice k.store.shareLiterals history action
    (k.perform action).1 = found.1 ∧
      Remembers found.2 (k.perform action).2.store (k.perform action).2.table := by
  cases action with
  | store value pointer => exact remembers.storeThrough choice value pointer
  | load result pointer => exact remembers.loadFrom choice result pointer
  | binary opcode result lhs rhs => exact remembers.compute choice opcode result lhs rhs

theorem performAll (remembers : Remembers history k.store k.table) (choice : Choice)
    (actions : List Action) :
    (k.performAll actions).1 = decisions choice k.store.shareLiterals history actions := by
  induction actions generalizing k history with
  | nil => rfl
  | cons action rest ih =>
      obtain ⟨decision_eq, after⟩ := remembers.perform choice action
      have tail := ih after
      rw [Knowledge.perform_shareLiterals] at tail
      simp only [Knowledge.performAll, decisions]
      rw [decision_eq, tail]

end Remembers

end LookBack

/-- There is one record for each numbered instruction, and looking back through the earlier records
gives each of them, whichever of several equal numbers is taken. -/
theorem records_eq_lookBack (settings : Numbering.Settings) (fn : Function)
    (finished : (Numbering.ofFunction settings fn).fault = none) (choice : Choice) :
    Numbering.OneRecordEach fn (Numbering.ofFunction settings fn).numbering.records ∧
      (Numbering.ofFunction settings fn).numbering.records.map (·.toDecision) =
        LookBack.decisions choice settings.shareLiterals [] fn.actions := by
  refine ⟨Numbering.oneRecordEach_of_finished finished, ?_⟩
  rw [Numbering.decisions_of_finished finished]
  exact (LookBack.Remembers.start settings.shareLiterals).performAll choice fn.actions

def sumsAroundDefinition : Function :=
  let one (id : Nat) : Operand := ⟨"i32", ⟨id, .literal 1 "i32"⟩⟩
  let later : Instruction :=
    { id := 0, opcode := .mul, operands := [one 1, one 2], name := some "x", text := some "x" }
  let before : Instruction :=
    { id := 3, opcode := .add, operands := [later.operand, one 4], name := some "a",
      text := some "a" }
  let after : Instruction :=
    { id := 5, opcode := .add, operands := [one 6, later.operand], name := some "b",
      text := some "b" }
  { name := "sums", blocks := [⟨"entry", [before, later, after]⟩] }

theorem sumsAroundDefinition_lookBack :
    (Numbering.ofFunction {} sumsAroundDefinition).fault = none ∧
      (Numbering.ofFunction {} sumsAroundDefinition).numbering.records.map (·.toDecision) =
        LookBack.decisions .latest true [] sumsAroundDefinition.actions ∧
      LookBack.decisions .latest true [] sumsAroundDefinition.actions =
        [⟨3, [some 1, some 2], false⟩, ⟨4, [some 2, some 2], false⟩,
          ⟨5, [some 2, some 4], false⟩] :=
  ⟨by decide, (records_eq_lookBack {} sumsAroundDefinition (by decide) .latest).2, by decide⟩

end ValueNumbering
