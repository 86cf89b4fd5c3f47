import ValueNumbering.Proofs.Numbering.Allocation
import ValueNumbering.Proofs.Numbering.StoreOperations

/-!
The numbers that a run holds and mentions have all been given out. No two literals and no two keys
share a number, nor does a literal with a key.
-/

namespace ValueNumbering

/-- The number has been given out: it lies between one and the next one. -/
def Store.Gave (s : Store) (n : Int) : Prop := 1 ≤ n ∧ n < s.next

theorem Store.Gave.mono {s after : Store} {n : Int} (gave : s.Gave n)
    (grows : s.next ≤ after.next) : after.Gave n :=
  ⟨gave.1, Int.lt_of_lt_of_le gave.2 grows⟩

theorem Store.next_le_resolve (s : Store) (v : Value) : s.next ≤ (s.resolve v).2.next := by
  rcases s.next_resolve v with same | ⟨-, next⟩ <;> omega

namespace Knowledge

open Store (Place Operation Effect)

theorem next_le_perform (k : Knowledge) (action : Action) :
    k.store.next ≤ (k.perform action).2.store.next := by
  cases action with
  | store value pointer => exact k.store.next_le_resolve value
  | load result pointer =>
      rw [perform, loadFrom]
      split
      · exact Int.le_refl _
      · exact Int.le_of_lt (Int.lt_succ _)
  | binary opcode result lhs rhs =>
      have left := k.store.next_le_resolve lhs
      have right := (k.store.resolve lhs).2.next_le_resolve rhs
      rcases resolved : k.store.resolve lhs with ⟨number, first⟩
      rcases resolved' : first.resolve rhs with ⟨number', second⟩
      rw [resolved] at left right
      rw [resolved'] at right
      rw [perform]
      cases entry : k.table.find? (Expression.canonical opcode number number') with
      | some known =>
          rw [compute_known resolved resolved' entry]
          exact Int.le_trans left right
      | none =>
          rw [compute_new resolved resolved' entry]
          exact Int.le_trans left (Int.le_trans right (Int.le_of_lt (Int.lt_succ _)))

structure Orderly (k : Knowledge) : Prop where
  start : 1 ≤ k.store.next
  held : ∀ place n, k.store.held place = some n → k.store.Gave n
  entry : ∀ key n, k.table.find? key = some n → k.store.Gave n ∧ k.store.Gave key.lhs ∧
    k.store.Gave key.rhs
  literals : ∀ c c' n, k.store.held (.literal c) = some n →
    k.store.held (.literal c') = some n → c = c'
  keys : ∀ key key' n, k.table.find? key = some n → k.table.find? key' = some n → key = key'
  apart : ∀ c key n, k.store.held (.literal c) = some n → k.table.find? key ≠ some n

namespace Orderly

variable {k : Knowledge} {op : Operation} {answer : Option Int} {after : Store}

theorem empty (shareLiterals : Bool) : Orderly { store := { shareLiterals := shareLiterals } } where
  start := Int.le_refl _
  held := by
    intro place n found
    cases place <;> cases found
  entry := by simp
  literals := by simp [Store.held]
  keys := by simp
  apart := by simp

theorem next_not_held (orderly : Orderly k) (place : Place) :
    k.store.held place ≠ some k.store.next := by
  intro found
  exact Int.lt_irrefl _ (orderly.held place _ found).2

theorem next_not_entered (orderly : Orderly k) (key : Expression) :
    k.table.find? key ≠ some k.store.next := by
  intro found
  exact Int.lt_irrefl _ (orderly.entry key _ found).1.2

theorem advance (orderly : Orderly k) : Orderly { k with store := k.store.advance } where
  start := Int.le_trans orderly.start (Int.le_of_lt (Int.lt_succ _))
  held := by
    intro place n found
    rw [Store.held_advance] at found
    exact (orderly.held place n found).mono (Int.le_of_lt (Int.lt_succ _))
  entry := by
    intro key n found
    obtain ⟨number, left, right⟩ := orderly.entry key n found
    have grows : k.store.next ≤ k.store.advance.next := Int.le_of_lt (Int.lt_succ _)
    exact ⟨number.mono grows, left.mono grows, right.mono grows⟩
  literals := by simpa using orderly.literals
  keys := orderly.keys
  apart := by simpa using orderly.apart

theorem hold (orderly : Orderly k) {n : Int} {place : Place} (gave : k.store.Gave n)
    (new : ∀ c, place = .literal c → (∀ c', k.store.held (.literal c') ≠ some n) ∧
      ∀ key, k.table.find? key ≠ some n) :
    Orderly { k with store := k.store.hold n place } := by
  have same : (k.store.hold n place).next = k.store.next := Store.next_hold _ _ _
  have inRange : ∀ {m : Int}, k.store.Gave m → (k.store.hold n place).Gave m :=
    fun gave => gave.mono (Int.le_of_eq same.symm)
  constructor
  · rw [same]
    exact orderly.start
  · intro other m found
    rw [Store.held_hold] at found
    split at found
    · cases found
      exact inRange gave
    · exact inRange (orderly.held other m found)
  · intro key m found
    obtain ⟨number, left, right⟩ := orderly.entry key m found
    exact ⟨inRange number, inRange left, inRange right⟩
  · intro c c' m found found'
    rw [Store.held_hold] at found found'
    split at found
    · next here =>
        cases found
        split at found'
        · next there => exact Place.literal.inj (here.trans there.symm)
        · exact absurd found' ((new c here.symm).1 c')
    · split at found'
      · next there =>
          cases found'
          exact absurd found ((new c' there.symm).1 c)
      · exact orderly.literals c c' m found found'
  · exact orderly.keys
  · intro c key m found
    rw [Store.held_hold] at found
    split at found
    · next here =>
        cases found
        exact (new c here.symm).2 key
    · exact orderly.apart c key m found

theorem operate (orderly : Orderly k) (effect : Effect k.store op answer after)
    (given : ∀ n ∈ op.given?, k.store.Gave n) :
    Orderly { k with store := after } ∧ ∀ n, answer = some n → after.Gave n := by
  cases effect with
  | found asks known =>
      refine ⟨orderly, fun n isAnswer => ?_⟩
      cases isAnswer
      exact orderly.held _ _ known
  | taken takes =>
      have start := orderly.start
      have gave : k.store.advance.Gave k.store.next := ⟨start, Int.lt_succ _⟩
      refine ⟨orderly.advance.hold gave fun c _ => ⟨fun c' => ?_, orderly.next_not_entered⟩,
        fun n isAnswer => ?_⟩
      · rw [Store.held_advance]
        exact orderly.next_not_held _
      · cases isAnswer
        exact gave.mono (Int.le_of_eq (Store.next_hold _ _ _).symm)
  | @bound _ n isGiven =>
      refine ⟨orderly.hold (given n isGiven) fun c here => ?_, fun n isAnswer => nomatch isAnswer⟩
      cases op <;> simp_all [Operation.given?, Operation.place]
  | lookedUp p => exact ⟨orderly, fun n isAnswer => orderly.held _ n isAnswer⟩

theorem resolve (orderly : Orderly k) (v : Value) :
    Orderly { k with store := (k.store.resolve v).2 } ∧
      (k.store.resolve v).2.Gave (k.store.resolve v).1 := by
  obtain ⟨after, gave⟩ := orderly.operate (Store.effect_operate k.store (.resolve v))
    (by simp [Operation.given?])
  exact ⟨after, gave _ rfl⟩

theorem fresh (orderly : Orderly k) (v : Value) :
    Orderly { k with store := (k.store.fresh v).2 } ∧ (k.store.fresh v).2.Gave k.store.next := by
  obtain ⟨after, gave⟩ := orderly.operate (Store.effect_operate k.store (.fresh v))
    (by simp [Operation.given?])
  exact ⟨after, gave _ rfl⟩

theorem assign (orderly : Orderly k) (v : Value) {n : Int} (gave : k.store.Gave n) :
    Orderly { k with store := k.store.assign v n } :=
  (orderly.operate (Store.effect_operate k.store (.assign v n))
    (by simpa [Operation.given?] using gave)).1

theorem recordPointer (orderly : Orderly k) (p : Value) {n : Int} (gave : k.store.Gave n) :
    Orderly { k with store := k.store.recordPointer p n } :=
  (orderly.operate (Store.effect_operate k.store (.recordPointer p n))
    (by simpa [Operation.given?] using gave)).1

theorem record (orderly : Orderly k) {key : Expression} {n : Int} (gave : k.store.Gave n)
    (left : k.store.Gave key.lhs) (right : k.store.Gave key.rhs)
    (newEntry : ∀ other, k.table.find? other ≠ some n)
    (newLiteral : ∀ c, k.store.held (.literal c) ≠ some n) :
    Orderly { k with table := k.table.insert key n } where
  start := orderly.start
  held := orderly.held
  entry := by
    intro other m found
    rw [Dictionary.find?_insert] at found
    split at found
    · next here =>
        cases found
        exact here ▸ ⟨gave, left, right⟩
    · exact orderly.entry other m found
  literals := orderly.literals
  keys := by
    intro first second m found found'
    rw [Dictionary.find?_insert] at found found'
    split at found
    · next here =>
        cases found
        split at found'
        · next there => exact here.symm.trans there
        · exact absurd found' (newEntry second)
    · split at found'
      · next there =>
          cases found'
          exact absurd found (newEntry first)
      · exact orderly.keys first second m found found'
  apart := by
    intro c other m found
    rw [Dictionary.find?_insert]
    split
    · intro same
      cases same
      exact newLiteral c found
    · exact orderly.apart c other m found

theorem storeThrough (orderly : Orderly k) (value pointer : Value) :
    Orderly (k.storeThrough value pointer).2 ∧
      ∀ n, some n ∈ (k.storeThrough value pointer).1.numbers →
        (k.storeThrough value pointer).2.store.Gave n := by
  obtain ⟨after, gave⟩ := orderly.resolve value
  refine ⟨after.recordPointer pointer gave, fun n mentioned => ?_⟩
  have isNumber : n = (k.store.resolve value).1 := by
    simpa [Knowledge.storeThrough, Decision.numbers] using mentioned
  exact isNumber ▸ gave

theorem loadFrom (orderly : Orderly k) (result pointer : Value) :
    Orderly (k.loadFrom result pointer).2 ∧
      ∀ n, some n ∈ (k.loadFrom result pointer).1.numbers →
        (k.loadFrom result pointer).2.store.Gave n := by
  cases written : k.store.pointerNumber pointer with
  | some number =>
      have gave := orderly.held (.pointer pointer) number written
      rw [Knowledge.loadFrom_written written]
      refine ⟨orderly.assign result gave, fun n mentioned => ?_⟩
      have isNumber : n = number := by simpa [Decision.numbers] using mentioned
      exact isNumber ▸ gave
  | none =>
      obtain ⟨after, gave⟩ := orderly.fresh result
      rw [Knowledge.loadFrom_unwritten written]
      refine ⟨after, fun n mentioned => ?_⟩
      have isNumber : n = k.store.next := by simpa [Decision.numbers] using mentioned
      exact isNumber ▸ gave

theorem gave_canonical {s : Store} (opcode : Opcode) {left right : Int} (isLeft : s.Gave left)
    (isRight : s.Gave right) :
    s.Gave (Expression.canonical opcode left right).lhs ∧
      s.Gave (Expression.canonical opcode left right).rhs := by
  rcases Expression.canonical_cases opcode left right with straight | ⟨-, crossed⟩
  · rw [straight]
    exact ⟨isLeft, isRight⟩
  · rw [crossed]
    exact ⟨isRight, isLeft⟩

theorem compute (orderly : Orderly k) (opcode : Opcode) (result lhs rhs : Value) :
    Orderly (k.compute opcode result lhs rhs).2 ∧
      ∀ n, some n ∈ (k.compute opcode result lhs rhs).1.numbers →
        (k.compute opcode result lhs rhs).2.store.Gave n := by
  obtain ⟨afterLeft, isLeft⟩ := orderly.resolve lhs
  obtain ⟨after, isRight⟩ := afterLeft.resolve rhs
  have grows := Store.next_resolve (k.store.resolve lhs).2 rhs
  rcases resolved : k.store.resolve lhs with ⟨left, first⟩
  rcases resolved' : first.resolve rhs with ⟨right, second⟩
  simp only [resolved, resolved'] at isLeft isRight after grows
  have isLeft' : second.Gave left := isLeft.mono (by omega)
  cases found : k.table.find? (Expression.canonical opcode left right) with
  | some number =>
      have gave : second.Gave number := (after.entry _ number found).1
      rw [Knowledge.compute_known resolved resolved' found]
      refine ⟨after.assign result gave, fun n mentioned => ?_⟩
      simp only [Decision.numbers, List.mem_cons, Option.some.injEq, List.not_mem_nil,
        or_false] at mentioned
      rcases mentioned with rfl | rfl | rfl
      · exact gave
      · exact isLeft'
      · exact isRight
  | none =>
      obtain ⟨afterFresh, gave⟩ := after.fresh result
      have wider : second.next ≤ (second.fresh result).2.next := Int.le_of_lt (Int.lt_succ _)
      obtain ⟨keyLeft, keyRight⟩ := gave_canonical opcode (isLeft'.mono wider) (isRight.mono wider)
      rw [Knowledge.compute_new resolved resolved' found]
      refine ⟨afterFresh.record gave keyLeft keyRight after.next_not_entered fun c =>
        after.next_not_held (.literal c), fun n mentioned => ?_⟩
      simp only [Decision.numbers, List.mem_cons, Option.some.injEq, List.not_mem_nil,
        or_false] at mentioned
      rcases mentioned with rfl | rfl | rfl
      · exact gave
      · exact isLeft'.mono wider
      · exact isRight.mono wider

/-- Every action keeps the numbers in order and mentions only such as have been given out. -/
theorem perform (orderly : Orderly k) (action : Action) :
    Orderly (k.perform action).2 ∧ ∀ n, some n ∈ (k.perform action).1.numbers →
      (k.perform action).2.store.Gave n := by
  cases action with
  | store value pointer => exact orderly.storeThrough value pointer
  | load result pointer => exact orderly.loadFrom result pointer
  | binary opcode result lhs rhs => exact orderly.compute opcode result lhs rhs

end Orderly

end Knowledge

end ValueNumbering
