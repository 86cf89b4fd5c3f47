import ValueNumbering.Proofs.Numbering.Completion

/-!
The number that an operand has already, and how it stays: a number is given out at first sight, and
only the definition of the operand itself gives it another one.
-/

namespace ValueNumbering

/-- The literal that an operand shares with all equal ones. -/
def sharedLiteral? (shareLiterals : Bool) (v : Value) : Option Int :=
  if shareLiterals then v.literal? else none

namespace Store

variable {s : Store} {v w : Value} {n : Int}

/-- The number that an operand has already. -/
def known? (s : Store) (v : Value) : Option Int :=
  match sharedLiteral? s.shareLiterals v with
  | some literal => s.literals.find? literal
  | none => s.values.find? v

theorem resolve_eq (s : Store) (v : Value) :
    s.resolve v = match sharedLiteral? s.shareLiterals v with
      | some literal => s.numberOfLiteral literal
      | none => s.numberOf v := by
  unfold resolve sharedLiteral?
  cases s.shareLiterals with
  | false => rfl
  | true => cases v.literal? <;> rfl

theorem resolve_of_known (known : s.known? v = some n) : s.resolve v = (n, s) := by
  rw [resolve_eq]
  unfold known? at known
  cases shared : sharedLiteral? s.shareLiterals v with
  | some literal =>
      rw [shared] at known
      simp [numberOfLiteral, known]
  | none =>
      rw [shared] at known
      simp [numberOf, known]

theorem resolve_of_unknown (unknown : s.known? v = none) :
    s.resolve v = (s.next, match sharedLiteral? s.shareLiterals v with
      | some literal => { s with next := s.next + 1, literals := s.literals.insert literal s.next }
      | none => { s with next := s.next + 1, values := s.values.insert v s.next }) := by
  rw [resolve_eq]
  unfold known? at unknown
  cases shared : sharedLiteral? s.shareLiterals v with
  | some literal =>
      rw [shared] at unknown
      simp [numberOfLiteral, unknown]
  | none =>
      rw [shared] at unknown
      simp [numberOf, unknown]

theorem known?_resolve_self (s : Store) (v : Value) :
    (s.resolve v).2.known? v = some (s.resolve v).1 := by
  cases known : s.known? v with
  | some n => simp [resolve_of_known known, known]
  | none =>
      rw [resolve_of_unknown known]
      cases shared : sharedLiteral? s.shareLiterals v <;> simp [known?, shared]

theorem known?_resolve (known : s.known? v = some n) (w : Value) :
    (s.resolve w).2.known? v = some n := by
  cases knownOther : s.known? w with
  | some m => rwa [resolve_of_known knownOther]
  | none =>
      rw [resolve_of_unknown knownOther]
      unfold known? at known knownOther ⊢
      cases shared : sharedLiteral? s.shareLiterals w <;>
        cases shared' : sharedLiteral? s.shareLiterals v <;>
        simp only [shared, shared', Dictionary.find?_insert] at known knownOther ⊢ <;> grind

theorem known?_bind (s : Store) {result : Value} (other : result ≠ v) (number next : Int) :
    ({ s with next := next, values := s.values.insert result number } : Store).known? v =
      s.known? v := by
  unfold known?
  simp only [Dictionary.find?_insert_of_ne _ _ other]

@[simp] theorem resolve_pointerNumber (s : Store) (v p : Value) :
    (s.resolve v).2.pointerNumber p = s.pointerNumber p := by
  unfold resolve numberOf numberOfLiteral
  split <;> split <;> rfl

end Store

namespace Knowledge

variable {k : Knowledge} {action : Action} {v : Value} {n : Int}

/-- An operand keeps its number where another value is defined. -/
theorem known?_perform (known : k.store.known? v = some n) (other : action.result? ≠ some v) :
    (k.perform action).2.store.known? v = some n := by
  cases action with
  | store value pointer => exact Store.known?_resolve known value
  | load result pointer =>
      have different : result ≠ v := fun same => other (congrArg some same)
      dsimp only [perform, loadFrom]
      split <;> exact (Store.known?_bind _ different _ _).trans known
  | binary opcode result lhs rhs =>
      have different : result ≠ v := fun same => other (congrArg some same)
      have resolved := Store.known?_resolve (Store.known?_resolve known lhs) rhs
      dsimp only [perform, compute]
      split <;> exact (Store.known?_bind _ different _ _).trans resolved

theorem pointerNumber_perform {pointer : Value} (other : ∀ value, action ≠ .store value pointer) :
    (k.perform action).2.store.pointerNumber pointer = k.store.pointerNumber pointer := by
  cases action with
  | store value target =>
      have different : target ≠ pointer := by
        rintro rfl
        exact other value rfl
      have kept := Dictionary.find?_insert_of_ne (k.store.resolve value).2.pointers
        (k.store.resolve value).1 different
      exact kept.trans (k.store.resolve_pointerNumber value pointer)
  | load result target =>
      dsimp only [perform, loadFrom]
      split <;> rfl
  | binary opcode result lhs rhs =>
      have kept : ((k.store.resolve lhs).2.resolve rhs).2.pointerNumber pointer =
          k.store.pointerNumber pointer := by simp
      dsimp only [perform, compute]
      split <;> exact kept

theorem find?_table_perform {key : Expression} (found : k.table.find? key = some n)
    (action : Action) :
    (k.perform action).2.table.find? key = some n := by
  cases action with
  | store value pointer => exact found
  | load result pointer =>
      dsimp only [perform, loadFrom]
      split <;> exact found
  | binary opcode result lhs rhs =>
      dsimp only [perform, compute]
      split
      · exact found
      · next missing =>
          refine (Dictionary.find?_insert_of_ne _ _ fun same => ?_).trans found
          rw [same, found] at missing
          cases missing

end Knowledge

end ValueNumbering
