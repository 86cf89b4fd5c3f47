import ValueNumbering.IR.Value
import ValueNumbering.Dictionary

/-!
Numbers given out so far: to values, to what was last stored through a pointer, and to integer
literals when equal literals share one number.
-/

namespace ValueNumbering

structure Store where
  shareLiterals : Bool := true
  next : Int := 1
  values : Dictionary Value Int := ∅
  pointers : Dictionary Value Int := ∅
  literals : Dictionary Int Int := ∅
  deriving DecidableEq, Repr, Inhabited

namespace Store

def numberOf (s : Store) (v : Value) : Int × Store :=
  match s.values.find? v with
  | some number => (number, s)
  | none => (s.next, { s with next := s.next + 1, values := s.values.insert v s.next })

/-- The number that equal literals share. -/
def numberOfLiteral (s : Store) (literal : Int) : Int × Store :=
  match s.literals.find? literal with
  | some number => (number, s)
  | none => (s.next, { s with next := s.next + 1, literals := s.literals.insert literal s.next })

/-- The number of an operand: that of its literal where literals are shared. -/
def resolve (s : Store) (v : Value) : Int × Store :=
  match s.shareLiterals, v.literal? with
  | true, some literal => s.numberOfLiteral literal
  | _, _ => s.numberOf v

@[simp] theorem numberOf_shareLiterals (s : Store) (v : Value) :
    (s.numberOf v).2.shareLiterals = s.shareLiterals := by
  unfold numberOf
  split <;> rfl

@[simp] theorem numberOfLiteral_shareLiterals (s : Store) (literal : Int) :
    (s.numberOfLiteral literal).2.shareLiterals = s.shareLiterals := by
  unfold numberOfLiteral
  split <;> rfl

@[simp] theorem resolve_shareLiterals (s : Store) (v : Value) :
    (s.resolve v).2.shareLiterals = s.shareLiterals := by
  unfold resolve
  split <;> simp

def assign (s : Store) (v : Value) (number : Int) : Store :=
  { s with values := s.values.insert v number }

def fresh (s : Store) (v : Value) : Int × Store :=
  (s.next, { s with next := s.next + 1, values := s.values.insert v s.next })

/-- The last write through a pointer counts. -/
def recordPointer (s : Store) (pointer : Value) (number : Int) : Store :=
  { s with pointers := s.pointers.insert pointer number }

def pointerNumber (s : Store) (pointer : Value) : Option Int := s.pointers.find? pointer

end Store

end ValueNumbering
