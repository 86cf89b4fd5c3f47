import ValueNumbering.Numbering.Action

/-!
Numbering without maps: every decision is found by looking back through what was recorded. The
records are kept as events, the latest first.
-/

namespace ValueNumbering

/-- What a record says: an operand was used, a number was stored through a pointer, a result got its
number, a computation was made. -/
inductive Event
  | used (v : Value) (number : Int)
  | stored (pointer : Value) (number : Int)
  | defined (result : Value) (number : Int)
  | computed (opcode : Opcode) (lhs rhs number : Int)
  deriving DecidableEq, Repr

namespace Event

def number : Event → Int
  | used _ n | stored _ n | defined _ n | computed _ _ _ n => n

def ofValue? (v : Value) : Event → Option Int
  | used w n | defined w n => if w = v then some n else none
  | stored _ _ | computed _ _ _ _ => none

def ofLiteral? (c : Int) : Event → Option Int
  | used v n => if v.literal? = some c then some n else none
  | stored _ _ | defined _ _ | computed _ _ _ _ => none

def ofPointer? (p : Value) : Event → Option Int
  | stored q n => if q = p then some n else none
  | used _ _ | defined _ _ | computed _ _ _ _ => none

def ofComputation? (opcode : Opcode) (lhs rhs : Int) : Event → Option Int
  | computed opcode' lhs' rhs' n =>
      if opcode' = opcode ∧ ((lhs' = lhs ∧ rhs' = rhs) ∨
        (opcode.isCommutative = true ∧ lhs' = rhs ∧ rhs' = lhs))
      then some n else none
  | used _ _ | stored _ _ | defined _ _ => none

end Event

/-- Some way to take one of several numbers. -/
structure Choice where
  choose : List Int → Option Int
  mem : ∀ {candidates n}, choose candidates = some n → n ∈ candidates
  isSome : ∀ {candidates}, candidates ≠ [] → (choose candidates).isSome = true

def Choice.latest : Choice where
  choose := List.head?
  mem := List.mem_of_head?
  isSome := by
    intro candidates some
    cases candidates with
    | nil => exact absurd rfl some
    | cons n rest => rfl

namespace LookBack

def highest : List Event → Int
  | [] => 0
  | e :: rest => max e.number (highest rest)

def fresh (history : List Event) : Int := highest history + 1

/-- The number of an operand: that of any equal literal where literals are shared, else the latest
of the value. -/
def operand (choice : Choice) (shareLiterals : Bool) (history : List Event) (v : Value) : Int :=
  match shareLiterals, v.literal? with
  | true, some c => (choice.choose (history.filterMap (Event.ofLiteral? c))).getD (fresh history)
  | _, _ => (history.findSome? (Event.ofValue? v)).getD (fresh history)

/-- The decision for an action and the history with its record. -/
def decisionFor (choice : Choice) (shareLiterals : Bool) (history : List Event) :
    Action → Decision × List Event
  | .store value pointer =>
      let n := operand choice shareLiterals history value
      (⟨n, [some n], false⟩, .stored pointer n :: .used value n :: history)
  | .load result pointer =>
      let held := history.findSome? (Event.ofPointer? pointer)
      let n := held.getD (fresh history)
      (⟨n, [held], false⟩, .defined result n :: history)
  | .binary opcode result lhs rhs =>
      let left := operand choice shareLiterals history lhs
      let history := .used lhs left :: history
      let right := operand choice shareLiterals history rhs
      let history := .used rhs right :: history
      match choice.choose (history.filterMap (Event.ofComputation? opcode left right)) with
      | some n => (⟨n, [some left, some right], true⟩,
          .computed opcode left right n :: .defined result n :: history)
      | none =>
          let n := fresh history
          (⟨n, [some left, some right], false⟩,
            .computed opcode left right n :: .defined result n :: history)

def decisions (choice : Choice) (shareLiterals : Bool) (history : List Event) :
    List Action → List Decision
  | [] => []
  | action :: rest =>
      let (decision, history) := decisionFor choice shareLiterals history action
      decision :: decisions choice shareLiterals history rest

end LookBack

end ValueNumbering
