import ValueNumbering.IR.Instruction
import ValueNumbering.Numbering.Expression
import ValueNumbering.Numbering.Store

/-!
What numbering makes of one instruction. A store, a load or a binary operation is an action on
values; the action decides numbers from what is known and adds to it. Text plays no part here.
-/

namespace ValueNumbering

inductive Action
  | store (value pointer : Value)
  | load (result pointer : Value)
  | binary (opcode : Opcode) (result lhs rhs : Value)
  deriving DecidableEq, Repr

def Instruction.action (inst : Instruction) : Except OperandFault (Option Action) :=
  match inst.opcode with
  | .store => do
      let value ← inst.valueOperand
      let pointer ← inst.pointerOperand
      return some (.store value.value pointer.value)
  | .load => do
      let pointer ← inst.pointerOperand
      return some (.load inst.result pointer.value)
  | opcode =>
      if opcode.isBinary then do
        let (lhs, rhs) ← inst.twoOperands
        return some (.binary opcode inst.result lhs.value rhs.value)
      else .ok none

structure Knowledge where
  store : Store := {}
  table : Dictionary Expression Int := ∅
  deriving DecidableEq, Repr, Inhabited

/-- What was decided for an action: the number of its result, those of its operands, and whether the
result was known already. The number of a store is that of the stored value; the operand of a load
is the number last stored through its pointer. -/
structure Decision where
  number : Int
  operands : List (Option Int)
  redundant : Bool := false
  deriving DecidableEq, Repr, Inhabited

namespace Knowledge

def storeThrough (k : Knowledge) (value pointer : Value) : Decision × Knowledge :=
  let (number, store) := k.store.resolve value
  (⟨number, [some number], false⟩, { k with store := store.recordPointer pointer number })

/-- A load from a pointer that nothing was stored through has a value of its own. -/
def loadFrom (k : Knowledge) (result pointer : Value) : Decision × Knowledge :=
  match k.store.pointerNumber pointer with
  | some number =>
    (⟨number, [some number], false⟩, { k with store := k.store.assign result number })
  | none =>
      let (number, store) := k.store.fresh result
      (⟨number, [none], false⟩, { k with store := store })

theorem loadFrom_written {k : Knowledge} {pointer : Value} {number : Int}
    (written : k.store.pointerNumber pointer = some number) (result : Value) :
    k.loadFrom result pointer =
      (⟨number, [some number], false⟩, { k with store := k.store.assign result number }) := by
  simp [loadFrom, written]

theorem loadFrom_unwritten {k : Knowledge} {pointer : Value}
    (unwritten : k.store.pointerNumber pointer = none) (result : Value) :
    k.loadFrom result pointer =
      (⟨k.store.next, [none], false⟩, { k with store := (k.store.fresh result).2 }) := by
  simp [loadFrom, unwritten, Store.fresh]

def compute (k : Knowledge) (opcode : Opcode) (result lhs rhs : Value) : Decision × Knowledge :=
  let (left, store) := k.store.resolve lhs
  let (right, store) := store.resolve rhs
  let key := Expression.canonical opcode left right
  match k.table.find? key with
  | some number =>
    (⟨number, [some left, some right], true⟩, { k with store := store.assign result number })
  | none =>
      let (number, store) := store.fresh result
      (⟨number, [some left, some right], false⟩, ⟨store, k.table.insert key number⟩)

theorem compute_known {k : Knowledge} {opcode : Opcode} {lhs rhs : Value} {left right number : Int}
    {first second : Store} (resolved : k.store.resolve lhs = (left, first))
    (resolved' : first.resolve rhs = (right, second))
    (found : k.table.find? (Expression.canonical opcode left right) = some number)
    (result : Value) :
    k.compute opcode result lhs rhs =
      (⟨number, [some left, some right], true⟩, ⟨second.assign result number, k.table⟩) := by
  simp [compute, resolved, resolved', found]

theorem compute_new {k : Knowledge} {opcode : Opcode} {lhs rhs : Value} {left right : Int}
    {first second : Store} (resolved : k.store.resolve lhs = (left, first))
    (resolved' : first.resolve rhs = (right, second))
    (missing : k.table.find? (Expression.canonical opcode left right) = none) (result : Value) :
    k.compute opcode result lhs rhs =
      (⟨second.next, [some left, some right], false⟩,
        ⟨(second.fresh result).2, k.table.insert (Expression.canonical opcode left right)
          second.next⟩) := by
  simp [compute, resolved, resolved', missing, Store.fresh]

def perform (k : Knowledge) : Action → Decision × Knowledge
  | .store value pointer => k.storeThrough value pointer
  | .load result pointer => k.loadFrom result pointer
  | .binary opcode result lhs rhs => k.compute opcode result lhs rhs

@[simp] theorem perform_shareLiterals (k : Knowledge) (action : Action) :
    (k.perform action).2.store.shareLiterals = k.store.shareLiterals := by
  cases action with
  | store value pointer => exact k.store.resolve_shareLiterals value
  | load result pointer =>
      dsimp only [perform, loadFrom]
      split <;> rfl
  | binary opcode result lhs rhs =>
      dsimp only [perform, compute]
      split <;> simp [Store.assign, Store.fresh]

def performAll (k : Knowledge) : List Action → List Decision × Knowledge
  | [] => ([], k)
  | action :: rest =>
      let (decision, k) := k.perform action
      let (decisions, k) := k.performAll rest
      (decision :: decisions, k)

end Knowledge

end ValueNumbering
