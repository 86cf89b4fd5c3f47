import ValueNumbering.IR.Instruction
import ValueNumbering.Dictionary

/-! Blocks, functions, global variables and modules. -/

namespace ValueNumbering

structure Argument where
  id : Nat
  name : String
  type : String := "i32"
  deriving DecidableEq, Repr, Inhabited

def Argument.value (arg : Argument) : Value := ⟨arg.id, .argument arg.name arg.type⟩

def Argument.operand (arg : Argument) : Operand := ⟨arg.type, arg.value⟩

/-- A global variable is the address of its storage. -/
structure Global where
  id : Nat
  name : String
  type : String := "ptr"
  initializer : Option String := none
  deriving DecidableEq, Repr, Inhabited

def Global.value (global : Global) : Value := ⟨global.id, .global global.name global.type⟩

structure Block where
  name : String
  instructions : List Instruction := []
  deriving DecidableEq, Repr, Inhabited

def Block.summary (block : Block) : String :=
  s!"BasicBlock({block.name}, {block.instructions.length} insts)"

structure Function where
  name : String
  returnType : String := "void"
  arguments : List Argument := []
  blocks : List Block := []
  /-- The parameter list of a declaration, as it was written. -/
  params : Option String := none
  deriving DecidableEq, Repr, Inhabited

namespace Function

def isDeclaration (fn : Function) : Bool := fn.blocks.isEmpty

def instructions (fn : Function) : List Instruction := fn.blocks.flatMap (·.instructions)

def instructionCount (fn : Function) : Nat := fn.instructions.length

def summary (fn : Function) : String := s!"Function(@{fn.name}, {fn.blocks.length} blocks)"

end Function

structure Module where
  name : String := "<module>"
  functions : List Function := []
  globals : Dictionary String Global := ∅
  deriving Repr, Inhabited

def Module.function? (m : Module) (name : String) : Option Function :=
  m.functions.find? fun fn => fn.name == name

end ValueNumbering
