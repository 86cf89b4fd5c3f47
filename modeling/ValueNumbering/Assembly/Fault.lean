import ValueNumbering.IR.Opcode
import ValueNumbering.Text.Integer

/-! What can be wrong with textual IR. -/

namespace ValueNumbering.Assembly

inductive Cause
  | malformedDefinition
  | malformedDeclaration
  | outsideFunction
  | redefinedArgument (name : String)
  | redefinedValue (name : String)
  | undefinedValue (name : String)
  | unterminatedFunction (name : String)
  | unreadableLine (line : String)
  | storeOperands
  | loadOperands
  | binaryOperands (opcode : Opcode)
  | binaryType (opcode : Opcode)
  | untypedOperand (text : String)
  deriving DecidableEq, Repr

def Cause.message : Cause → String
  | .malformedDefinition => "malformed function definition"
  | .malformedDeclaration => "malformed function declaration"
  | .outsideFunction => "instruction outside of a function"
  | .redefinedArgument name => s!"redefinition of argument %{name}"
  | .redefinedValue name => s!"redefinition of value %{name}"
  | .undefinedValue name => s!"use of undefined value %{name}"
  | .unterminatedFunction name => s!"unterminated function @{name}"
  | .unreadableLine line => s!"cannot parse instruction: {line}"
  | .storeOperands => "store expects a value and a pointer operand"
  | .loadOperands => "load expects a type and a pointer operand"
  | .binaryOperands opcode => s!"{opcode.mnemonic} expects two operands"
  | .binaryType opcode => s!"{opcode.mnemonic} expects a type and two operands"
  | .untypedOperand text => s!"expected '<type> <value>', got '{text}'"

def locate (line : Option Int) (message : String) : String :=
  match line with
  | some number => s!"line {number}: {message}"
  | none => message

/-- Text is refused at a line, or holds an empty parameter or a number that cannot be read or
written. -/
inductive Fault
  | refused (line : Nat) (cause : Cause)
  | emptyParameter
  | integer (fault : Text.Integer.Fault)
  deriving DecidableEq, Repr

def Fault.message : Fault → String
  | .refused line cause => locate (some line) cause.message
  | .emptyParameter => "list index out of range"
  | .integer fault => fault.message

def atLine {α : Type} (line : Nat) : Except Cause α → Except Fault α
  | .ok a => .ok a
  | .error cause => .error (.refused line cause)

def liftInteger {α : Type} : Except Text.Integer.Fault α → Except Fault α
  | .ok a => .ok a
  | .error fault => .error (.integer fault)

end ValueNumbering.Assembly
