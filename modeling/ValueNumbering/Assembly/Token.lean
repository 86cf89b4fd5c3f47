import ValueNumbering.Assembly.Fault
import ValueNumbering.Text.Words

/-!
Operands as they are written: a named value, a global, an integer or truth value, a constant
expression or any other constant. A constant expression is known by its words, so spacing does not
tell two apart.
-/

namespace ValueNumbering.Assembly

open Text

inductive Token
  | named (name : String)
  | global (name : String)
  | literal (value : Int) (type : String)
  | expression (key type : String)
  | constant (text type : String)
  deriving DecidableEq, Repr

structure TypedToken where
  type : String
  token : Token
  deriving DecidableEq, Repr

/-- Text with an opening parenthesis and a closing one at its end. -/
def isExpression (text : List Char) : Bool :=
  let text := trim text
  text.contains '(' && text.getLast? == some ')'

/-- Digits of any script, after a minus sign or none. -/
def isIntegerText : List Char → Bool
  | '-' :: digits => !digits.isEmpty && digits.all isDecimal
  | digits => !digits.isEmpty && digits.all isDecimal

def Token.read (text : List Char) (type : String) : Except Fault Token :=
  match text with
  | '%' :: name => .ok (.named (String.ofList name))
  | '@' :: name => .ok (.global (String.ofList name))
  | _ =>
      if isIntegerText text then do
        let value ← liftInteger (Integer.read text)
        return .literal value type
      else if text = "true".toList then .ok (.literal 1 "i1")
      else if text = "false".toList then .ok (.literal 0 "i1")
      else if isExpression text then .ok (.expression (String.ofList (collapse text)) type)
      else .ok (.constant (String.ofList text) type)

/-- Divides the words of an operand after its type. The type is all words but the last; before a
constant expression it is one word. -/
def divide (text first second : List Char) (more : List (List Char)) : List Char × List Char :=
  if isExpression text then (first, unwords (second :: more))
  else (unwords ((first :: second :: more).dropLast), more.getLastD second)

def TypedToken.read (line : Nat) (text : List Char) : Except Fault TypedToken :=
  let all := words text
  match if all.head? = some "volatile".toList then all.tail else all with
  | first :: second :: more => do
      let (type, written) := divide text first second more
      let token ← Token.read written (String.ofList type)
      return ⟨String.ofList type, token⟩
  | _ => .error (.refused line (.untypedOperand (String.ofList text)))

end ValueNumbering.Assembly
