/-!
Values and their uses. A value is known by its number `id`: two literals of one spelling are two
values, and the uses of one instruction are one value.
-/

namespace ValueNumbering

inductive Form
  | argument (name type : String)
  | global (name type : String)
  | literal (value : Int) (type : String)
  | constant (text type : String)
  | result (name : Option String)
  deriving DecidableEq, Repr, Inhabited

structure Value where
  id : Nat
  form : Form
  deriving DecidableEq, Repr, Inhabited

structure Operand where
  type : String
  value : Value
  deriving DecidableEq, Repr, Inhabited

/-- Literals of one bit are written as truth values. -/
def literalText (value : Int) (type : String) : String :=
  if type = "i1" then (if value = 0 then "false" else "true") else toString value

def resultName (name : Option String) : String := name.getD "None"

def Form.spelling : Form → String
  | .argument name _ => "%" ++ name
  | .global name _ => "@" ++ name
  | .literal value type => literalText value type
  | .constant text _ => text
  | .result name => "%" ++ resultName name

/-- The type that a value has by itself; the one of a result is kept with its instruction. -/
def Form.type? : Form → Option String
  | .argument _ type | .global _ type | .literal _ type | .constant _ type => some type
  | .result _ => none

def Form.summary : Form → String
  | .argument name type => s!"Argument({type} %{name})"
  | .global name _ => s!"GlobalVariable(@{name})"
  | .literal value _ => s!"#{value}"
  | .constant text _ => s!"Constant({text})"
  | .result name => s!"Instruction(%{resultName name})"

def Value.literal? (v : Value) : Option Int :=
  match v.form with
  | .literal value _ => some value
  | _ => none

end ValueNumbering
