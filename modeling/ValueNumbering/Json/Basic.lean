import ValueNumbering.Decimal.Shortest
import ValueNumbering.Dictionary
import ValueNumbering.Text.Quoted

/-!
JSON documents, and the text in which reports show their values. Strings and names are sequences of
code points, since a document can write a surrogate without partner. Within quotes it is escaped; a
string that stands alone keeps it.
-/

namespace ValueNumbering

inductive Json
  | null
  | bool (value : Bool)
  | int (value : Int)
  | float (value : Binary64)
  | str (value : Text.CodePoints)
  | arr (items : List Json)
  | obj (members : Dictionary Text.CodePoints Json)

namespace Json

instance : Inhabited Json := ⟨.null⟩

/-- Zero, the empty text, the empty collections, false and null do not count as true. -/
def truthy : Json → Bool
  | .null => false
  | .bool value => value
  | .int value => value != 0
  | .float value => !value.isZero
  | .str value => !value.isEmpty
  | .arr items => !items.isEmpty
  | .obj members => !members.isEmpty

def kind : Json → String
  | .null => "NoneType"
  | .bool _ => "bool"
  | .int _ => "int"
  | .float _ => "float"
  | .str _ => "str"
  | .arr _ => "list"
  | .obj _ => "dict"

mutual

/-- The text of a value inside another value, where strings are quoted. -/
def literal : Json → String
  | .null => "None"
  | .bool value => if value then "True" else "False"
  | .int value => toString value
  | .float value => value.text
  | .str value => Text.quoted value
  | .arr items => "[" ++ ", ".intercalate (literals items) ++ "]"
  | .obj ⟨members⟩ => "\x7b" ++ ", ".intercalate (memberLiterals members) ++ "\x7d"

def literals : List Json → List String
  | [] => []
  | item :: rest => literal item :: literals rest

def memberLiterals : List (Text.CodePoints × Json) → List String
  | [] => []
  | (key, value) :: rest => (Text.quoted key ++ ": " ++ literal value) :: memberLiterals rest

end

/-- The text of a value that stands alone. -/
def display : Json → Text.CodePoints
  | .str value => value
  | value => literal value

end Json

end ValueNumbering
