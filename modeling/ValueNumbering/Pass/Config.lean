import ValueNumbering.Json.Reader
import ValueNumbering.Numbering.Run

/-!
Configuration of passes. A document has an object `passes` that maps the name of a pass to its
entry; an entry may switch the pass off and give options. The entries of a later document replace
those of an earlier one whole.
-/

namespace ValueNumbering

structure PassConfig where
  name : Text.CodePoints
  enabled : Json := .bool true
  options : Json := .obj ∅
  deriving Inhabited

inductive ConfigFault
  | lacks (value : Json) (wanted : String)
  | column (fault : Text.Integer.Fault)
  | columnNotNumber
  | columnInfinite
  | columnKind (value : Json)

def ConfigFault.message : ConfigFault → String
  | .lacks value wanted => s!"'{value.kind}' object has no attribute '{wanted}'"
  | .column fault => fault.message
  | .columnNotNumber => "cannot convert float NaN to integer"
  | .columnInfinite => "cannot convert float infinity to integer"
  | .columnKind value =>
      s!"int() argument must be a string, a bytes-like object or a real number, not '{value.kind}'"

def Json.membersFor (wanted : String) : Json → Except ConfigFault (Dictionary Text.CodePoints Json)
  | .obj members => .ok members
  | value => .error (.lacks value wanted)

namespace PassConfig

def readEntry (name : Text.CodePoints) (entry : Json) : Except ConfigFault PassConfig := do
  let members ← entry.membersFor "get"
  return { name := name, enabled := (members.find? "enabled").getD (.bool true),
           options := (members.find? "options").getD (.obj ∅) }

def readEntries :
    List (Text.CodePoints × Json) → Except ConfigFault (List (Text.CodePoints × PassConfig))
  | [] => .ok []
  | (name, entry) :: rest => do
      let config ← readEntry name entry
      let more ← readEntries rest
      return (name, config) :: more

/-- The entries of a document, all or none. -/
def readDocument (document : Json) :
    Except ConfigFault (Dictionary Text.CodePoints PassConfig) := do
  let members ← document.membersFor "get"
  let passes ← ((members.find? "passes").getD (.obj ∅)).membersFor "items"
  let entries ← readEntries passes.entries
  return ⟨entries⟩

def isEnabled (config : PassConfig) : Bool := config.enabled.truthy

/-- The integer that an option stands for: fractions are cut off, text is read as a decimal. -/
def columnOf : Json → Except ConfigFault Int
  | .int n => .ok n
  | .bool b => .ok (if b then 1 else 0)
  | .float .nan => .error .columnNotNumber
  | .float (.infinite _) => .error .columnInfinite
  | .float (.finite negative mantissa exponent) =>
    .ok (Binary64.truncate negative mantissa exponent)
  | .str text =>
      match Text.Integer.readPoints text with
      | .ok n => .ok n
      | .error fault => .error (.column fault)
  | value => .error (.columnKind value)

def settings (config : PassConfig) : Except ConfigFault Numbering.Settings := do
  let options ← config.options.membersFor "get"
  let column ← columnOf ((options.find? "column_width").getD (.int 40))
  return { shareLiterals := ((options.find? "intern_constants").getD (.bool true)).truthy,
           column := column }

def override (config : PassConfig) (options : Dictionary Text.CodePoints Json) :
    Except ConfigFault PassConfig := do
  let own ← config.options.membersFor "update"
  return { config with options := .obj (own.merge options) }

end PassConfig

end ValueNumbering
