import ValueNumbering.Assembly.Token
import ValueNumbering.IR.Module

/-!
What names stand for. Globals and constant expressions belong to the module, values to the function
that is read. A name that is used before its definition gets its value at the use, and the
definition takes that value over.
-/

namespace ValueNumbering.Assembly

structure Names where
  nextId : Nat := 0
  globals : Dictionary String Global := ∅
  expressions : Dictionary String Value := ∅
  values : Dictionary String Value := ∅
  /-- The values without a definition so far, with the line of their first use. -/
  pending : Dictionary String Nat := ∅
  deriving DecidableEq, Repr, Inhabited

namespace Names

def fresh (names : Names) (form : Form) : Value × Names :=
  (⟨names.nextId, form⟩, { names with nextId := names.nextId + 1 })

def newFunction (names : Names) : Names := { names with values := ∅, pending := ∅ }

def global (names : Names) (name : String) : Global × Names :=
  match names.globals.find? name with
  | some found => (found, names)
  | none =>
      let created : Global := { id := names.nextId, name := name }
      (created, { names with nextId := names.nextId + 1,
                             globals := names.globals.insert name created })

def defineGlobal (names : Names) (name initializer : String) : Names :=
  let (found, names) := names.global name
  { names with globals := names.globals.insert name { found with initializer := some initializer } }

/-- All spellings of a constant expression are one value, of the type it had first. -/
def expression (names : Names) (key type : String) : Value × Names :=
  match names.expressions.find? key with
  | some found => (found, names)
  | none =>
      let (created, names) := names.fresh (.constant key type)
      (created, { names with expressions := names.expressions.insert key created })

def lookup (names : Names) (line : Nat) (name : String) : Value × Names :=
  match names.values.find? name with
  | some found => (found, names)
  | none =>
      let (created, names) := names.fresh (.result (some name))
      (created, { names with
        values := names.values.insert name created
        pending := names.pending.insert name line })

def define (names : Names) (name : String) : Except Cause (Value × Names) :=
  match names.values.find? name with
  | some found =>
      if names.pending.contains name then
        .ok (found, { names with pending := names.pending.erase name })
      else .error (.redefinedValue name)
  | none =>
      let (created, names) := names.fresh (.result (some name))
      .ok (created, { names with values := names.values.insert name created })

/-- The value of an operand. Literals and plain constants are values of their own at every use. -/
def bind (names : Names) (line : Nat) : Token → Value × Names
  | .named name => names.lookup line name
  | .global name =>
      let (found, names) := names.global name
      (found.value, names)
  | .literal value type => names.fresh (.literal value type)
  | .expression key type => names.expression key type
  | .constant text type => names.fresh (.constant text type)

def bindTyped (names : Names) (line : Nat) (operand : TypedToken) : Operand × Names :=
  let (value, names) := names.bind line operand.token
  (⟨operand.type, value⟩, names)

end Names

end ValueNumbering.Assembly
