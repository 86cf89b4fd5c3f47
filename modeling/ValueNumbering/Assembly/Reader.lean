import ValueNumbering.Assembly.Line
import ValueNumbering.Assembly.Parameters
import ValueNumbering.Assembly.Statement

/-! Reading a module line by line. The first fault in the text ends the reading. -/

namespace ValueNumbering.Assembly

open Text

structure Draft where
  name : String
  returnType : String
  arguments : List Argument
  line : Nat
  slot : Nat
  closed : List Block := []
  current : Option Block := none
  deriving Repr, Inhabited

def Draft.blocks (draft : Draft) : List Block := draft.closed ++ draft.current.toList

def Draft.function (draft : Draft) : Function :=
  { name := draft.name, returnType := draft.returnType, arguments := draft.arguments,
    blocks := draft.blocks }

def Draft.openBlock (draft : Draft) (name : String) : Draft :=
  { draft with closed := draft.blocks, current := some ⟨name, []⟩ }

/-- Instructions before any label belong to a block that is named by the next slot. -/
def Draft.ensureBlock (draft : Draft) : Except Fault Draft :=
  match draft.current with
  | some _ => .ok draft
  | none => do
      let name ← slotText draft.slot
      return { draft.openBlock name with slot := draft.slot + 1 }

def Draft.append (draft : Draft) (inst : Instruction) : Draft :=
  { draft with
    current := draft.current.map fun block =>
      { block with instructions := block.instructions ++ [inst] } }

structure Reader where
  names : Names := {}
  functions : List Function := []
  draft : Option Draft := none
  deriving Repr, Inhabited

namespace Reader

/-- The value that an instruction fills: that of its result name, else one of its own. -/
def target (names : Names) (line : Nat) : Option (List Char) → Except Fault (Value × Names)
  | some name => atLine line (names.define (String.ofList name))
  | none => .ok (names.fresh (.result none))

def fill (names : Names) (line : Nat) (inst : Instruction) : Statement → Instruction × Names
  | .store value pointer align =>
      let (value, names) := names.bindTyped line value
      let (pointer, names) := names.bindTyped line pointer
      ({ inst with operands := [value, pointer], align := align }, names)
  | .load type pointer align =>
      let (pointer, names) := names.bindTyped line pointer
      ({ inst with type := type, operands := [pointer], align := align }, names)
  | .alloca type align =>
    ({ inst with type := "ptr", allocatedType := type, align := align }, names)
  | .binary flags type lhs rhs =>
      let (lhs, names) := names.bindTyped line ⟨type, lhs⟩
      let (rhs, names) := names.bindTyped line ⟨type, rhs⟩
      ({ inst with flags := flags, type := type, operands := [lhs, rhs] }, names)
  | .verbatim => (inst, names)

def readInstruction (names : Names) (line : Nat) (text : List Char) (result : Option (List Char))
    (mnemonic rest : List Char) : Except Fault (Instruction × Names) := do
  let opcode := Opcode.ofMnemonic (String.ofList mnemonic)
  let (value, names) ← target names line result
  let statement ← Statement.read line opcode rest
  let inst : Instruction :=
    { id := value.id, opcode := opcode, name := result.map String.ofList,
      text := some (String.ofList text) }
  return fill names line inst statement

def beginFunction (r : Reader) (line : Nat) (returnType name params : List Char) :
    Except Fault Reader := do
  let (signature, names) ← readParameters line r.names.newFunction params
  let draft : Draft :=
    { name := String.ofList name, returnType := String.ofList returnType,
      arguments := signature.arguments,
      line := line, slot := signature.slot }
  return { r with names := names, draft := some draft }

/-- A function may end when every value that it uses has been defined; else the earliest use is at
fault. -/
def endFunction (r : Reader) (draft : Draft) : Except Fault Reader :=
  match r.names.pending.entries with
  | (name, line) :: _ => .error (.refused line (.undefinedValue name))
  | [] => .ok { r with functions := r.functions ++ [draft.function], draft := none }

def topLine (r : Reader) (line : Nat) (text : List Char) : Except Fault Reader := do
  match ← atLine line (TopLine.read text) with
  | .skipped => return r
  | .definition returnType name params => r.beginFunction line returnType name params
  | .declaration returnType name params =>
      let declared : Function :=
        { name := String.ofList name, returnType := String.ofList returnType,
          params := some (String.ofList params) }
      return { r with functions := r.functions ++ [declared] }
  | .global name initializer =>
      return { r with
        names := r.names.defineGlobal (String.ofList name) (String.ofList initializer) }

def bodyLine (r : Reader) (draft : Draft) (line : Nat)
    (text : List Char) : Except Fault Reader := do
  match ← atLine line (BodyLine.read text) with
  | .close => r.endFunction draft
  | .label name => return { r with draft := some (draft.openBlock (String.ofList name)) }
  | .instruction result mnemonic rest =>
      let draft ← draft.ensureBlock
      let (inst, names) ← readInstruction r.names line text result mnemonic rest
      return { r with names := names, draft := some (draft.append inst) }

def readLine (r : Reader) (line : Nat) (text : List Char) : Except Fault Reader :=
  match r.draft with
  | none => r.topLine line text
  | some draft => r.bodyLine draft line text

def readLines (r : Reader) : List (Nat × List Char) → Except Fault Reader
  | [] => .ok r
  | (line, text) :: rest => do
      let r ← r.readLine line text
      r.readLines rest

def finish (r : Reader) (name : String) : Except Fault Module :=
  match r.draft with
  | some draft => .error (.refused draft.line (.unterminatedFunction draft.name))
  | none => .ok { name := name, functions := r.functions, globals := r.names.globals }

end Reader

def read (text : String) (name : String := "<stdin>") : Except Fault Module := do
  let r ← Reader.readLines {} (contentLines text.toList)
  r.finish name

end ValueNumbering.Assembly
