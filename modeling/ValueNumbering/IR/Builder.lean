import ValueNumbering.IR.Module

/-!
Building a function call by call. The instructions of earlier blocks are closed; the open block
takes the next ones, and a new block begins only where the open one has an instruction, else the
open one is renamed.
-/

namespace ValueNumbering

structure Builder where
  name : String := "f"
  returnType : String := "void"
  arguments : List Argument := []
  closed : List Block := []
  current : Block := ⟨"entry", []⟩
  nextSlot : Nat := 0
  nextId : Nat := 0
  deriving Repr, Inhabited

namespace Builder

def freshId (b : Builder) : Nat × Builder := (b.nextId, { b with nextId := b.nextId + 1 })

def value (b : Builder) (form : Form) : Operand × Builder :=
  let (id, b) := b.freshId
  (⟨form.type?.getD "void", ⟨id, form⟩⟩, b)

def argument (b : Builder) (name : String) (type : String := "i32") : Argument × Builder :=
  let (id, b) := b.freshId
  let arg : Argument := ⟨id, name, type⟩
  (arg, { b with arguments := b.arguments ++ [arg] })

def global (b : Builder) (name : String) : Operand × Builder := b.value (.global name "ptr")

/-- A new value on every call, equal literals included. -/
def literal (b : Builder) (value : Int) (type : String := "i32") : Operand × Builder :=
  b.value (.literal value type)

def block (b : Builder) (name : String) : Builder :=
  if b.current.instructions.isEmpty then { b with current := { b.current with name := name } }
  else { b with closed := b.closed ++ [b.current], current := ⟨name, []⟩ }

/-- The given name, else the next free slot number. -/
def slotName (b : Builder) : Option String → String × Builder
  | some name => (name, b)
  | none => (toString b.nextSlot, { b with nextSlot := b.nextSlot + 1 })

def append (b : Builder) (inst : Instruction) : Builder :=
  { b with current := { b.current with instructions := b.current.instructions ++ [inst] } }

def emit (b : Builder) (inst : Instruction) : Instruction × Builder :=
  let (id, b) := b.freshId
  let inst := { inst with id := id }
  (inst, b.append inst)

def alloca (b : Builder) (name : Option String := none)
    (allocatedType : Option String := some "i32") :
    Instruction × Builder :=
  let (name, b) := b.slotName name
  b.emit { id := 0, opcode := .alloca, type := "ptr", name := some name, align := some 4,
           allocatedType := allocatedType }

def store (b : Builder) (value pointer : Operand) : Instruction × Builder :=
  b.emit { id := 0, opcode := .store, operands := [value, pointer], align := some 4 }

def load (b : Builder) (pointer : Operand) (name : Option String := none) (type : String := "i32") :
    Instruction × Builder :=
  let (name, b) := b.slotName name
  b.emit { id := 0, opcode := .load, operands := [pointer], type := type, name := some name,
           align := some 4 }

def binary (b : Builder) (opcode : Opcode) (lhs rhs : Operand) (name : Option String := none)
    (type : String := "i32") : Instruction × Builder :=
  let (name, b) := b.slotName name
  b.emit { id := 0, opcode := opcode, operands := [lhs, rhs], type := type, name := some name }

def ret (b : Builder) (value : Option Operand := none) : Instruction × Builder :=
  b.emit { id := 0, opcode := .ret, operands := value.toList }

def verbatim (b : Builder) (text : String) (name : Option String := none)
    (opcode : Opcode := .other) :
    Instruction × Builder :=
  b.emit { id := 0, opcode := opcode, type := "i32", name := name, text := some text }

/-- The blocks that hold an instruction. -/
def blocks (b : Builder) : List Block :=
  (b.closed ++ [b.current]).filter fun block => !block.instructions.isEmpty

def build (b : Builder) : Function :=
  { name := b.name, returnType := b.returnType, arguments := b.arguments, blocks := b.blocks }

/-- A function built earlier, with what its last block has received since. -/
def refresh (b : Builder) (fn : Function) : Function :=
  { fn with blocks := b.blocks.take fn.blocks.length }

end Builder

end ValueNumbering
