import ValueNumbering.Assembly.Names
import ValueNumbering.Text.Pieces

/-!
Parameter lists of function definitions. An unnamed parameter takes the next slot number as its
name; one named by a number sets the slot after it.
-/

namespace ValueNumbering.Assembly

open Text

inductive Parameter
  | variadic
  | unnamed (type : List Char)
  | named (type name : List Char)
  deriving DecidableEq, Repr

def Parameter.read (piece : List Char) : Except Fault Parameter :=
  if piece = "...".toList then .ok .variadic
  else
    let parts := words piece
    match parts.head?, parts.getLast? with
    | some type, some ('%' :: name) => .ok (.named type name)
    | some type, some _ => .ok (.unnamed type)
    | _, _ => .error .emptyParameter

structure Signature where
  arguments : List Argument := []
  slot : Nat := 0
  deriving DecidableEq, Repr, Inhabited

/-- The slot after a parameter with a name of digits. -/
def slotAfter (slot : Nat) (name : List Char) : Except Fault Nat :=
  if !name.isEmpty && name.all isDigit then do
    let n ← liftInteger (Integer.read name)
    return n.toNat + 1
  else .ok slot

def slotText (slot : Nat) : Except Fault String := liftInteger (Integer.write slot)

def addArgument (line : Nat) (signature : Signature) (names : Names) (name type : String) :
    Except Fault (Signature × Names) :=
  if names.values.contains name then .error (.refused line (.redefinedArgument name))
  else
    let arg : Argument := ⟨names.nextId, name, type⟩
    .ok ({ signature with arguments := signature.arguments ++ [arg] },
      { names with nextId := names.nextId + 1, values := names.values.insert name arg.value })

def addParameter (line : Nat) (signature : Signature) (names : Names) :
    Parameter → Except Fault (Signature × Names)
  | .variadic => .ok (signature, names)
  | .unnamed type => do
      let name ← slotText signature.slot
      addArgument line { signature with slot := signature.slot + 1 } names name (String.ofList type)
  | .named type name => do
      let slot ← slotAfter signature.slot name
      addArgument line { signature with slot := slot } names (String.ofList name)
        (String.ofList type)

def addPieces (line : Nat) (signature : Signature) (names : Names) :
    List (List Char) → Except Fault (Signature × Names)
  | [] => .ok (signature, names)
  | piece :: rest => do
      let parameter ← Parameter.read piece
      let (signature, names) ← addParameter line signature names parameter
      addPieces line signature names rest

def readParameters (line : Nat) (names : Names) (params : List Char) :
    Except Fault (Signature × Names) :=
  addPieces line {} names (pieces params)

end ValueNumbering.Assembly
