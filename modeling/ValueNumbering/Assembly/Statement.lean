import ValueNumbering.Assembly.Token
import ValueNumbering.Text.Pieces

/-! Instructions as they are written, with their operands as tokens. -/

namespace ValueNumbering.Assembly

open Text

inductive Statement
  | store (value pointer : TypedToken) (align : Option Int)
  | load (type : String) (pointer : TypedToken) (align : Option Int)
  | alloca (type : Option String) (align : Option Int)
  | binary (flags : List String) (type : String) (lhs rhs : Token)
  | verbatim
  deriving DecidableEq, Repr

/-- Leaves out the metadata at the end: a comma, an exclamation mark and all after it. -/
def dropMetadata : List Char → List Char
  | [] => []
  | c :: rest =>
      if c = ',' ∧ (trimLeft rest).head? = some '!' then [] else c :: dropMetadata rest

def alignDigits? (piece : List Char) : Option (List Char) :=
  match "align".toList.isPrefixOf? piece with
  | some (c :: rest) =>
      let digits := trimLeft rest
      if isBlank c && !digits.isEmpty && digits.all isDecimal then some digits else none
  | _ => none

def readAlign (pieces : List (List Char)) : Except Fault (Option Int) :=
  match pieces.findSome? alignDigits? with
  | some digits => do
      let n ← liftInteger (Integer.read digits)
      return some n
  | none => .ok none

def binaryFlags : List String :=
  ["nuw", "nsw", "exact", "disjoint", "fast", "nnan", "ninf", "nsz", "arcp", "contract", "afn",
    "reassoc"]

def isBinaryFlag (word : List Char) : Bool := binaryFlags.any fun flag => flag.toList == word

def readStore (line : Nat) (rest : List Char) : Except Fault Statement :=
  match pieces rest with
  | value :: pointer :: more => do
      let value ← TypedToken.read line value
      let pointer ← TypedToken.read line pointer
      let align ← readAlign more
      return .store value pointer align
  | _ => .error (.refused line .storeOperands)

/-- A leading `volatile` is not part of the loaded type. -/
def loadedType (piece : List Char) : List Char :=
  match "volatile".toList.isPrefixOf? piece with
  | some type => trim type
  | none => trim piece

def readLoad (line : Nat) (rest : List Char) : Except Fault Statement :=
  match pieces rest with
  | type :: pointer :: more => do
      let pointer ← TypedToken.read line pointer
      let align ← readAlign more
      return .load (String.ofList (loadedType type)) pointer align
  | _ => .error (.refused line .loadOperands)

def readAlloca (rest : List Char) : Except Fault Statement := do
  let parts := pieces rest
  let align ← readAlign parts.tail
  return .alloca (parts.head?.map String.ofList) align

def readBinary (line : Nat) (opcode : Opcode) (rest : List Char) : Except Fault Statement :=
  match pieces rest with
  | [left, right] =>
      let (flags, parts) := (words left).span isBinaryFlag
      match parts with
      | first :: second :: more => do
          let (type, written) := divide left first second more
          let lhs ← Token.read written (String.ofList type)
          let rhs ← Token.read right (String.ofList type)
          return .binary (flags.map String.ofList) (String.ofList type) lhs rhs
      | _ => .error (.refused line (.binaryType opcode))
  | _ => .error (.refused line (.binaryOperands opcode))

def Statement.read (line : Nat) (opcode : Opcode) (text : List Char) : Except Fault Statement :=
  let rest := dropMetadata text
  match opcode with
  | .store => readStore line rest
  | .load => readLoad line rest
  | .alloca => readAlloca rest
  | opcode => if opcode.isBinary then readBinary line opcode rest else .ok .verbatim

end ValueNumbering.Assembly
