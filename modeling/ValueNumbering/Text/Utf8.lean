import ValueNumbering.Text.CodePoints
import ValueNumbering.Text.Hex

/-!
Decoding UTF-8, and what cannot be encoded in it. The bytes after a lead byte have to lie between
bounds that the lead sets, so that overlong forms, surrogates and code points past the last are
refused at the first byte that shows them. A text is refused at its first surrogate without partner.
-/

namespace ValueNumbering.Text.Utf8

inductive Reason
  | invalidStart
  | invalidContinuation
  | unexpectedEnd
  | surrogate
  deriving DecidableEq, Repr

def Reason.message : Reason → String
  | .invalidStart => "invalid start byte"
  | .invalidContinuation => "invalid continuation byte"
  | .unexpectedEnd => "unexpected end of data"
  | .surrogate => "surrogates not allowed"

/-- The bytes or code points at fault: where they begin, how many they are and the first of them. -/
structure Fault where
  position : Nat
  length : Nat
  first : Nat
  reason : Reason
  deriving DecidableEq, Repr

def byteText (b : Nat) : String := "0x" ++ String.ofList (Hex.write 2 b)

def surrogateText (unit : Nat) : String := "'\\u" ++ String.ofList (Hex.write 4 unit) ++ "'"

def Fault.attempt (fault : Fault) : String :=
  match fault.reason, fault.length with
  | .surrogate, 1 => "encode character " ++ surrogateText fault.first
  | .surrogate, _ => "encode characters"
  | _, 1 => "decode byte " ++ byteText fault.first
  | _, _ => "decode bytes"

def Fault.message (fault : Fault) : String :=
  let place :=
    if fault.length = 1 then s!"{fault.position}"
      else s!"{fault.position}-{fault.position + fault.length - 1}"
  s!"'utf-8' codec can't {fault.attempt} in position {place}: {fault.reason.message}"

/-- A character that is not complete: its first byte, the bytes read and still owed, the bounds of
the next one and the bits so far. -/
structure Partial where
  first : Nat
  taken : Nat
  owed : Nat
  least : Nat
  greatest : Nat
  bits : Nat
  deriving DecidableEq, Repr

def lead? (b : Nat) : Option Partial :=
  if 0xC2 ≤ b ∧ b ≤ 0xDF then some ⟨b, 1, 1, 0x80, 0xBF, b - 0xC0⟩
  else if b = 0xE0 then some ⟨b, 1, 2, 0xA0, 0xBF, 0⟩
  else if b = 0xED then some ⟨b, 1, 2, 0x80, 0x9F, 0xD⟩
  else if 0xE1 ≤ b ∧ b ≤ 0xEF then some ⟨b, 1, 2, 0x80, 0xBF, b - 0xE0⟩
  else if b = 0xF0 then some ⟨b, 1, 3, 0x90, 0xBF, 0⟩
  else if 0xF1 ≤ b ∧ b ≤ 0xF3 then some ⟨b, 1, 3, 0x80, 0xBF, b - 0xF0⟩
  else if b = 0xF4 then some ⟨b, 1, 3, 0x80, 0x8F, 4⟩
  else none

def Partial.fault (p : Partial) (position : Nat) (reason : Reason) : Fault :=
  ⟨position - p.taken, p.taken, p.first, reason⟩

def decodeFrom (position : Nat) : Option Partial → List UInt8 → Except Fault (List Char)
  | none, [] => .ok []
  | some p, [] => .error (p.fault position .unexpectedEnd)
  | none, b :: rest =>
      if b.toNat < 0x80 then do
        let more ← decodeFrom (position + 1) none rest
        return Char.ofNat b.toNat :: more
      else match lead? b.toNat with
        | some p => decodeFrom (position + 1) (some p) rest
        | none => .error ⟨position, 1, b.toNat, .invalidStart⟩
  | some p, b :: rest =>
      if p.least ≤ b.toNat ∧ b.toNat ≤ p.greatest then
        let bits := p.bits * 0x40 + (b.toNat - 0x80)
        if p.owed = 1 then do
          let more ← decodeFrom (position + 1) none rest
          return Char.ofNat bits :: more
        else
          decodeFrom (position + 1) (some ⟨p.first, p.taken + 1, p.owed - 1, 0x80, 0xBF, bits⟩) rest
      else .error (p.fault position .invalidContinuation)

def decode (bytes : List UInt8) : Except Fault (List Char) := decodeFrom 0 none bytes

def surrogatesFrom? (position : Nat) : List CodePoint → Option Fault
  | [] => none
  | .character _ :: rest => surrogatesFrom? (position + 1) rest
  | first@(.surrogate _) :: rest =>
      some ⟨position, 1 + (rest.takeWhile (·.isSurrogate)).length, first.toNat, .surrogate⟩

def encodingFault? (text : CodePoints) : Option Fault := surrogatesFrom? 0 text.toList

end ValueNumbering.Text.Utf8
