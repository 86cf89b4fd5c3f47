import ValueNumbering.Proofs.Numbering.Actions
import ValueNumbering.Proofs.Assembly.Steps

/-!
The operands of a line as they are cut from it, before any name is looked up.
-/

namespace ValueNumbering.Assembly

open Text

def operandText? (text : List Char) : Option (List Char) :=
  let all := words text
  match if all.head? = some "volatile".toList then all.tail else all with
  | first :: second :: more => some (divide text first second more).2
  | _ => none

def leftText? (text : List Char) : Option (List Char) :=
  match ((words text).span isBinaryFlag).2 with
  | first :: second :: more => some (divide text first second more).2
  | _ => none

def operandTexts (opcode : Opcode) (text : List Char) : List (List Char) :=
  let parts := pieces (dropMetadata text)
  match opcode with
  | .store => (parts.take 2).filterMap operandText?
  | .load => ((parts.drop 1).take 1).filterMap operandText?
  | opcode => if opcode.isBinary then ((parts.take 1).filterMap leftText?) ++ parts.drop 1 else []

/-- The texts of the operands of a line, none where it holds no instruction. -/
def lineOperands (text : List Char) : List (List Char) :=
  match BodyLine.read text with
  | .ok (.instruction _ mnemonic rest) =>
    operandTexts (Opcode.ofMnemonic (String.ofList mnemonic)) rest
  | _ => []

/-- The token is what the text of an operand reads as, at the type of the operand. -/
def ReadsAs (text : List Char) (operand : TypedToken) : Prop :=
  Token.read text operand.type = .ok operand.token

theorem typedToken_read {line : Nat} {text : List Char} {operand : TypedToken}
    (read : TypedToken.read line text = .ok operand) :
    ∃ written, operandText? text = some written ∧ ReadsAs written operand := by
  unfold TypedToken.read at read
  simp only at read
  split at read
  · next first second more parts =>
      obtain ⟨token, reads, made⟩ := bind_eq_ok.mp read
      have isText : operandText? text = some (divide text first second more).2 := by
        unfold operandText?
        simp only [parts]
      exact ⟨_, isText, Except.ok.inj made ▸ reads⟩
  · cases read

theorem readStore_operands {line : Nat} {rest : List Char} {statement : Statement}
    (read : readStore line rest = .ok statement) :
    List.Forall₂ ReadsAs (((pieces rest).take 2).filterMap operandText?) statement.tokens ∧
      statement.tokens.length = 2 := by
  unfold readStore at read
  split at read
  · next value pointer more cut =>
      obtain ⟨valueToken, valueRead, rest⟩ := bind_eq_ok.mp read
      obtain ⟨pointerToken, pointerRead, rest⟩ := bind_eq_ok.mp rest
      obtain ⟨align, -, made⟩ := bind_eq_ok.mp rest
      cases Except.ok.inj made
      obtain ⟨valueWritten, valueText, valueReads⟩ := typedToken_read valueRead
      obtain ⟨pointerWritten, pointerText, pointerReads⟩ := typedToken_read pointerRead
      simp only [cut, List.take, List.filterMap_cons, valueText, pointerText]
      exact ⟨.cons valueReads (.cons pointerReads .nil), rfl⟩
  · cases read

theorem readLoad_operands {line : Nat} {rest : List Char} {statement : Statement}
    (read : readLoad line rest = .ok statement) :
    List.Forall₂ ReadsAs ((((pieces rest).drop 1).take 1).filterMap operandText?) statement.tokens ∧
      statement.tokens.length = 1 := by
  unfold readLoad at read
  split at read
  · next type pointer more cut =>
      obtain ⟨pointerToken, pointerRead, rest⟩ := bind_eq_ok.mp read
      obtain ⟨align, -, made⟩ := bind_eq_ok.mp rest
      cases Except.ok.inj made
      obtain ⟨written, pointerText, reads⟩ := typedToken_read pointerRead
      simp only [cut, List.drop, List.take, List.filterMap_cons, pointerText]
      exact ⟨.cons reads .nil, rfl⟩
  · cases read

theorem readBinary_operands {line : Nat} {opcode : Opcode} {rest : List Char}
    {statement : Statement} (read : readBinary line opcode rest = .ok statement) :
    List.Forall₂ ReadsAs (((pieces rest).take 1).filterMap leftText? ++ (pieces rest).drop 1)
      statement.tokens ∧
      statement.tokens.length = 2 := by
  unfold readBinary at read
  split at read
  · next left right cut =>
      simp only at read
      split at read
      · next first second more parts =>
          have leftText : leftText? left = some (divide left first second more).2 := by
            unfold leftText?
            rw [parts]
          obtain ⟨lhs, lhsReads, rest⟩ := bind_eq_ok.mp read
          obtain ⟨rhs, rhsReads, made⟩ := bind_eq_ok.mp rest
          cases Except.ok.inj made
          simp only [cut, List.take, List.drop, List.filterMap_cons, leftText]
          exact ⟨.cons lhsReads (.cons rhsReads .nil), rfl⟩
      · cases read
  · cases read

theorem readAlloca_operands {rest : List Char} {statement : Statement}
    (read : readAlloca rest = .ok statement) : statement.tokens = [] := by
  obtain ⟨align, -, made⟩ := bind_eq_ok.mp read
  cases Except.ok.inj made
  rfl

theorem statement_operands {line : Nat} {opcode : Opcode} {text : List Char} {statement : Statement}
    (read : Statement.read line opcode text = .ok statement) :
    List.Forall₂ ReadsAs (operandTexts opcode text) statement.tokens ∧
      statement.tokens.length = opcode.operandCount := by
  unfold Statement.read at read
  simp only at read
  split at read
  · exact readStore_operands read
  · exact readLoad_operands read
  · rw [readAlloca_operands read]
    exact ⟨.nil, rfl⟩
  · next notStore notLoad notAlloca =>
      unfold operandTexts Opcode.operandCount
      split at read
      · next binary =>
          simp only [binary, if_true]
          exact readBinary_operands read
      · next unmodelled =>
          cases read
          simp only [unmodelled, Bool.false_eq_true, if_false]
          exact ⟨.nil, rfl⟩

end ValueNumbering.Assembly
