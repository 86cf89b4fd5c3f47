import ValueNumbering.Proofs.Assembly.OperandTexts
import ValueNumbering.Proofs.Text.Integer

/-!
Lines without an empty parameter and without numbers that cannot be read or written. What is wrong
with such a line is a cause, and the line is to blame.
-/

namespace ValueNumbering.Assembly

open Text

def parameterDigits? (piece : List Char) : Option (List Char) :=
  match (words piece).getLast? with
  | some ('%' :: name) => if !name.isEmpty && name.all isDigit then some name else none
  | _ => none

/-- A parameter that is written at all. If it is named by digits, they are decimal, and so few that
the slots after it can be written. -/
structure RegularParameter (piece : List Char) : Prop where
  nonempty : words piece ≠ []
  decimal : ∀ digits ∈ parameterDigits? piece, Integer.Decimals digits ∧
    digits.length < Integer.digitLimit

def alignItems (opcode : Opcode) (text : List Char) : List (List Char) :=
  let parts := pieces (dropMetadata text)
  match opcode with
  | .store | .load => parts.drop 2
  | .alloca => parts.tail
  | _ => []

def lineAlign? (line : List Char) : Option (List Char) :=
  match BodyLine.read line with
  | .ok (.instruction _ mnemonic rest) =>
    (alignItems (Opcode.ofMnemonic (String.ofList mnemonic)) rest).findSome? alignDigits?
  | _ => none

def lineParameters? (line : List Char) : Option (List Char) :=
  match TopLine.read line with
  | .ok (.definition _ _ params) => some params
  | _ => none

def ReadableNumber (text : List Char) : Prop :=
  isIntegerText text = true → (Integer.sign text).2.length ≤ Integer.digitLimit

/-- What numbers with fewer places than the limit stay below. -/
def placeBound : Nat := Nat.pow 10 (Integer.digitLimit - 1)

/-- A line whose parameters, if it opens a function, are regular and not too many, and whose
numbers, if it holds an instruction, are not too long. -/
structure Regular (line : List Char) : Prop where
  few : ∀ params ∈ lineParameters? line, (pieces params).length < placeBound
  parameters : ∀ params ∈ lineParameters? line, ∀ piece ∈ pieces params, RegularParameter piece
  operands : ∀ text ∈ lineOperands line, ReadableNumber text
  align : ∀ digits ∈ lineAlign? line, digits.length ≤ Integer.digitLimit

instance (text : List Char) : Decidable (ReadableNumber text) :=
  inferInstanceAs
    (Decidable (isIntegerText text = true → (Integer.sign text).2.length ≤ Integer.digitLimit))

instance (piece : List Char) : Decidable (RegularParameter piece) :=
  decidable_of_iff
    (words piece ≠ [] ∧ ∀ digits ∈ parameterDigits? piece, Integer.Decimals digits ∧
      digits.length < Integer.digitLimit)
    ⟨fun ⟨nonempty, decimal⟩ => ⟨nonempty, decimal⟩, fun regular =>
      ⟨regular.nonempty, regular.decimal⟩⟩

instance (line : List Char) : Decidable (Regular line) :=
  decidable_of_iff
    ((∀ params ∈ lineParameters? line, (pieces params).length < placeBound) ∧
      (∀ params ∈ lineParameters? line, ∀ piece ∈ pieces params, RegularParameter piece) ∧
      (∀ text ∈ lineOperands line, ReadableNumber text) ∧
        ∀ digits ∈ lineAlign? line, digits.length ≤ Integer.digitLimit)
    ⟨fun ⟨few, parameters, operands, align⟩ => ⟨few, parameters, operands, align⟩,
      fun regular => ⟨regular.few, regular.parameters, regular.operands, regular.align⟩⟩

def Settled {α : Type} (lines : Nat → Prop) (result : Except Fault α) : Prop :=
  ∀ fault, result = .error fault → ∃ line cause, fault = .refused line cause ∧ lines line

namespace Settled

variable {α β : Type} {lines : Nat → Prop} {line : Nat}

theorem ok (a : α) : Settled lines (.ok a : Except Fault α) := fun _ failed => nomatch failed

theorem of_ok {result : Except Fault α} {a : α} (found : result = .ok a) : Settled lines result :=
  found ▸ ok a

theorem refused (inside : lines line) (cause : Cause) :
    Settled lines (.error (.refused line cause) : Except Fault α) := by
  intro fault failed
  cases failed
  exact ⟨line, cause, rfl, inside⟩

theorem atLine (inside : lines line) (result : Except Cause α) :
    Settled lines (atLine line result) := by
  cases result with
  | ok a => exact ok a
  | error cause => exact refused inside cause

theorem mono {more : Nat → Prop} {result : Except Fault α} (settled : Settled lines result)
    (all : ∀ line, lines line → more line) :
    Settled more result := by
  intro fault failed
  obtain ⟨line, cause, rfl, inside⟩ := settled fault failed
  exact ⟨line, cause, rfl, all line inside⟩

theorem bind {first : Except Fault α} {next : α → Except Fault β} (settled : Settled lines first)
    (later : ∀ a, first = .ok a → Settled lines (next a)) : Settled lines (first >>= next) := by
  cases first with
  | ok a => exact later a rfl
  | error fault =>
      intro other failed
      cases failed
      exact settled fault rfl

end Settled

section Numbers

theorem readable_of_isIntegerText {text : List Char} (isNumber : isIntegerText text = true)
    (short : (Integer.sign text).2.length ≤ Integer.digitLimit) :
    ∃ n, Integer.read text = .ok n := by
  unfold isIntegerText at isNumber
  split at isNumber
  · next digits =>
      simp only [Bool.and_eq_true, List.all_eq_true, Bool.not_eq_true',
        List.isEmpty_eq_false_iff] at isNumber
      exact ⟨_, Integer.read_minus_of_decimals isNumber.2 isNumber.1 short⟩
  · next noMinus =>
      simp only [Bool.and_eq_true, List.all_eq_true, Bool.not_eq_true',
        List.isEmpty_eq_false_iff] at isNumber
      have whole : Integer.sign text = (false, text) := by
        unfold Integer.sign
        split
        · next rest => exact absurd rfl (noMinus rest)
        · next rest =>
            have plus : isDecimal '+' = true := isNumber.2 _ (List.mem_cons_self ..)
            exact absurd plus (by decide)
        · rfl
      rw [whole] at short
      exact ⟨_, Integer.read_of_decimals isNumber.2 isNumber.1 short⟩

theorem token_of_readable {text : List Char} (readable : ReadableNumber text) (type : String) :
    ∃ token, Token.read text type = .ok token := by
  unfold Token.read
  split
  · exact ⟨_, rfl⟩
  · exact ⟨_, rfl⟩
  · split
    · next isNumber =>
        obtain ⟨n, found⟩ := readable_of_isIntegerText isNumber (readable isNumber)
        exact ⟨_, by rw [found]; rfl⟩
    · repeat' split
      all_goals exact ⟨_, rfl⟩

theorem readAlign_of_short {items : List (List Char)}
    (short : ∀ digits, items.findSome? alignDigits? = some digits →
      digits.length ≤ Integer.digitLimit) :
    ∃ align, readAlign items = .ok align := by
  unfold readAlign
  split
  · next digits found =>
      obtain ⟨-, piece, -, -, isAlign, -⟩ := List.findSome?_eq_some_iff.mp found
      have number : Integer.Decimals digits ∧ digits ≠ [] := by
        unfold alignDigits? at isAlign
        split at isAlign
        · simp only at isAlign
          split at isAlign
          · next whole =>
              cases isAlign
              simp only [Bool.and_eq_true, List.all_eq_true, Bool.not_eq_true',
                List.isEmpty_eq_false_iff] at whole
              exact ⟨whole.2, whole.1.2⟩
          · cases isAlign
        · cases isAlign
      rw [Integer.read_of_decimals number.1 number.2 (short digits found)]
      exact ⟨_, rfl⟩
  · exact ⟨none, rfl⟩

end Numbers

section Statements

variable {line : Nat}

theorem settled_typedToken {text : List Char}
    (readable : ∀ written, operandText? text = some written → ReadableNumber written) :
    Settled (Eq line) (TypedToken.read line text) := by
  unfold TypedToken.read
  simp only
  split
  · next first second more parts =>
      have written : operandText? text = some (divide text first second more).2 := by
        unfold operandText?
        simp only [parts]
      obtain ⟨token, found⟩ := token_of_readable (readable _ written)
        (String.ofList (divide text first second more).1)
      refine Settled.of_ok (a := ⟨String.ofList (divide text first second more).1, token⟩) ?_
      simp only [found]
      rfl
  · exact .refused rfl _

theorem settled_readStore {rest : List Char}
    (operands : ∀ written ∈ ((pieces rest).take 2).filterMap operandText?, ReadableNumber written)
    (align : ∀ digits, ((pieces rest).drop 2).findSome? alignDigits? = some digits →
      digits.length ≤ Integer.digitLimit) :
    Settled (Eq line) (readStore line rest) := by
  unfold readStore
  split
  · next value pointer more cut =>
      simp only [cut, List.take, List.drop] at operands align
      obtain ⟨n, aligned⟩ := readAlign_of_short align
      have first : Settled (Eq line) (TypedToken.read line value) :=
        settled_typedToken fun written found =>
          operands written (List.mem_filterMap.mpr ⟨value, by simp, found⟩)
      have second : Settled (Eq line) (TypedToken.read line pointer) :=
        settled_typedToken fun written found =>
          operands written (List.mem_filterMap.mpr ⟨pointer, by simp, found⟩)
      exact .bind first fun _ _ => .bind second fun _ _ => .bind (.of_ok aligned) fun _ _ => .ok _
  · exact .refused rfl _

theorem settled_readLoad {rest : List Char}
    (operands : ∀ written ∈ (((pieces rest).drop 1).take 1).filterMap operandText?,
      ReadableNumber written)
    (align : ∀ digits, ((pieces rest).drop 2).findSome? alignDigits? = some digits →
      digits.length ≤ Integer.digitLimit) :
    Settled (Eq line) (readLoad line rest) := by
  unfold readLoad
  split
  · next type pointer more cut =>
      simp only [cut, List.take, List.drop] at operands align
      obtain ⟨n, aligned⟩ := readAlign_of_short align
      have only : Settled (Eq line) (TypedToken.read line pointer) :=
        settled_typedToken fun written found =>
          operands written (List.mem_filterMap.mpr ⟨pointer, by simp, found⟩)
      exact .bind only fun _ _ => .bind (.of_ok aligned) fun _ _ => .ok _
  · exact .refused rfl _

theorem settled_readBinary {opcode : Opcode} {rest : List Char}
    (operands : ∀ written ∈ ((pieces rest).take 1).filterMap leftText? ++ (pieces rest).drop 1,
      ReadableNumber written) :
    Settled (Eq line) (readBinary line opcode rest) := by
  unfold readBinary
  split
  · next left right cut =>
      simp only
      split
      · next first second more parts =>
          have leftText : leftText? left = some (divide left first second more).2 := by
            unfold leftText?
            rw [parts]
          simp only [cut, List.take, List.drop, List.filterMap_cons, leftText,
            List.filterMap_nil] at operands
          obtain ⟨lhs, isLeft⟩ := token_of_readable (operands _ (List.mem_cons_self ..))
            (String.ofList (divide left first second more).1)
          obtain ⟨rhs, isRight⟩ := token_of_readable (operands right (by simp))
            (String.ofList (divide left first second more).1)
          exact .bind (.of_ok isLeft) fun _ _ => .bind (.of_ok isRight) fun _ _ => .ok _
      · exact .refused rfl _
  · exact .refused rfl _

theorem settled_statement {opcode : Opcode} {text : List Char}
    (operands : ∀ written ∈ operandTexts opcode text, ReadableNumber written)
    (align : ∀ digits, (alignItems opcode text).findSome? alignDigits? = some digits →
      digits.length ≤ Integer.digitLimit) :
    Settled (Eq line) (Statement.read line opcode text) := by
  unfold Statement.read
  unfold operandTexts at operands
  unfold alignItems at align
  simp only at operands align ⊢
  split
  · exact settled_readStore operands align
  · exact settled_readLoad operands align
  · obtain ⟨n, aligned⟩ := readAlign_of_short align
    exact .bind (.of_ok aligned) fun _ _ => .ok _
  · split
    · next binary =>
        simp only [binary, if_true] at operands
        exact settled_readBinary operands
    · exact .ok _

theorem Regular.statement {text mnemonic rest : List Char} {result : Option (List Char)}
    (regular : Regular text) (line : Nat)
    (form : BodyLine.read text = .ok (.instruction result mnemonic rest)) :
    Settled (Eq line) (Statement.read line (Opcode.ofMnemonic (String.ofList mnemonic)) rest) := by
  have operands := regular.operands
  have align := regular.align
  rw [lineOperands, form] at operands
  rw [lineAlign?, form] at align
  exact settled_statement operands align

end Statements

section Parameters

/-- A parameter whose number, if it has one, is read and leaves place for those after it. -/
def HasPlace : Parameter → Prop
  | .named _ name => name ≠ [] → (∀ c ∈ name, isDigit c = true) → Integer.Decimals name ∧
      name.length < Integer.digitLimit
  | _ => True

-- The powers are too large to be computed, so their exponents are generalized.
theorem power_le_placeBound {places : Nat} (fewer : places < Integer.digitLimit) :
    Nat.pow 10 places ≤ placeBound := by
  unfold placeBound
  generalize Integer.digitLimit = limit at fewer ⊢
  exact Nat.pow_le_pow_right (by decide) (by omega)

theorem double_placeBound_le : 2 * placeBound ≤ Nat.pow 10 Integer.digitLimit := by
  have positive : 0 < Integer.digitLimit := by decide
  unfold placeBound
  generalize Integer.digitLimit = limit at positive ⊢
  obtain ⟨places, rfl⟩ := Nat.exists_eq_add_one.mpr positive
  calc
    2 * Nat.pow 10 places ≤ Nat.pow 10 places * 10 := by omega
    _ = Nat.pow 10 (places + 1) := rfl

theorem slotText_of_lt {slot : Nat} (small : slot < Nat.pow 10 Integer.digitLimit) :
    slotText slot = .ok (toString slot) := by
  rw [slotText, Integer.write, Int.natAbs_natCast, if_neg (Nat.not_le.mpr small)]
  rfl

theorem slotAfter_of_hasPlace {type name : List Char} (place : HasPlace (.named type name))
    {slot bound : Nat} (low : slot ≤ bound) (enough : placeBound ≤ bound) :
    ∃ next, slotAfter slot name = .ok next ∧ next ≤ bound := by
  unfold slotAfter
  split
  · next digits =>
      simp only [Bool.and_eq_true, Bool.not_eq_true', List.isEmpty_eq_false_iff,
        List.all_eq_true] at digits
      obtain ⟨decimals, short⟩ := place digits.1 digits.2
      have small : Integer.decimalValue 0 name < placeBound := by
        calc
          _ < (0 + 1) * Nat.pow 10 name.length := Integer.decimalValue_lt 0 name
          _ = Nat.pow 10 name.length := by rw [Nat.zero_add, Nat.one_mul]
          _ ≤ placeBound := power_le_placeBound short
      refine ⟨Integer.decimalValue 0 name + 1, ?_, by omega⟩
      rw [Integer.read_of_decimals decimals digits.1 (by omega)]
      rfl
  · exact ⟨slot, rfl, low⟩

theorem parameter_of_regular {piece : List Char} (regular : RegularParameter piece) :
    ∃ parameter, Parameter.read piece = .ok parameter ∧ HasPlace parameter := by
  unfold Parameter.read
  split
  · exact ⟨.variadic, rfl, trivial⟩
  · obtain ⟨first, more, parts⟩ := List.exists_cons_of_ne_nil regular.nonempty
    have last := List.getLast?_eq_some_getLast regular.nonempty
    have head : (words piece).head? = some first := by rw [parts]; rfl
    simp only [head, last]
    split
    · next type name isFirst isLast =>
        refine ⟨.named type name, rfl, fun nonempty digits => regular.decimal name ?_⟩
        have whole : (!name.isEmpty && name.all isDigit) = true := by
          simp [nonempty, List.all_eq_true.mpr digits]
        unfold parameterDigits?
        rw [last, isLast]
        exact if_pos whole
    · exact ⟨.unnamed _, rfl, trivial⟩
    · next impossible => exact absurd rfl (impossible _ _ rfl)

variable {line : Nat} {signature : Signature} {names : Names}

theorem settled_addArgument {name type : String} :
    Settled (Eq line) (addArgument line signature names name type) := by
  unfold addArgument
  split
  · exact .refused rfl _
  · exact .ok _

theorem addArgument_keeps {name type : String} {after : Signature × Names}
    (added : addArgument line signature names name type = .ok after) :
    after.1.slot = signature.slot ∧ after.2.pending = names.pending := by
  unfold addArgument at added
  split at added
  · cases added
  · cases added
    exact ⟨rfl, rfl⟩

/-- Each parameter takes one slot at most, or the slots go on behind its number. -/
theorem addParameter_of_hasPlace {parameter : Parameter} (place : HasPlace parameter) {bound : Nat}
    (low : signature.slot ≤ bound) (enough : placeBound ≤ bound)
    (room : bound < Nat.pow 10 Integer.digitLimit) :
    Settled (Eq line) (addParameter line signature names parameter) ∧
      ∀ after, addParameter line signature names parameter = .ok after →
        after.1.slot ≤ bound + 1 ∧ after.2.pending = names.pending := by
  cases parameter with
  | variadic =>
      refine ⟨.ok _, fun after added => ?_⟩
      cases added
      exact ⟨Nat.le_succ_of_le low, rfl⟩
  | unnamed type =>
      have written := slotText_of_lt (Nat.lt_of_le_of_lt low room)
      refine ⟨.bind (.of_ok written) fun _ _ => settled_addArgument, fun after added => ?_⟩
      obtain ⟨name, -, added⟩ := bind_eq_ok.mp added
      obtain ⟨slot, pending⟩ := addArgument_keeps added
      exact ⟨by rw [slot]; exact Nat.succ_le_succ low, pending⟩
  | named type name =>
      obtain ⟨next, found, below⟩ := slotAfter_of_hasPlace place low enough
      refine ⟨.bind (.of_ok found) fun _ _ => settled_addArgument, fun after added => ?_⟩
      obtain ⟨slot, isNext, added⟩ := bind_eq_ok.mp added
      obtain rfl : next = slot := Except.ok.inj (found.symm.trans isNext)
      obtain ⟨slot, pending⟩ := addArgument_keeps added
      exact ⟨by rw [slot]; exact Nat.le_succ_of_le below, pending⟩

theorem addPieces_of_regular {pieces : List (List Char)}
    (regular : ∀ piece ∈ pieces, RegularParameter piece) {bound : Nat}
    (low : signature.slot ≤ bound) (enough : placeBound ≤ bound)
    (room : bound + pieces.length < Nat.pow 10 Integer.digitLimit) :
    Settled (Eq line) (addPieces line signature names pieces) ∧
      ∀ after, addPieces line signature names pieces = .ok after →
        after.1.slot ≤ bound + pieces.length ∧ after.2.pending = names.pending := by
  -- The bound grows by one with each piece: a parameter takes at most one slot.
  induction pieces generalizing signature names bound with
  | nil =>
      refine ⟨.ok _, fun after added => ?_⟩
      cases added
      exact ⟨low, rfl⟩
  | cons piece rest ih =>
      obtain ⟨first, others⟩ := List.forall_mem_cons.mp regular
      rw [List.length_cons] at room
      obtain ⟨parameter, isRead, place⟩ := parameter_of_regular first
      obtain ⟨settled, one⟩ := addParameter_of_hasPlace place low enough
        (Nat.lt_of_le_of_lt (Nat.le_add_right ..) room)
      have more (next : Signature × Names)
          (added : addParameter line signature names parameter = .ok next) :=
        @ih next.1 next.2 others (bound + 1) (one next added).1 (by omega) (by omega)
      constructor
      · exact .bind (.of_ok isRead) fun _ same => by
          obtain rfl := Except.ok.inj (isRead.symm.trans same)
          exact .bind settled fun next added => (more next added).1
      · intro after added
        obtain ⟨other, same, added⟩ := bind_eq_ok.mp added
        obtain rfl := Except.ok.inj (isRead.symm.trans same)
        obtain ⟨next, isNext, added⟩ := bind_eq_ok.mp added
        obtain ⟨slot, pending⟩ := (more next isNext).2 after added
        refine ⟨?_, pending.trans (one next isNext).2⟩
        rw [List.length_cons]
        omega

theorem Regular.readParameters {text returnType name params : List Char} (regular : Regular text)
    (form : TopLine.read text = .ok (.definition returnType name params)) :
    Settled (Eq line) (Assembly.readParameters line names params) ∧
      ∀ after, Assembly.readParameters line names params = .ok after →
        after.1.slot < Nat.pow 10 Integer.digitLimit ∧ after.2.pending = names.pending := by
  have isList : lineParameters? text = some params := by rw [lineParameters?, form]
  have few := regular.few params isList
  have room := double_placeBound_le
  have start : ({} : Signature).slot ≤ placeBound := Nat.zero_le _
  obtain ⟨settled, after⟩ := addPieces_of_regular (regular.parameters params isList) start
    (Nat.le_refl _) (by omega)
  refine ⟨settled, fun signature read => ?_⟩
  obtain ⟨slot, pending⟩ := after signature read
  exact ⟨by omega, pending⟩

end Parameters

end ValueNumbering.Assembly
