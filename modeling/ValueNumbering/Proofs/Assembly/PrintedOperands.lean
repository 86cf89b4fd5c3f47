import ValueNumbering.Proofs.Text.Integer
import ValueNumbering.Proofs.Assembly.Acceptance

/-!
Operands that are printed with their types, and what they are read as. The spelling of a name is
read as the name, and that of a number as the number.
-/

namespace ValueNumbering.Assembly

open Text

/-- A word on the line of an instruction: characters of names, and the marks in front of them. -/
structure IsAtom (text : List Char) : Prop where
  nonempty : text ≠ []
  within : ∀ c ∈ text, isNameChar c = true ∨ c = '%' ∨ c = '@'

namespace IsAtom

variable {text : List Char}

theorem not_mem (atom : IsAtom text) {d : Char} (outside : isNameChar d = false)
    (noMark : d ≠ '%' ∧ d ≠ '@') : d ∉ text := by
  intro member
  rcases atom.within d member with inName | rfl | rfl
  · rw [outside] at inName
    cases inName
  · exact noMark.1 rfl
  · exact noMark.2 rfl

theorem isWordText (atom : IsAtom text) : IsWordText text := by
  refine ⟨atom.nonempty, fun c member => ?_⟩
  rcases atom.within c member with inName | rfl | rfl
  · exact isBlank_of_isNameChar inName
  · decide
  · decide

theorem uncut (atom : IsAtom text) : Uncut text := by
  intro c member
  rcases atom.within c member with inName | rfl | rfl
  · exact uncut_of_isNameChar inName
  · decide
  · decide

theorem plain (atom : IsAtom text) : Plain text := by
  refine .of_solid atom.isWordText.solid fun c member => ⟨?_, ?_⟩
  · rintro rfl
    exact atom.not_mem (by decide) (by decide) member
  · rintro rfl
    exact atom.not_mem (by decide) (by decide) member

theorem isItem (atom : IsAtom text) : IsItem text :=
  ⟨atom.nonempty, atom.isWordText.trimmed, atom.uncut⟩

end IsAtom

theorem IsName.atom {text : List Char} (name : IsName text) : IsAtom text :=
  ⟨name.nonempty, fun c member => Or.inl (name.within c member)⟩

theorem IsName.marked {text : List Char} (name : IsName text) {mark : Char}
    (isMark : mark = '%' ∨ mark = '@') :
    IsAtom (mark :: text) := by
  refine ⟨by simp, fun c member => ?_⟩
  rcases List.mem_cons.mp member with rfl | inside
  · exact Or.inr isMark
  · exact Or.inl (name.within c inside)

section Literals

theorem toString_cases (value : Int) :
    (∃ n : Nat, value = n ∧ (toString value).toList = n.repr.toList) ∨
      ∃ n : Nat, value = -n ∧ (toString value).toList = '-' :: n.repr.toList := by
  cases value with
  | ofNat n => exact Or.inl ⟨n, rfl, Integer.toString_ofNat n⟩
  | negSucc n => exact Or.inr ⟨n + 1, rfl, Integer.toString_negSucc n⟩

theorem atom_integer (value : Int) : IsAtom (toString value).toList := by
  rcases toString_cases value with ⟨n, -, written⟩ | ⟨n, -, written⟩
  · rw [written]
    exact (isName_of_allDigits (Integer.allDigits_repr n) (Integer.repr_ne_nil n)).atom
  · rw [written]
    have digits := (isName_of_allDigits (Integer.allDigits_repr n) (Integer.repr_ne_nil n)).within
    refine ⟨by simp, fun c member => Or.inl ?_⟩
    rcases List.mem_cons.mp member with rfl | inside
    · decide
    · exact digits c inside

theorem read_of_isIntegerText {text : List Char} {value : Int} (integer : isIntegerText text = true)
    (number : Integer.read text = .ok value) (type : String) :
    Token.read text type = .ok (.literal value type) := by
  have marks : isDecimal '%' = false ∧ isDecimal '@' = false := by decide
  unfold Token.read
  split
  · simp [isIntegerText, marks] at integer
  · simp [isIntegerText, marks] at integer
  · rw [if_pos integer, number]
    rfl

theorem isIntegerText_of_allDigits {text : List Char} (digits : Integer.AllDigits text)
    (nonempty : text ≠ []) :
    isIntegerText text = true ∧ isIntegerText ('-' :: text) = true := by
  have decimal : text.all isDecimal = true :=
    List.all_eq_true.mpr fun c member => Integer.isDecimal_of_isDigit (digits c member)
  have number : (!text.isEmpty && text.all isDecimal) = true := by
    rw [decimal]
    simpa using nonempty
  refine ⟨?_, number⟩
  unfold isIntegerText
  split
  · next rest =>
      have minus := digits '-' (List.mem_cons_self ..)
      cases minus
  · exact number

theorem read_integer {value : Int} (short : value.natAbs < Nat.pow 10 Integer.digitLimit)
    (type : String) :
    Token.read (toString value).toList type = .ok (.literal value type) := by
  rcases toString_cases value with ⟨n, rfl, written⟩ | ⟨n, rfl, written⟩
  · rw [written]
    have integer :=
      (isIntegerText_of_allDigits (Integer.allDigits_repr n) (Integer.repr_ne_nil n)).1
    exact read_of_isIntegerText integer (Integer.read_repr (by simpa using short)) type
  · rw [written]
    have integer :=
      (isIntegerText_of_allDigits (Integer.allDigits_repr n) (Integer.repr_ne_nil n)).2
    exact read_of_isIntegerText integer (Integer.read_minus_repr (by simpa using short)) type

end Literals

inductive Spellable : Form → Prop
  | argument {name type : String} (isName : IsName name.toList) : Spellable (.argument name type)
  | result {name : String} (isName : IsName name.toList) : Spellable (.result (some name))
  | global {name type : String} (isName : IsName name.toList) : Spellable (.global name type)
  | literal {value : Int} {type : String} (truth : type = "i1" → value = 0 ∨ value = 1)
      (short : value.natAbs < Nat.pow 10 Integer.digitLimit) : Spellable (.literal value type)

/-- The tokens that the spelling of a form can be read as. -/
inductive Spells : Form → Token → Prop
  | argument (name type : String) : Spells (.argument name type) (.named name)
  | result (name : String) : Spells (.result (some name)) (.named name)
  | global (name type : String) : Spells (.global name type) (.global name)
  | literal (value : Int) (type type' : String) :
      Spells (.literal value type) (.literal value type')

namespace Spellable

variable {form : Form}

theorem atom (spellable : Spellable form) : IsAtom form.spelling.toList := by
  cases spellable with
  | argument isName => simpa [Form.spelling] using isName.marked (Or.inl rfl)
  | result isName => simpa [Form.spelling, resultName] using isName.marked (Or.inl rfl)
  | global isName => simpa [Form.spelling] using isName.marked (Or.inr rfl)
  | @literal value type truth short =>
      rw [Form.spelling, literalText]
      split
      · split
        · exact (IsName.of_all (by simp) (by decide)).atom
        · exact (IsName.of_all (by simp) (by decide)).atom
      · exact atom_integer value

theorem read (spellable : Spellable form) (type : String) :
    ∃ token, Token.read form.spelling.toList type = .ok token ∧ Spells form token := by
  cases spellable with
  | @argument name own isName =>
    exact ⟨.named name, by simp [Form.spelling, Token.read], .argument name own⟩
  | @result name isName =>
    exact ⟨.named name, by simp [Form.spelling, resultName, Token.read], .result name⟩
  | @global name own isName =>
    exact ⟨.global name, by simp [Form.spelling, Token.read], .global name own⟩
  | @literal value own truth short =>
      rw [Form.spelling, literalText]
      split
      · next oneBit =>
          rcases truth oneBit with rfl | rfl
          · exact ⟨.literal 0 "i1", rfl, .literal 0 own "i1"⟩
          · exact ⟨.literal 1 "i1", rfl, .literal 1 own "i1"⟩
      · exact ⟨.literal value type, read_integer short type, .literal value own type⟩

end Spellable

structure IsTypeWord (text : List Char) : Prop where
  atom : IsAtom text
  notFlag : isBinaryFlag text = false
  notVolatile : "volatile".toList.isPrefixOf? text = none

structure PrintableUse (o : Operand) : Prop where
  type : IsTypeWord o.type.toList
  form : Spellable o.value.form

theorem isPrefixOf?_self (text : List Char) : text.isPrefixOf? text = some [] := by
  have whole := isPrefixOf?_append text []
  rwa [List.append_nil] at whole

theorem unwords_singleton (word : List Char) : unwords [word] = word := by
  simp [unwords]

section Uses

variable {o : Operand}

theorem toList_typedUse (o : Operand) :
    (Instruction.typedUse o).toList = o.type.toList ++ ' ' :: o.value.form.spelling.toList := by
  simp [Instruction.typedUse]

theorem plain_pair {type written : List Char} (isType : IsAtom type) (isWritten : IsAtom written) :
    Plain (type ++ ' ' :: written) := by
  have space : Plain [' '] := by decide
  simpa using isType.plain.append (space.append isWritten.plain)

theorem isItem_pair {type written : List Char} (isType : IsAtom type) (isWritten : IsAtom written) :
    IsItem (type ++ ' ' :: written) := by
  have space : Uncut [' '] := by simp [Uncut]; decide
  refine ⟨by simp, ⟨?_, ?_⟩, by simpa using isType.uncut.append (space.append isWritten.uncut)⟩
  · rw [List.head?_append_of_ne_nil _ isType.nonempty]
    exact isType.isWordText.trimmed.first
  · have last : type ++ ' ' :: written = (type ++ [' ']) ++ written := by simp
    rw [last, List.getLast?_append_of_ne_nil _ isWritten.nonempty]
    exact isWritten.isWordText.trimmed.last

theorem words_pair {type written : List Char} (isType : IsAtom type) (isWritten : IsAtom written) :
    words (type ++ ' ' :: written) = [type, written] := by
  rw [isType.isWordText.words_append, isWritten.isWordText.words_eq]

theorem divide_pair {type written : List Char} (isType : IsAtom type) (isWritten : IsAtom written) :
    divide (type ++ ' ' :: written) type written [] = (type, written) := by
  have notOpening : isNameChar '(' = false := by decide
  have notExpression : isExpression (type ++ ' ' :: written) = false := by
    have trimmed := (isItem_pair isType isWritten).trimmed
    have inType := isType.not_mem notOpening (by decide)
    have inWritten := isWritten.not_mem notOpening (by decide)
    have noParenthesis : (type ++ ' ' :: written).contains '(' = false := by
      simpa [inType] using inWritten
    rw [isExpression, trimmed.trim_eq]
    simp only [noParenthesis, Bool.false_and]
  simp [divide, notExpression, unwords_singleton]

theorem PrintableUse.read (printable : PrintableUse o) :
    ∃ token, Spells o.value.form token ∧
      ∀ line, TypedToken.read line (Instruction.typedUse o).toList = .ok ⟨o.type, token⟩ := by
  have isType := printable.type.atom
  have isWritten := printable.form.atom
  obtain ⟨token, read, spells⟩ := printable.form.read o.type
  refine ⟨token, spells, fun line => ?_⟩
  have notVolatile : o.type.toList ≠ "volatile".toList := by
    intro same
    have isPrefix := printable.type.notVolatile
    rw [same, isPrefixOf?_self] at isPrefix
    cases isPrefix
  rw [toList_typedUse]
  unfold TypedToken.read
  simp only [words_pair isType isWritten, List.head?_cons, Option.some.injEq, notVolatile, if_false,
    divide_pair isType isWritten, String.ofList_toList, read]
  rfl

end Uses

end ValueNumbering.Assembly
