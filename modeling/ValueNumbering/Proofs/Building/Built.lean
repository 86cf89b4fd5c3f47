import ValueNumbering.Proofs.Building.Calls

/-!
What calls have built so far. Every operand that has been obtained is a value that can be printed,
and every instruction is one that the calls emit.
-/

namespace ValueNumbering

open Text Assembly

section Characters

variable {c : Char}

theorem toNat_lt_of_isAlphanum (letter : c.isAlphanum = true) : c.toNat < 0x80 := by
  delta Char.isAlphanum Char.isAlpha Char.isUpper Char.isLower Char.isDigit at letter
  simp only [Bool.or_eq_true, Bool.and_eq_true, decide_eq_true_eq, UInt32.le_iff_toNat_le,
    ge_iff_le] at letter
  have bounds : 'Z'.val.toNat = 90 ∧ 'z'.val.toNat = 122 ∧ '9'.val.toNat = 57 := ⟨rfl, rfl, rfl⟩
  have same : c.toNat = c.val.toNat := rfl
  omega

theorem isNameChar_of_isAlphanum (letter : c.isAlphanum = true) : isNameChar c = true := by
  simp [isNameChar, isWord, toNat_lt_of_isAlphanum letter, letter]

theorem isDigit_of_narrow (narrow : c.toNat < 0x80)
    (digit : isDigit c = true) : c.isDigit = true := by
  have all : ∀ n < 0x80, isDigit (Char.ofNat n) = true → (Char.ofNat n).isDigit = true := by
    decide +kernel
  have here := all c.toNat narrow
  rw [Char.ofNat_toNat] at here
  exact here digit

end Characters

namespace PlainName

variable {name : String}

theorem narrow (plain : PlainName name) : ∀ c ∈ name.toList, c.toNat < 0x80 := by
  intro c member
  have inName := plain.within c member
  simp only [isPlainNameChar, Bool.or_eq_true, beq_iff_eq] at inName
  rcases inName with (((letter | rfl) | rfl) | rfl) | rfl
  · exact toNat_lt_of_isAlphanum letter
  all_goals decide

theorem isName (plain : PlainName name) : IsName name.toList := by
  refine ⟨plain.nonempty, fun c member => ?_⟩
  have inName := plain.within c member
  simp only [isPlainNameChar, Bool.or_eq_true, beq_iff_eq] at inName
  rcases inName with (((letter | rfl) | rfl) | rfl) | rfl
  · exact isNameChar_of_isAlphanum letter
  all_goals decide

theorem slot (plain : PlainName name) (slot : Nat) :
    ∃ next, slotAfter slot name.toList = .ok next := by
  unfold slotAfter
  split
  · next digits =>
      simp only [Bool.and_eq_true, List.all_eq_true] at digits
      have allDigits : Integer.AllDigits name.toList := fun c member =>
        isDigit_of_narrow (plain.narrow c member) (digits.2 c member)
      rw [Integer.read_of_allDigits allDigits plain.nonempty (Nat.le_of_lt plain.short)]
      exact ⟨_, rfl⟩
  · exact ⟨slot, rfl⟩

end PlainName

namespace PlainType

variable {type : String}

theorem atom (plain : PlainType type) : IsAtom type.toList := by
  refine ⟨plain.nonempty, fun c member => ?_⟩
  have inType := plain.within c member
  simp only [isPlainTypeChar, Bool.or_eq_true, beq_iff_eq] at inType
  rcases inType with ((letter | rfl) | rfl) | rfl
  · exact Or.inl (isNameChar_of_isAlphanum letter)
  all_goals decide

theorem isTypeWord (plain : PlainType type) : IsTypeWord type.toList :=
  ⟨plain.atom, plain.notFlag, plain.notVolatile⟩

theorem noAt (plain : PlainType type) : '@' ∉ type.toList := by
  intro member
  have inType := plain.within '@' member
  revert inType
  decide

end PlainType

namespace Builder

def emitted (b : Builder) : List Instruction := (b.closed ++ [b.current]).flatMap (·.instructions)

theorem build_instructions (b : Builder) : b.build.instructions = b.emitted := by
  have filtered : ∀ blocks : List Block,
      (blocks.filter fun block => !block.instructions.isEmpty).flatMap (·.instructions) =
        blocks.flatMap (·.instructions) := by
    intro blocks
    induction blocks with
    | nil => rfl
    | cons block more ih =>
        cases empty : block.instructions with
        | nil => simpa [empty] using ih
        | cons first rest => simpa [empty] using ih
  exact filtered _

/-- An instruction as a call emits it. -/
inductive Emits (obtained : List Operand) : Instruction → Prop
  | alloca {id : Nat} {name type : String} (isName : IsName name.toList) (isType : PlainType type) :
      Emits obtained
        { id := id, opcode := .alloca, type := "ptr", name := some name, align := some 4,
          allocatedType := some type }
  | store {id : Nat} {v p : Operand} (value : v ∈ obtained) (pointer : p ∈ obtained) :
      Emits obtained { id := id, opcode := .store, operands := [v, p], align := some 4 }
  | load {id : Nat} {p : Operand} {name type : String} (isName : IsName name.toList)
      (isType : PlainType type)
      (pointer : p ∈ obtained) :
      Emits obtained { id := id, opcode := .load, operands := [p], type := type, name := some name,
                       align := some 4 }
  | binary {id : Nat} {opcode : Opcode} {lhs rhs : Operand} {name type : String}
      (isBinary : opcode.isBinary = true)
      (isName : IsName name.toList) (isType : PlainType type) (left : lhs ∈ obtained)
      (right : rhs ∈ obtained) :
      Emits obtained { id := id, opcode := opcode, operands := [lhs, rhs], type := type,
                       name := some name }
  | ret {id : Nat} {value : Option Operand} (known : ∀ o ∈ value, o ∈ obtained) :
      Emits obtained { id := id, opcode := .ret, operands := value.toList }

/-- What an operand of a call can be. -/
inductive Origin (b : Builder) : Operand → Prop
  | argument {arg : Argument} (member : arg ∈ b.arguments) (isName : PlainName arg.name)
      (isType : PlainType arg.type) :
      Origin b arg.operand
  | global {id : Nat} {name : String} (isName : PlainName name) :
      Origin b ⟨"ptr", ⟨id, .global name "ptr"⟩⟩
  | literal {id : Nat} {value : Int} {type : String} (isType : PlainType type)
      (truth : type = "i1" → value = 0 ∨ value = 1)
      (short : value.natAbs < Nat.pow 10 Integer.digitLimit) :
      Origin b ⟨type, ⟨id, .literal value type⟩⟩
  | result {inst : Instruction} {name : String} (member : inst ∈ b.emitted)
      (named : inst.name = some name)
      (isName : IsName name.toList) (isType : PlainType inst.type) : Origin b inst.operand

variable {b b' : Builder} {o : Operand} {inst : Instruction}

theorem Origin.mono (origin : Origin b o) (arguments : ∀ arg ∈ b.arguments, arg ∈ b'.arguments)
    (emitted : ∀ inst ∈ b.emitted, inst ∈ b'.emitted) : Origin b' o := by
  cases origin with
  | argument member isName isType => exact .argument (arguments _ member) isName isType
  | global isName => exact .global isName
  | literal isType truth short => exact .literal isType truth short
  | result member named isName isType => exact .result (emitted _ member) named isName isType

theorem Origin.printable (origin : Origin b o) : PrintableUse o := by
  have pointer : IsTypeWord "ptr".toList :=
    ⟨(IsName.of_all (by simp) (by decide)).atom, by decide, by decide⟩
  cases origin with
  | argument member isName isType => exact ⟨isType.isTypeWord, .argument isName.isName⟩
  | global isName => exact ⟨pointer, .global isName.isName⟩
  | literal isType truth short => exact ⟨isType.isTypeWord, .literal truth short⟩
  | result member named isName isType =>
      refine ⟨isType.isTypeWord, ?_⟩
      rw [Instruction.operand, Instruction.result, named]
      exact .result isName

theorem Emits.mono {obtained more : List Operand} (emits : Emits obtained inst)
    (kept : ∀ o ∈ obtained, o ∈ more) :
    Emits more inst := by
  cases emits with
  | alloca isName isType => exact .alloca isName isType
  | store value pointer => exact .store (kept _ value) (kept _ pointer)
  | load isName isType pointer => exact .load isName isType (kept _ pointer)
  | binary isBinary isName isType left right =>
    exact .binary isBinary isName isType (kept _ left) (kept _ right)
  | ret known => exact .ret fun o member => kept o (known o member)

theorem Emits.prints {obtained : List Operand} (emits : Emits obtained inst)
    (printable : ∀ o ∈ obtained, PrintableUse o) : ∃ entry, Prints inst entry := by
  cases emits with
  | alloca isName isType => exact prints_alloca isName isType.isTypeWord
  | store value pointer => exact prints_store (printable _ value) (printable _ pointer)
  | load isName isType pointer => exact prints_load isName isType.isTypeWord (printable _ pointer)
  | binary isBinary isName isType left right =>
      exact prints_binary isBinary isName isType.isTypeWord (printable _ left).form
        (printable _ right).form
  | ret known => exact prints_ret fun o member => printable o (known o member)

theorem Emits.operands {obtained : List Operand} (emits : Emits obtained inst) :
    ∀ o ∈ inst.operands, o ∈ obtained := by
  cases emits with
  | alloca isName isType => simp
  | store value pointer => simp [value, pointer]
  | load isName isType pointer => simp [pointer]
  | binary isBinary isName isType left right => simp [left, right]
  | ret known => exact fun o member => known o (Option.mem_toList.mp member)

/-- Only a return can have another number of operands than its opcode calls for. -/
theorem Emits.count {obtained : List Operand} (emits : Emits obtained inst)
    (notReturn : inst.opcode ≠ .ret) :
    inst.operands.length = inst.opcode.operandCount := by
  cases emits with
  | alloca isName isType => rfl
  | store value pointer => rfl
  | load isName isType pointer => rfl
  | @binary id opcode lhs rhs name type isBinary isName isType left right =>
    cases opcode <;> first | rfl | cases isBinary
  | ret known => exact absurd rfl notReturn

def globalOf? (o : Operand) : Option String :=
  match o.value.form with
  | .global name _ => some name
  | _ => none

end Builder

end ValueNumbering
