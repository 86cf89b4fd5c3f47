import ValueNumbering.Proofs.Assembly.FunctionAlone

/-!
Lines that are operations. None of them stands outside of a function: the lines there begin with
words that are no opcode, or with a sign that no instruction begins with.
-/

namespace ValueNumbering.Assembly

open Text

def IsOperation (opcode : Opcode) : Prop :=
  opcode = .store ∨ opcode = .load ∨ opcode = .alloca ∨ opcode.isBinary = true

instance (opcode : Opcode) : Decidable (IsOperation opcode) :=
  inferInstanceAs
    (Decidable (opcode = .store ∨ opcode = .load ∨ opcode = .alloca ∨ opcode.isBinary = true))

def HoldsOperation (line : List Char) : Prop :=
  ∃ result mnemonic rest, BodyLine.read line = .ok (.instruction result mnemonic rest) ∧
    IsOperation (Opcode.ofMnemonic (String.ofList mnemonic))

section Outside

/-- The words that lines outside of functions begin with, but for definitions. -/
def topWords : List String :=
  ["type", "target", "source_filename", "attributes", "module", "uselistorder", "declare"]

theorem not_isOperation_topWord {word : String} (member : word ∈ topWords) :
    ¬IsOperation (Opcode.ofMnemonic word) := by
  have each : ∀ word ∈ topWords, ¬IsOperation (Opcode.ofMnemonic word) := by decide
  exact each word member

theorem isWord_topWord {word : String} (member : word ∈ topWords) :
    ∀ c ∈ word.toList, isWord c = true := by
  have each : ∀ word ∈ topWords, word.toList.all isWord = true := by decide
  exact List.all_eq_true.mp (each word member)

theorem mnemonic_eq {word rest mnemonic more : List Char} (letters : ∀ c ∈ word, isWord c = true)
    (stops : ∀ c, rest.head? = some c → isWord c = false)
    (found : mnemonic? (word ++ rest) = some (mnemonic, more)) :
    mnemonic = word := by
  have cut := span_append letters stops
  unfold mnemonic? at found
  split at found
  · split at found
    · rw [cut] at found
      cases found
      rfl
    · cases found
  · cases found

theorem afterWord?_sound {word : String} {text rest : List Char}
    (found : afterWord? word text = some rest) :
    text = word.toList ++ rest ∧ ∀ c, rest.head? = some c → isWord c = false := by
  simp only [afterWord?, Option.bind_eq_bind, Option.bind_eq_some_iff] at found
  obtain ⟨behind, isBehind, found⟩ := found
  rw [isPrefixOf?_sound isBehind]
  split at found
  · cases found
    exact ⟨rfl, fun c first => nomatch first⟩
  · split at found
    · cases found
    · next outside =>
        cases found
        refine ⟨rfl, fun c first => ?_⟩
        cases first
        exact Bool.eq_false_iff.mpr outside

theorem mnemonic_topWord {word : String} (isTop : word ∈ topWords) {text mnemonic more : List Char}
    (begins : (afterWord? word text).isSome = true)
    (found : mnemonic? text = some (mnemonic, more)) :
    ¬IsOperation (Opcode.ofMnemonic (String.ofList mnemonic)) := by
  obtain ⟨rest, isRest⟩ := Option.isSome_iff_exists.mp begins
  obtain ⟨rfl, stops⟩ := afterWord?_sound isRest
  rw [mnemonic_eq (isWord_topWord isTop) stops found, String.ofList_toList]
  exact not_isOperation_topWord isTop

theorem mnemonic_of_instruction? {line mnemonic rest : List Char} {result : Option (List Char)}
    (found : instruction? line = some (.instruction result mnemonic rest)) :
    (∃ text name bare more, line = '%' :: text ∧ bound? text = some (name, bare) ∧
      mnemonic? bare = some (mnemonic, more)) ∨
      ∃ more, mnemonic? line = some (mnemonic, more) := by
  unfold instruction? at found
  split at found
  · simp only [Option.bind_eq_bind, Option.bind_eq_some_iff] at found
    obtain ⟨⟨name, bare⟩, isBound, ⟨_, more⟩, isMnemonic, made⟩ := found
    cases made
    exact Or.inl ⟨_, name, bare, more, rfl, isBound, isMnemonic⟩
  · simp only [Option.bind_eq_bind, Option.bind_eq_some_iff] at found
    obtain ⟨⟨_, more⟩, isMnemonic, made⟩ := found
    cases made
    exact Or.inr ⟨more, isMnemonic⟩

theorem not_isOperation_of_isSkipped {line mnemonic rest : List Char} {result : Option (List Char)}
    (skipped : isSkipped line = true)
    (found : instruction? line = some (.instruction result mnemonic rest)) :
    ¬IsOperation (Opcode.ofMnemonic (String.ofList mnemonic)) := by
  rcases mnemonic_of_instruction? found with
    ⟨text, name, bare, more, rfl, isBound, isMnemonic⟩ | ⟨more, isMnemonic⟩
  · rw [isSkipped, isBound] at skipped
    exact mnemonic_topWord (by decide) skipped isMnemonic
  · unfold isSkipped at skipped
    split at skipped
    · cases isMnemonic
    · cases isMnemonic
    · cases isMnemonic
    · obtain ⟨word, member, begins⟩ := List.any_eq_true.mp skipped
      have isTop : word ∈ topWords :=
        List.mem_cons_of_mem _ (List.mem_append_left ["declare"] member)
      exact mnemonic_topWord isTop begins isMnemonic

theorem afterWord?_of_signature? {keyword : String} {line : List Char}
    (signed : (signature? keyword line).isSome = true) :
    (afterWord? keyword line).isSome = true := by
  obtain ⟨found, isFound⟩ := Option.isSome_iff_exists.mp signed
  simp only [signature?, Option.bind_eq_bind, Option.bind_eq_some_iff] at isFound
  obtain ⟨rest, isRest, first, isFirst, isFound⟩ := isFound
  split at isFound
  · next blank =>
      obtain ⟨more, rfl⟩ := List.head?_eq_some_iff.mp isFirst
      have outside : isWord first = false := by
        apply Bool.eq_false_iff.mpr
        intro inWord
        have solid := isBlank_of_isNameChar (c := first) (by simp [isNameChar, inWord])
        rw [blank] at solid
        cases solid
      simp [afterWord?, isRest, outside]
  · cases isFound

theorem not_isOperation_of_declaration? {line mnemonic rest : List Char}
    {result : Option (List Char)} {top : TopLine} (declared : declaration? line = some top)
    (found : instruction? line = some (.instruction result mnemonic rest)) :
    ¬IsOperation (Opcode.ofMnemonic (String.ofList mnemonic)) := by
  simp only [declaration?, Option.bind_eq_bind, Option.bind_eq_some_iff] at declared
  obtain ⟨signature, signed, -⟩ := declared
  have begins := afterWord?_of_signature? (signed ▸ rfl : (signature? "declare" line).isSome = true)
  rcases mnemonic_of_instruction? found with
    ⟨text, name, bare, more, rfl, -, -⟩ | ⟨more, isMnemonic⟩
  · cases begins
  · exact mnemonic_topWord (by decide) begins isMnemonic

theorem not_instruction_of_global? {line mnemonic rest : List Char} {result : Option (List Char)}
    {top : TopLine} (global : global? line = some top) :
    instruction? line ≠ some (.instruction result mnemonic rest) := by
  simp only [global?, Option.bind_eq_bind, Option.bind_eq_some_iff] at global
  obtain ⟨text, marked, -⟩ := global
  intro found
  rw [after?_sound marked] at found
  cases found

theorem not_holdsOperation_outside {line : List Char} {top : TopLine}
    (read : TopLine.read line = .ok top) : ¬HoldsOperation line := by
  rintro ⟨result, mnemonic, rest, body, operation⟩
  have found := (instruction_read body).1
  unfold TopLine.read at read
  split at read
  · next skipped => exact not_isOperation_of_isSkipped skipped found operation
  · next notSkipped =>
      split at read
      · next isDefinition =>
          obtain ⟨returnType, name, params, rfl, -⟩ := definition?_sound isDefinition
          have header : IsHeader line :=
            ⟨returnType, name, params, by rw [TopLine.read, if_neg notSkipped, isDefinition]⟩
          exact header.not_body _ body
      · split at read
        · cases read
        · split at read
          · next isDeclaration =>
              exact not_isOperation_of_declaration? isDeclaration found operation
          · split at read
            · cases read
            · split at read
              · next isGlobal => exact not_instruction_of_global? isGlobal found
              · cases read

end Outside

end ValueNumbering.Assembly
