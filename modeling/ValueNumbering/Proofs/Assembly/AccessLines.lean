import ValueNumbering.Proofs.Assembly.PrintedInstructions
import ValueNumbering.Proofs.Assembly.ValueTypes

/-!
The lines of loads and stores, with everything that their syntax leaves open, and the text that is
cut from them as the pointer. It is the last word before the alignment, so it is the pointer only
where no ordering comes after it.
-/

namespace ValueNumbering.Assembly

open Text

inductive MemoryOrdering
  | unordered | monotonic | acquire | release | acqRel | seqCst
  deriving DecidableEq, Repr

def MemoryOrdering.spelling : MemoryOrdering → List Char
  | .unordered => "unordered".toList
  | .monotonic => "monotonic".toList
  | .acquire => "acquire".toList
  | .release => "release".toList
  | .acqRel => "acq_rel".toList
  | .seqCst => "seq_cst".toList

theorem MemoryOrdering.isName (ordering : MemoryOrdering) : IsName ordering.spelling := by
  cases ordering <;> decide

theorem MemoryOrdering.unmarked (ordering : MemoryOrdering) :
    ordering.spelling.head? ≠ some '%' ∧ ordering.spelling.head? ≠ some '@' := by
  cases ordering <;> decide

structure MarkedName where
  mark : Char
  name : List Char
  isMark : mark = '%' ∨ mark = '@'
  isName : IsName name

def MarkedName.text (pointer : MarkedName) : List Char := pointer.mark :: pointer.name

theorem MarkedName.atom (pointer : MarkedName) : IsAtom pointer.text :=
  pointer.isName.marked pointer.isMark

theorem MarkedName.ext_text {first second : MarkedName} (same : first.text = second.text) :
    first = second := by
  cases first
  cases second
  obtain ⟨rfl, rfl⟩ := List.cons.inj same
  rfl

/-- A line that is a load or a store. What is loaded or stored is any text that its commas are
within brackets of, and that has no metadata; the pointer comes next, with the ordering of an atomic
access, and what is after a further comma is free. -/
structure Access (line : List Char) where
  opcode : Opcode
  pointer : MarkedName
  ordering : Option MemoryOrdering
  result : Option (List Char)
  typed : List Char
  pointed : List Char
  rest : List Char
  isAccess : opcode = .load ∨ opcode = .store
  isLine : BodyLine.read line =
    .ok (.instruction result opcode.mnemonic.toList (typed ++ ',' :: (pointed ++ rest)))
  closed : Sealed typed
  bare : dropMetadata typed = typed
  words_pointed : words pointed = "ptr".toList :: pointer.text :: (ordering.map (·.spelling)).toList
  separate : rest = [] ∨ ∃ more, rest = ',' :: more

section Cutting

theorem uncut_of_words {text : List Char} (atoms : ∀ word ∈ words text, IsAtom word) :
    Uncut text ∧ '!' ∉ text := by
  have blankOrAtom : ∀ c ∈ text, isBlank c = true ∨ ∃ word, IsAtom word ∧ c ∈ word := by
    intro c member
    cases blank : isBlank c with
    | true => exact Or.inl rfl
    | false =>
        obtain ⟨word, isWord, inside⟩ := exists_word_of_mem member blank
        exact Or.inr ⟨word, atoms word isWord, inside⟩
  constructor
  · intro c member
    rcases blankOrAtom c member with blank | ⟨word, atom, inside⟩
    · exact uncut_of_isBlank blank
    · exact atom.uncut c inside
  · intro member
    rcases blankOrAtom '!' member with blank | ⟨word, atom, inside⟩
    · exact absurd blank (by decide)
    · exact atom.not_mem (by decide) (by decide) inside

theorem dropMetadata_append {text : List Char} (bare : dropMetadata text = text) {rest : List Char}
    (separate : rest = [] ∨ ∃ more, rest = ',' :: more) :
    dropMetadata (text ++ rest) = text ++ dropMetadata rest := by
  induction text with
  | nil => rfl
  | cons c more ih =>
      unfold dropMetadata at bare
      split at bare
      · cases bare
      · next none =>
          have later : dropMetadata more = more := (List.cons.inj bare).2
          have none' : ¬(c = ',' ∧ (trimLeft (more ++ rest)).head? = some '!') := by
            rintro ⟨comma, mark⟩
            rcases separate with rfl | ⟨others, rfl⟩
            · rw [List.append_nil] at mark
              exact none ⟨comma, mark⟩
            · rw [trimLeft_append_solid (by decide)] at mark
              cases front : trimLeft more with
              | nil => simp [front] at mark
              | cons d others => 
                  rw [front] at mark
                  exact none ⟨comma, front ▸ mark⟩
          rw [List.cons_append, dropMetadata, if_neg none', ih later, List.cons_append]

theorem dropMetadata_separate {rest : List Char}
    (separate : rest = [] ∨ ∃ more, rest = ',' :: more) :
    dropMetadata rest = [] ∨ ∃ more, dropMetadata rest = ',' :: more := by
  rcases separate with rfl | ⟨more, rfl⟩
  · exact Or.inl rfl
  · unfold dropMetadata
    split
    · exact Or.inl rfl
    · exact Or.inr ⟨_, rfl⟩

end Cutting

namespace Access

variable {line : List Char} (access : Access line)

theorem isAtom_of_mem_words : ∀ word ∈ words access.pointed, IsAtom word := by
  intro word member
  rw [access.words_pointed] at member
  rcases List.mem_cons.mp member with rfl | member
  · have keyword : IsName "ptr".toList := by decide
    exact keyword.atom
  · rcases List.mem_cons.mp member with rfl | member
    · exact access.pointer.atom
    · obtain ⟨ordering, -, rfl⟩ := Option.map_eq_some_iff.mp (Option.mem_toList.mp member)
      exact ordering.isName.atom

theorem trim_pointed_ne_nil : trim access.pointed ≠ [] := by
  intro empty
  have none : words (trim access.pointed) = [] := by rw [empty, words]
  rw [words_trim, access.words_pointed] at none
  cases none

/-- The pieces of what follows the opcode: what is loaded or stored, and the pointer. -/
theorem pieces_eq : ∃ more,
    pieces (dropMetadata (access.typed ++ ',' :: (access.pointed ++ access.rest))) =
      trim access.typed :: trim access.pointed :: more := by
  obtain ⟨uncut, noMark⟩ := uncut_of_words access.isAtom_of_mem_words
  have front : dropMetadata (access.typed ++ ',' :: access.pointed) =
      access.typed ++ ',' :: access.pointed := by
    rw [dropMetadata_append access.bare (Or.inr ⟨_, rfl⟩),
      dropMetadata_eq_self (by simpa using noMark)]
  have whole : dropMetadata (access.typed ++ ',' :: (access.pointed ++ access.rest)) =
      access.typed ++ ',' :: (access.pointed ++ dropMetadata access.rest) := by
    simpa using dropMetadata_append front access.separate
  have cut : ∃ more, cutAtCommas 0 (access.pointed ++ dropMetadata access.rest) =
      access.pointed :: more := by
    have closed : Sealed access.pointed := uncut.passes 0
    rcases dropMetadata_separate access.separate with none | ⟨others, after⟩
    · exact ⟨[], by rw [none, List.append_nil, closed.cutAtCommas_eq]⟩
    · exact ⟨_, by rw [after, closed.cutAtCommas_comma]⟩
  obtain ⟨more, cut⟩ := cut
  rw [pieces, whole, access.closed.cutAtCommas_comma, cut, List.map_cons, List.map_cons]
  cases more.map trim with
  | nil => exact ⟨[], by simp [dropEmptyLast, access.trim_pointed_ne_nil]⟩
  | cons next others => exact ⟨_, rfl⟩

def pointerText : List Char := (access.ordering.map (·.spelling)).getD access.pointer.text

theorem operandText?_pointed : operandText? (trim access.pointed) = some access.pointerText := by
  have noParenthesis : '(' ∉ access.pointed := by
    intro member
    have opening := ((uncut_of_words access.isAtom_of_mem_words).1 '(' member).2.1
    exact absurd opening (by decide)
  have notExpression : isExpression (trim access.pointed) = false := by
    have none : (trim (trim access.pointed)).contains '(' = false := by
      rw [List.contains_eq_mem, decide_eq_false_iff_not, ← List.count_eq_zero,
        count_trim (by decide), count_trim (by decide)]
      exact List.count_eq_zero.mpr noParenthesis
    rw [isExpression, none, Bool.false_and]
  have notVolatile : some "ptr".toList ≠ some "volatile".toList := by decide
  unfold operandText?
  simp only [words_trim, access.words_pointed, List.head?_cons, notVolatile, if_false, divide,
    notExpression, Bool.false_eq_true]
  cases isOrdering : access.ordering <;> simp [pointerText, isOrdering]

theorem getLast?_lineOperands : (lineOperands line).getLast? = some access.pointerText := by
  obtain ⟨more, cut⟩ := access.pieces_eq
  unfold lineOperands
  simp only [access.isLine, String.ofList_toList, Opcode.ofMnemonic_mnemonic]
  rcases access.isAccess with load | store
  · simp only [operandTexts, load, cut, List.drop_succ_cons, List.drop_zero, List.take_succ_cons,
      List.take_zero, List.filterMap_cons, access.operandText?_pointed, List.filterMap_nil]
    rfl
  · simp only [operandTexts, store, cut, List.take_succ_cons, List.take_zero, List.filterMap_cons,
      access.operandText?_pointed, List.filterMap_nil]
    cases operandText? (trim access.typed) <;> rfl

end Access

def modifiers (isAtomic isVolatile : Bool) : List Char :=
  (if isAtomic then "atomic ".toList else []) ++ if isVolatile then "volatile ".toList else []

/-- What a load or a store is written with. The ordering makes it atomic; alignment and metadata
come last. -/
structure WrittenAccess where
  isVolatile : Bool
  type : ValueType
  pointer : MarkedName
  ordering : Option MemoryOrdering
  alignment : Option Nat
  metadata : Option (List Char)

namespace WrittenAccess

variable (written : WrittenAccess)

def front : List Char :=
  modifiers written.ordering.isSome written.isVolatile ++ written.type.spelling

def pointed : List Char :=
  ' ' :: ("ptr".toList ++ ' ' ::
    (written.pointer.text ++ written.ordering.elim [] fun ordering => ' ' :: ordering.spelling))

def rest : List Char :=
  (written.alignment.elim [] fun n => ", align ".toList ++ n.repr.toList) ++
    written.metadata.elim [] fun m => ", !".toList ++ m

def loadLine (result : List Char) : List Char :=
  '%' :: (result ++ ' ' :: '=' :: ' ' ::
    ("load".toList ++ ' ' :: (written.front ++ ',' :: (written.pointed ++ written.rest))))

def storeLine (value : List Char) : List Char :=
  "store".toList ++ ' ' :: ((written.front ++ ' ' :: value) ++ ',' ::
    (written.pointed ++ written.rest))

theorem closed_front : Sealed written.front := by
  have uncut : Uncut (modifiers written.ordering.isSome written.isVolatile) := by
    cases written.ordering.isSome <;> cases written.isVolatile <;> decide
  exact (uncut.passes 0).append written.type.closed

theorem closed_stored {value : List Char} (closed : Sealed value) :
    Sealed (written.front ++ ' ' :: value) := by
  have space : Sealed [' '] := by decide
  exact written.closed_front.append (space.append closed)

theorem noMark_front : '!' ∉ written.front := by
  have noMark : '!' ∉ modifiers written.ordering.isSome written.isVolatile := by
    cases written.ordering.isSome <;> cases written.isVolatile <;> decide
  intro member
  rcases List.mem_append.mp member with inModifiers | inType
  · exact noMark inModifiers
  · exact written.type.not_mem (by decide) inType

theorem solid_front (more : List Char) :
    ∀ c, (written.front ++ more).head? = some c → isBlank c = false := by
  have first : ∀ isAtomic isVolatile,
      (modifiers isAtomic isVolatile).head?.all (!isBlank ·) = true := by decide
  have nonempty : written.front ≠ [] := by simp [front, written.type.nonempty]
  intro c isFirst
  rw [List.head?_append_of_ne_nil _ nonempty, front] at isFirst
  by_cases none : modifiers written.ordering.isSome written.isVolatile = []
  · rw [none, List.nil_append] at isFirst
    exact written.type.trimmed.first c isFirst
  · rw [List.head?_append_of_ne_nil _ none] at isFirst
    have solid := first written.ordering.isSome written.isVolatile
    rw [isFirst] at solid
    simpa using solid

theorem words_pointed : words written.pointed =
    "ptr".toList :: written.pointer.text :: (written.ordering.map (·.spelling)).toList := by
  have keyword : IsName "ptr".toList := by decide
  have isPointer := written.pointer.atom.isWordText
  rw [pointed, words_of_blank (by decide), keyword.atom.isWordText.words_append]
  cases written.ordering with
  | none => simp [isPointer.words_eq]
  | some ordering => simp [isPointer.words_append, ordering.isName.atom.isWordText.words_eq]

theorem separate_rest : written.rest = [] ∨ ∃ more, written.rest = ',' :: more := by
  cases isAlignment : written.alignment with
  | some n => exact Or.inr ⟨_, by simp [rest, isAlignment]; rfl⟩
  | none =>
      cases isMetadata : written.metadata with
      | some m => exact Or.inr ⟨_, by simp [rest, isAlignment, isMetadata]; rfl⟩
      | none => exact Or.inl (by simp [rest, isAlignment, isMetadata])

def load {result : List Char} (isName : IsName result) : Access (written.loadLine result) where
  opcode := .load
  pointer := written.pointer
  ordering := written.ordering
  result := some result
  typed := written.front
  pointed := written.pointed
  rest := written.rest
  isAccess := Or.inl rfl
  isLine := read_bound (written.solid_front _) isName .load
  closed := written.closed_front
  bare := dropMetadata_eq_self written.noMark_front
  words_pointed := written.words_pointed
  separate := written.separate_rest

def store {value : List Char} (closed : Sealed value) (noMark : '!' ∉ value) :
    Access (written.storeLine value) where
  opcode := .store
  pointer := written.pointer
  ordering := written.ordering
  result := none
  typed := written.front ++ ' ' :: value
  pointed := written.pointed
  rest := written.rest
  isAccess := Or.inr rfl
  isLine := read_unbound (by rw [List.append_assoc]; exact written.solid_front _) .store
  closed := written.closed_stored closed
  bare := dropMetadata_eq_self (by simp [written.noMark_front, noMark])
  words_pointed := written.words_pointed
  separate := written.separate_rest

theorem exists_load {result line : List Char} (isName : IsName result)
    (isLine : line = written.loadLine result) :
    ∃ access : Access line, access.opcode = .load ∧ access.pointer = written.pointer ∧
      access.ordering = written.ordering := by
  subst isLine
  exact ⟨written.load isName, rfl, rfl, rfl⟩

theorem exists_store {value line : List Char} (closed : Sealed value) (noMark : '!' ∉ value)
    (isLine : line = written.storeLine value) :
    ∃ access : Access line, access.opcode = .store ∧ access.pointer = written.pointer ∧
      access.ordering = written.ordering := by
  subst isLine
  exact ⟨written.store closed noMark, rfl, rfl, rfl⟩

end WrittenAccess

end ValueNumbering.Assembly
