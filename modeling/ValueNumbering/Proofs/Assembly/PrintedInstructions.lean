import ValueNumbering.Proofs.Assembly.PrintedOperands

/-!
Instructions that are printed from their parts, and what their lines are read as: the same opcode
and name, with a token for each operand.
-/

namespace ValueNumbering.Assembly

open Text

theorem dropMetadata_eq_self {text : List Char}
    (noMark : '!' ∉ text) : dropMetadata text = text := by
  induction text with
  | nil => rfl
  | cons c rest ih =>
      have inRest : '!' ∉ rest := fun inside => noMark (List.mem_cons_of_mem _ inside)
      have notFirst : (trimLeft rest).head? ≠ some '!' := by
        intro first
        exact inRest ((List.dropWhile_suffix isBlank).subset (List.mem_of_mem_head? first))
      rw [dropMetadata, if_neg (fun both => notFirst both.2), ih inRest]

theorem not_mem_intercalate {c : Char} (other : c ≠ ',' ∧ c ≠ ' ') {items : List (List Char)}
    (outside : ∀ item ∈ items, c ∉ item) : c ∉ [',', ' '].intercalate items := by
  induction items with
  | nil => simp
  | cons item more ih =>
      have here := outside item (List.mem_cons_self ..)
      have rest := ih fun later member => outside later (List.mem_cons_of_mem _ member)
      cases more with
      | nil => simpa using here
      | cons next others =>
          rw [List.intercalate_cons_cons]
          simp only [List.mem_append, not_or, List.mem_cons, List.not_mem_nil, or_false]
          exact ⟨⟨here, other⟩, rest⟩

/-- An item of what follows an opcode: the items of such a list are found again. -/
structure IsPart (text : List Char) : Prop where
  item : IsItem text
  noMark : '!' ∉ text
  plain : Plain text

theorem pieces_parts {parts : List (List Char)} (areParts : ∀ part ∈ parts, IsPart part) :
    pieces (dropMetadata ([',', ' '].intercalate parts)) = parts := by
  rw [dropMetadata_eq_self (not_mem_intercalate (by decide) fun part member =>
    (areParts part member).noMark),
    pieces_intercalate fun part member => (areParts part member).item]

theorem IsAtom.isPart {text : List Char} (atom : IsAtom text) : IsPart text :=
  ⟨atom.isItem, atom.not_mem (by decide) (by decide), atom.plain⟩

theorem isPart_pair {type written : List Char} (isType : IsAtom type) (isWritten : IsAtom written) :
    IsPart (type ++ ' ' :: written) := by
  refine ⟨isItem_pair isType isWritten, ?_, plain_pair isType isWritten⟩
  have inType := isType.not_mem (d := '!') (by decide) (by decide)
  have inWritten := isWritten.not_mem (d := '!') (by decide) (by decide)
  simp [inType, inWritten]

theorem PrintableUse.isPart {o : Operand} (printable : PrintableUse o) :
    IsPart (Instruction.typedUse o).toList := by
  rw [toList_typedUse]
  exact isPart_pair printable.type.atom printable.form.atom

def alignPart : List Char := "align 4".toList

theorem isPart_alignPart : IsPart alignPart := by
  have word : IsName "align".toList := .of_all (by simp) (by decide)
  have number : IsName ['4'] := .of_all (by simp) (by decide)
  exact isPart_pair word.atom number.atom

theorem toList_alignText {inst : Instruction} (aligned : inst.align = some 4) :
    inst.alignText.toList = ',' :: ' ' :: alignPart := by
  rw [Instruction.alignText, aligned]
  rfl

theorem readAlign_alignPart : readAlign [alignPart] = .ok (some 4) := by
  decide +kernel

theorem read_store {v p : Operand} (value : PrintableUse v) (pointer : PrintableUse p) :
    ∃ t t', Spells v.value.form t ∧ Spells p.value.form t' ∧ ∀ line,
      Statement.read line .store
          ([',', ' '].intercalate [(Instruction.typedUse v).toList, (Instruction.typedUse p).toList,
            alignPart]) =
        .ok (.store ⟨v.type, t⟩ ⟨p.type, t'⟩ (some 4)) := by
  obtain ⟨t, spells, read⟩ := value.read
  obtain ⟨t', spells', read'⟩ := pointer.read
  refine ⟨t, t', spells, spells', fun line => ?_⟩
  have cut :=
    pieces_parts (List.forall_mem_cons.mpr ⟨value.isPart, List.forall_mem_cons.mpr ⟨pointer.isPart,
    List.forall_mem_singleton.mpr isPart_alignPart⟩⟩)
  simp only [Statement.read, readStore, cut]
  exact bind_eq_ok.mpr ⟨_, read line,
    bind_eq_ok.mpr ⟨_, read' line, bind_eq_ok.mpr ⟨_, readAlign_alignPart, rfl⟩⟩⟩

theorem loadedType_eq {type : List Char} (isType : IsTypeWord type) : loadedType type = type := by
  unfold loadedType
  rw [isType.notVolatile]
  exact isType.atom.isWordText.trimmed.trim_eq

theorem read_load {type : String} (isType : IsTypeWord type.toList) {p : Operand}
    (pointer : PrintableUse p) :
    ∃ t, Spells p.value.form t ∧ ∀ line,
      Statement.read line .load ([',', ' '].intercalate
        [type.toList, (Instruction.typedUse p).toList, alignPart]) =
        .ok (.load type ⟨p.type, t⟩ (some 4)) := by
  obtain ⟨t, spells, read⟩ := pointer.read
  refine ⟨t, spells, fun line => ?_⟩
  have cut :=
    pieces_parts (List.forall_mem_cons.mpr
      ⟨isType.atom.isPart, List.forall_mem_cons.mpr ⟨pointer.isPart,
    List.forall_mem_singleton.mpr isPart_alignPart⟩⟩)
  simp only [Statement.read, readLoad, cut, loadedType_eq isType, String.ofList_toList]
  exact bind_eq_ok.mpr ⟨_, read line, bind_eq_ok.mpr ⟨_, readAlign_alignPart, rfl⟩⟩

theorem read_alloca {type : String} (isType : IsTypeWord type.toList) (line : Nat) :
    Statement.read line .alloca ([',', ' '].intercalate [type.toList, alignPart]) =
      .ok (.alloca (some type) (some 4)) := by
  have cut :=
    pieces_parts (List.forall_mem_cons.mpr
      ⟨isType.atom.isPart, List.forall_mem_singleton.mpr isPart_alignPart⟩)
  simp only [Statement.read, readAlloca, cut, List.tail_cons, List.head?_cons, Option.map_some,
    String.ofList_toList]
  exact bind_eq_ok.mpr ⟨_, readAlign_alignPart, rfl⟩

theorem statement_read_binary {opcode : Opcode} (isBinary : opcode.isBinary = true) (line : Nat)
    (text : List Char) :
    Statement.read line opcode text = readBinary line opcode (dropMetadata text) := by
  cases opcode with
  | load | store | alloca | ret | br | icmp | call | getelementptr | phi | select | other =>
    cases isBinary
  | _ => rfl

theorem read_binary {opcode : Opcode} (isBinary : opcode.isBinary = true) {type : String}
    (isType : IsTypeWord type.toList) {form form' : Form} (lhs : Spellable form)
    (rhs : Spellable form') :
    ∃ t t', Spells form t ∧ Spells form' t' ∧ ∀ line,
      Statement.read line opcode
          ([',', ' '].intercalate [type.toList ++ ' ' :: form.spelling.toList,
            form'.spelling.toList]) =
        .ok (.binary [] type t t') := by
  obtain ⟨t, read, spells⟩ := lhs.read type
  obtain ⟨t', read', spells'⟩ := rhs.read type
  refine ⟨t, t', spells, spells', fun line => ?_⟩
  have cut := pieces_parts (List.forall_mem_cons.mpr ⟨isPart_pair isType.atom lhs.atom,
    List.forall_mem_singleton.mpr rhs.atom.isPart⟩)
  have span : ([] ++ [type.toList, form.spelling.toList]).span isBinaryFlag =
      ([], [type.toList, form.spelling.toList]) :=
    span_append (by simp) (by simp [isType.notFlag])
  rw [List.nil_append] at span
  rw [statement_read_binary isBinary]
  simp only [readBinary, cut, words_pair isType.atom lhs.atom, span,
    divide_pair isType.atom lhs.atom, String.ofList_toList]
  exact bind_eq_ok.mpr ⟨_, read, bind_eq_ok.mpr ⟨_, read', rfl⟩⟩

section Mnemonics

theorem trimLeft_space {text : List Char} (solid : ∀ c, text.head? = some c → isBlank c = false) :
    trimLeft (' ' :: text) = text := by
  rw [trimLeft_of_blank (by decide), trimLeft_eq_self solid]

theorem mnemonic_letters (opcode : Opcode) : ∃ c more, opcode.mnemonic.toList = c :: more ∧
    (('a' ≤ c && c ≤ 'z') || decide (c = '_')) = true ∧
      ∀ d ∈ opcode.mnemonic.toList, isWord d = true := by
  simp only [← List.all_eq_true]
  cases opcode <;> exact ⟨_, _, rfl, by decide, by decide⟩

theorem isName_mnemonic (opcode : Opcode) : IsName opcode.mnemonic.toList := by
  obtain ⟨c, more, whole, -, letters⟩ := mnemonic_letters opcode
  exact ⟨by simp [whole], fun d member => by simp [isNameChar, letters d member]⟩

theorem mnemonic?_append (opcode : Opcode) (rest : List Char) :
    mnemonic? (opcode.mnemonic.toList ++ ' ' :: rest) =
      some (opcode.mnemonic.toList, ' ' :: rest) := by
  obtain ⟨c, more, whole, first, letters⟩ := mnemonic_letters opcode
  have cut : (opcode.mnemonic.toList ++ ' ' :: rest).span isWord =
      (opcode.mnemonic.toList, ' ' :: rest) :=
    span_append letters (by simp; decide)
  rw [whole, List.cons_append] at cut ⊢
  unfold mnemonic?
  simp only [first, if_true, cut]

theorem not_startsWith_define (opcode : Opcode) (rest : List Char) :
    startsWith "define" (opcode.mnemonic.toList ++ ' ' :: rest) = false := by
  cases opcode <;> rfl

variable {rest : List Char} (solid : ∀ c, rest.head? = some c → isBlank c = false)

include solid

theorem read_unbound (opcode : Opcode) :
    BodyLine.read (opcode.mnemonic.toList ++ ' ' :: rest) =
      .ok (.instruction none opcode.mnemonic.toList rest) := by
  obtain ⟨c, more, whole, first, letters⟩ := mnemonic_letters opcode
  have isCut : name? (opcode.mnemonic.toList ++ ' ' :: rest) =
      some (opcode.mnemonic.toList, ' ' :: rest) :=
    (isName_mnemonic opcode).name?_append (by simp; decide)
  have notClosing : opcode.mnemonic.toList ++ ' ' :: rest ≠ ['}'] := by
    intro same
    have last := congrArg List.length same
    simp [whole] at last
  have notLabel : label? (opcode.mnemonic.toList ++ ' ' :: rest) = none := by
    unfold label?
    rw [isCut]
    simp
  have found : instruction? (opcode.mnemonic.toList ++ ' ' :: rest) =
      some (.instruction none opcode.mnemonic.toList rest) := by
    have isMnemonic := mnemonic?_append opcode rest
    unfold instruction?
    split
    · next others isMark =>
        rw [whole] at isMark
        obtain ⟨rfl, -⟩ := List.cons.inj isMark
        cases first
    · simp [isMnemonic, trimLeft_space solid]
  simp [BodyLine.read, notClosing, notLabel, found, not_startsWith_define]

theorem read_bound {name : List Char} (isName : IsName name) (opcode : Opcode) :
    BodyLine.read ('%' :: (name ++ ' ' :: '=' :: ' ' :: (opcode.mnemonic.toList ++ ' ' :: rest))) =
      .ok (.instruction (some name) opcode.mnemonic.toList rest) := by
  obtain ⟨c, more, whole, first, letters⟩ := mnemonic_letters opcode
  let tail := opcode.mnemonic.toList ++ ' ' :: rest
  have isCut : name? (name ++ ' ' :: '=' :: ' ' :: tail) = some (name, ' ' :: '=' :: ' ' :: tail) :=
    isName.name?_append (by simp; decide)
  have firstSolid : trimLeft (' ' :: tail) = tail := by
    refine trimLeft_space fun d isFirst => ?_
    obtain rfl : c = d := by simpa [tail, whole] using isFirst
    exact (isName_mnemonic opcode).solid c (by simp [whole])
  have isBound : bound? (name ++ ' ' :: '=' :: ' ' :: tail) = some (name, tail) := by
    have sign : trimLeft (' ' :: '=' :: ' ' :: tail) = '=' :: ' ' :: tail := by
      rw [trimLeft_of_blank (by decide), trimLeft_of_not_blank (by decide)]
    simp [bound?, isCut, sign, after?_cons, firstSolid]
  have found : instruction? ('%' :: (name ++ ' ' :: '=' :: ' ' :: tail)) =
      some (.instruction (some name) opcode.mnemonic.toList rest) := by
    simp [instruction?, isBound, tail, mnemonic?_append, trimLeft_space solid]
  have notLabel : label? ('%' :: (name ++ ' ' :: '=' :: ' ' :: tail)) = none := by
    have notName : isNameChar '%' = false := by decide
    have noName : name? ('%' :: (name ++ ' ' :: '=' :: ' ' :: tail)) = none := by
      simp [name?, List.span_eq_takeWhile_dropWhile, notName]
    simp [label?, noName]
  have plain : startsWith "define" ('%' :: (name ++ ' ' :: '=' :: ' ' :: tail)) = false := by
    simp [startsWith, List.isPrefixOf]
  simp [BodyLine.read, notLabel, found, plain, tail]

end Mnemonics

section Lines

variable {opcode : Opcode} {parts : List (List Char)} {statement : Statement}

theorem plain_parts (areParts : ∀ part ∈ parts, IsPart part) :
    Plain ([',', ' '].intercalate parts) := by
  have between : Plain [',', ' '] := by decide
  exact between.intercalate fun part member => (areParts part member).plain

theorem intercalate_ne_nil (nonempty : parts ≠ []) (areParts : ∀ part ∈ parts, IsPart part) :
    [',', ' '].intercalate parts ≠ [] := by
  obtain ⟨part, more, rfl⟩ := List.exists_cons_of_ne_nil nonempty
  have here := (areParts part (List.mem_cons_self ..)).item.nonempty
  cases more with
  | nil => simpa using here
  | cons next others => simp [List.intercalate_cons_cons, here]

theorem bare_parts {front : List Char} (plain : Plain front) (nonempty : parts ≠ [])
    (areParts : ∀ part ∈ parts, IsPart part) (first : ∀ c, front.head? = some c → isBlank c = false)
    (begins : front ≠ []) :
    Bare (front ++ [',', ' '].intercalate parts) := by
  refine (plain.append (plain_parts areParts)).bare ⟨?_, ?_⟩
  · rw [List.head?_append_of_ne_nil _ begins]
    exact first
  · rw [List.getLast?_append_of_ne_nil _ (intercalate_ne_nil nonempty areParts)]
    exact (trimmed_intercalate fun part member => (areParts part member).item).last

theorem solid_parts (areParts : ∀ part ∈ parts, IsPart part) :
    ∀ c, ([',', ' '].intercalate parts).head? = some c → isBlank c = false :=
  (trimmed_intercalate fun part member => (areParts part member).item).first

def lineText (result : Option String) (opcode : Opcode) (parts : List (List Char)) : List Char :=
  match result with
  | some name =>
    '%' :: (name.toList ++ ' ' :: '=' :: ' ' ::
      (opcode.mnemonic.toList ++ ' ' :: [',', ' '].intercalate parts))
  | none => opcode.mnemonic.toList ++ ' ' :: [',', ' '].intercalate parts

variable {result : Option String}

theorem read_lineText (isName : ∀ name ∈ result, IsName name.toList) (opcode : Opcode)
    (areParts : ∀ part ∈ parts, IsPart part) :
    BodyLine.read (lineText result opcode parts) =
      .ok (.instruction (result.map (·.toList)) opcode.mnemonic.toList
        ([',', ' '].intercalate parts)) := by
  have solid := solid_parts areParts
  cases result with
  | none => exact read_unbound solid opcode
  | some name => exact read_bound solid (isName name rfl) opcode

theorem bare_lineText (isName : ∀ name ∈ result, IsName name.toList) (opcode : Opcode)
    (nonempty : parts ≠ []) (areParts : ∀ part ∈ parts, IsPart part) :
    Bare (lineText result opcode parts) := by
  have mnemonic := isName_mnemonic opcode
  have space : Plain [' '] := by decide
  cases result with
  | none =>
      have bare := bare_parts (mnemonic.plain.append space) nonempty areParts (by
        rw [List.head?_append_of_ne_nil _ mnemonic.nonempty]
        exact mnemonic.solid.trimmed.first) (by simp)
      simpa [lineText] using bare
  | some name =>
      have sign : Plain [' ', '=', ' '] := by decide
      have front := ((isName name rfl).marked (Or.inl rfl)).plain.append
        (sign.append (mnemonic.plain.append space))
      have bare := bare_parts front nonempty areParts (by simp; decide) (by simp)
      simpa [lineText] using bare

theorem exists_line (isName : ∀ name ∈ result, IsName name.toList) (nonempty : parts ≠ [])
    (areParts : ∀ part ∈ parts, IsPart part)
    (stated : ∀ line, Statement.read line opcode ([',', ' '].intercalate parts) = .ok statement) :
    ∃ entry : LegibleLine, entry.text = lineText result opcode parts ∧ entry.result = result ∧
      entry.tokens = statement.tokens.map (·.token) := by
  have read := read_lineText isName opcode areParts
  have isOpcode : Opcode.ofMnemonic (String.ofList opcode.mnemonic.toList) = opcode := by
    rw [String.ofList_toList, Opcode.ofMnemonic_mnemonic]
  have isResult : (result.map (·.toList)).map String.ofList = result := by cases result <;> simp
  exact ⟨⟨lineText result opcode parts, result, statement.tokens.map (·.token),
    bare_lineText isName opcode nonempty areParts,
    _, _, _, statement, read, isResult, rfl, fun line =>
      by rw [isOpcode, stated line]⟩, rfl, rfl, rfl⟩

end Lines

/-- The operands that are read from the line of an instruction. That of a return is not looked
into. -/
def shownOperands (inst : Instruction) : List Operand :=
  if inst.opcode = .ret then [] else inst.operands

theorem mem_operands_of_shown {inst : Instruction} {o : Operand} (shown : o ∈ shownOperands inst) :
    o ∈ inst.operands := by
  unfold shownOperands at shown
  split at shown
  · cases shown
  · exact shown

/-- The line that an instruction is printed on, with what it is read as. -/
structure Prints (inst : Instruction) (entry : LegibleLine) : Prop where
  written : inst.written = .ok (String.ofList entry.text)
  result : entry.result = inst.name
  opcode : ∃ chars mnemonic rest,
    BodyLine.read entry.text = .ok (.instruction chars mnemonic rest) ∧
    Opcode.ofMnemonic (String.ofList mnemonic) = inst.opcode
  tokens : List.Forall₂ (fun o t => Spells o.value.form t) (shownOperands inst) entry.tokens

/-- An instruction prints the line of its parts. -/
theorem exists_prints {inst : Instruction} {parts : List (List Char)} {statement : Statement}
    {text : String} (isName : ∀ name ∈ inst.name, IsName name.toList) (nonempty : parts ≠ [])
    (areParts : ∀ part ∈ parts, IsPart part) (written : inst.written = .ok text)
    (chars : text.toList = lineText inst.name inst.opcode parts)
    (stated : ∀ line, Statement.read line inst.opcode ([',', ' '].intercalate parts) =
      .ok statement)
    (tokens : List.Forall₂ (fun o (t : TypedToken) => Spells o.value.form t.token)
      (shownOperands inst) statement.tokens) :
    ∃ entry, Prints inst entry := by
  obtain ⟨entry, isText, isResult, areTokens⟩ := exists_line isName nonempty areParts stated
  refine ⟨entry, ?_, isResult, ?_, ?_⟩
  · rw [written, isText, ← chars, String.ofList_toList]
  · refine ⟨_, _, _, isText ▸ read_lineText isName inst.opcode areParts, ?_⟩
    rw [String.ofList_toList, Opcode.ofMnemonic_mnemonic]
  · rw [areTokens]
    exact List.forall₂_map_right_iff.mpr tokens

section Forms

variable {id : Nat}

theorem prints_store {v p : Operand} (value : PrintableUse v) (pointer : PrintableUse p) :
    ∃ entry, Prints { id := id, opcode := .store, operands := [v, p], align := some 4 } entry := by
  obtain ⟨t, t', spells, spells', stated⟩ := read_store value pointer
  have areParts := List.forall_mem_cons.mpr ⟨value.isPart, List.forall_mem_cons.mpr ⟨pointer.isPart,
    List.forall_mem_singleton.mpr isPart_alignPart⟩⟩
  refine exists_prints (by simp) (by simp) areParts rfl ?_ stated
    (.cons spells (.cons spells' .nil))
  simp [lineText, toList_alignText, Opcode.mnemonic, List.intercalate_cons_cons, toString]

theorem prints_load {p : Operand} {name type : String} (isName : IsName name.toList)
    (isType : IsTypeWord type.toList) (pointer : PrintableUse p) :
    ∃ entry, Prints { id := id, opcode := .load, operands := [p], type := type, name := some name,
                      align := some 4 } entry := by
  obtain ⟨t, spells, stated⟩ := read_load isType pointer
  have areParts := List.forall_mem_cons.mpr
    ⟨isType.atom.isPart, List.forall_mem_cons.mpr ⟨pointer.isPart,
    List.forall_mem_singleton.mpr isPart_alignPart⟩⟩
  refine exists_prints (by simpa using isName) (by simp) areParts rfl ?_ stated (.cons spells .nil)
  simp [lineText, toList_alignText, Instruction.binding, Opcode.mnemonic,
    List.intercalate_cons_cons, toString]

theorem elementType_eq {inst : Instruction} {type : String} (given : inst.allocatedType = some type)
    (atom : IsAtom type.toList) :
    inst.elementType = type := by
  unfold Instruction.elementType
  split
  · next absent => cases absent.symm.trans given
  · next empty =>
      obtain rfl := Option.some.inj (empty.symm.trans given)
      exact absurd rfl atom.nonempty
  · next same => exact Option.some.inj (same.symm.trans given)

theorem prints_alloca {name type : String} (isName : IsName name.toList)
    (isType : IsTypeWord type.toList) : ∃ entry,
    Prints { id := id, opcode := .alloca, type := "ptr", name := some name, align := some 4,
             allocatedType := some type }
      entry := by
  have areParts := List.forall_mem_cons.mpr
    ⟨isType.atom.isPart, List.forall_mem_singleton.mpr isPart_alignPart⟩
  refine exists_prints (by simpa using isName) (by simp) areParts rfl ?_ (read_alloca isType) .nil
  simp [lineText, toList_alignText, Instruction.binding, Opcode.mnemonic,
    List.intercalate_cons_cons, toString]
  exact congrArg String.toList (elementType_eq rfl isType.atom)

theorem written_binary {opcode : Opcode} (isBinary : opcode.isBinary = true) (lhs rhs : Operand)
    (name type : String) :
    Instruction.written { id := id, opcode := opcode, operands := [lhs, rhs], type := type,
                          name := some name } =
      .ok (s!"%{name} = " ++
        s!"{opcode.mnemonic} {type} {lhs.value.form.spelling}, {rhs.value.form.spelling}") := by
  cases opcode with
  | load | store | alloca | ret | br | icmp | call | getelementptr | phi | select | other =>
    cases isBinary
  | _ =>
      simp [Instruction.written, Instruction.built, Opcode.isBinary, Instruction.twoOperands,
        Instruction.binding, bind, Except.bind, pure, Except.pure]
      rfl

theorem prints_binary {opcode : Opcode} (isBinary : opcode.isBinary = true) {lhs rhs : Operand}
    {name type : String} (isName : IsName name.toList) (isType : IsTypeWord type.toList)
    (left : Spellable lhs.value.form) (right : Spellable rhs.value.form) : ∃ entry,
      Prints { id := id, opcode := opcode, operands := [lhs, rhs], type := type, name := some name }
        entry := by
  obtain ⟨t, t', spells, spells', stated⟩ := read_binary isBinary isType left right
  have areParts := List.forall_mem_cons.mpr
    ⟨isPart_pair isType.atom left.atom, List.forall_mem_singleton.mpr right.atom.isPart⟩
  have notReturn : opcode ≠ .ret := by
    rintro rfl
    cases isBinary
  refine exists_prints (by simpa using isName) (by simp) areParts
    (written_binary isBinary ..) ?_ stated ?_
  · simp [lineText, List.intercalate_cons_cons, toString]
  · simp only [shownOperands, notReturn, if_false]
    exact .cons spells (.cons spells' .nil)

theorem prints_ret {value : Option Operand} (printable : ∀ o ∈ value, PrintableUse o) :
    ∃ entry, Prints { id := id, opcode := .ret, operands := value.toList } entry := by
  cases value with
  | none =>
      have word : IsName "void".toList := .of_all (by simp) (by decide)
      refine exists_prints (by simp) (by simp) (List.forall_mem_singleton.mpr word.atom.isPart)
        rfl ?_ (fun _ => rfl) .nil
      simp [lineText, Opcode.mnemonic]
  | some o =>
      have areParts := List.forall_mem_singleton.mpr (printable o rfl).isPart
      refine exists_prints (by simp) (by simp) areParts rfl ?_ (fun _ => rfl) .nil
      simp [lineText, Opcode.mnemonic, toString]

end Forms

end ValueNumbering.Assembly
