import ValueNumbering.Proofs.Assembly.FunctionAlone
import ValueNumbering.Proofs.Dictionaries

/-!
Names that a function uses and does not define. While a function is read, the names that wait for
their definition stand in the order of their first uses, so the closing brace is refused for the
earliest use of an undefined name, whatever was defined in between.
-/

namespace ValueNumbering.Assembly

open Text

def usedName? : List Char → Option String
  | '%' :: name => some (String.ofList name)
  | _ => none

def lineUses (line : Nat) (text : List Char) : List (String × Nat) :=
  ((lineOperands text).filterMap usedName?).map fun name => (name, line)

def uses (lines : List (Nat × List Char)) : List (String × Nat) :=
  lines.flatMap fun entry => lineUses entry.1 entry.2

def resultName? (text : List Char) : Option String :=
  match BodyLine.read text with
  | .ok (.instruction result _ _) => result.map String.ofList
  | _ => none

def resultNames (lines : List (Nat × List Char)) : List String :=
  lines.filterMap fun entry => resultName? entry.2

/-- The uses of names that neither an argument nor a result of the function has. -/
def undefinedUses (arguments : List Argument) (lines : List (Nat × List Char)) :
    List (String × Nat) :=
  (uses lines).filter fun use => use.1 ∉ arguments.map (·.name) ++ resultNames lines

theorem uses_concat (lines : List (Nat × List Char)) (line : Nat) (text : List Char) :
    uses (lines ++ [(line, text)]) = uses lines ++ lineUses line text := by
  simp [uses]

theorem resultNames_concat (lines : List (Nat × List Char)) (line : Nat) (text : List Char) :
    resultNames (lines ++ [(line, text)]) = resultNames lines ++ (resultName? text).toList := by
  cases name : resultName? text <;> simp [resultNames, name]

section FirstUses

def firstUses : List (String × Nat) → List (String × Nat)
  | [] => []
  | use :: rest => use :: (firstUses rest).filter fun other => other.1 ≠ use.1

theorem head?_firstUses (all : List (String × Nat)) : (firstUses all).head? = all.head? := by
  cases all <;> rfl

theorem mem_map_firstUses (all : List (String × Nat)) (name : String) :
    name ∈ (firstUses all).map (·.1) ↔ name ∈ all.map (·.1) := by
  induction all with
  | nil => rfl
  | cons use rest ih =>
      by_cases same : name = use.1
      · simp [firstUses, same]
      · simp only [List.mem_map] at ih
        simp [firstUses, same, ← ih]

/-- Whether a use is looked at first and counted then, or the other way round, is the same where
only the name decides. -/
theorem firstUses_filter (keep : String → Bool) (all : List (String × Nat)) :
    firstUses (all.filter fun use => keep use.1) = (firstUses all).filter fun use =>
      keep use.1 := by
  induction all with
  | nil => rfl
  | cons use rest ih =>
      cases kept : keep use.1 with
      | true => simp [firstUses, kept, ih, List.filter_filter, Bool.and_comm]
      | false =>
          rw [List.filter_cons_of_neg (by simp [kept]), ih, firstUses,
            List.filter_cons_of_neg (by simp [kept]), List.filter_filter]
          apply List.filter_congr
          intro other _
          by_cases same : other.1 = use.1 <;> simp [same, kept]

theorem firstUses_concat (all : List (String × Nat)) (use : String × Nat) :
    firstUses (all ++ [use]) = if use.1 ∈ all.map (·.1) then firstUses all
      else firstUses all ++ [use] := by
  induction all with
  | nil => rfl
  | cons first rest ih =>
      rw [List.cons_append, firstUses, ih, firstUses]
      by_cases same : use.1 = first.1
      · split <;> simp [same]
      · by_cases later : use.1 ∈ rest.map (·.1)
        · simp [later]
        · simp only [later, same, if_false, List.map_cons, List.mem_cons, or_self]
          simp [same]

end FirstUses

/-- The names that wait for a definition are those used and not defined so far, in the order of
their first uses. -/
structure Waiting (defined : List String) (used : List (String × Nat)) (names : Names) : Prop where
  accounted : Accounted names defined
  entries : names.pending.entries = (firstUses used).filter fun use => use.1 ∉ defined

def Token.name? : Token → Option String
  | .named name => some name
  | _ => none

theorem usedName?_of_head {text : List Char} (notNamed : text.head? ≠ some '%') :
    usedName? text = none := by
  unfold usedName?
  split
  · exact absurd rfl notNamed
  · rfl

theorem usedName?_eq {text : List Char} {operand : TypedToken} (reads : ReadsAs text operand) :
    usedName? text = operand.token.name? := by
  obtain ⟨type, token⟩ := operand
  have reads : Token.read text type = .ok token := reads
  cases readsTo_of_read reads with
  | named name => rfl
  | global name => rfl
  | integer digits number =>
      apply usedName?_of_head
      intro first
      obtain ⟨rest, rfl⟩ := List.head?_eq_some_iff.mp first
      have percent : isDecimal '%' = false := by decide
      simp [isIntegerText, percent] at digits
  | isTrue => rfl
  | isFalse => rfl
  | expression expression => exact usedName?_of_head expression.notNamed
  | constant notNamed => exact usedName?_of_head notNamed

theorem filterMap_usedName? {texts : List (List Char)} {tokens : List TypedToken}
    (reads : List.Forall₂ ReadsAs texts tokens) :
    texts.filterMap usedName? = tokens.filterMap fun operand => operand.token.name? := by
  induction reads with
  | nil => rfl
  | cons here _ ih => simp only [List.filterMap_cons, usedName?_eq here, ih]

def tokenUses (line : Nat) (tokens : List TypedToken) : List (String × Nat) :=
  (tokens.filterMap fun operand => operand.token.name?).map fun name => (name, line)

theorem lineUses_of_statement {line : Nat} {text mnemonic rest : List Char}
    {result : Option (List Char)} {statement : Statement}
    (form : BodyLine.read text = .ok (.instruction result mnemonic rest))
    (stated : Statement.read line (Opcode.ofMnemonic (String.ofList mnemonic)) rest =
      .ok statement) :
    lineUses line text = tokenUses line statement.tokens := by
  have operands : lineOperands text =
      operandTexts (Opcode.ofMnemonic (String.ofList mnemonic)) rest := by
    simp [lineOperands, form]
  rw [lineUses, tokenUses, operands, filterMap_usedName? (statement_operands stated).1]

namespace Waiting

variable {defined : List String} {used : List (String × Nat)} {names after : Names} {line : Nat}

theorem contains_pending_iff (waiting : Waiting defined used names) (name : String) :
    names.pending.contains name = true ↔ name ∈ used.map (·.1) ∧ name ∉ defined := by
  have keys : names.pending.keys = ((firstUses used).map (·.1)).filter (· ∉ defined) := by
    rw [Dictionary.keys, waiting.entries, List.filter_map]
    rfl
  rw [Dictionary.contains_iff_mem_keys, keys, List.mem_filter, mem_map_firstUses]
  simp

theorem absent (waiting : Waiting defined used names) {name : String}
    (unknown : names.values.find? name = none) :
    name ∉ defined ∧ name ∉ used.map (·.1) := by
  have undefined := waiting.accounted.not_mem_of_absent unknown
  have settled := waiting.accounted.not_waiting_of_absent unknown
  refine ⟨undefined, fun isUsed => ?_⟩
  have waits := (waiting.contains_pending_iff name).mpr ⟨isUsed, undefined⟩
  simp [settled] at waits

theorem lookup (waiting : Waiting defined used names) (line : Nat) (name : String) :
    Waiting defined (used ++ [(name, line)]) (names.lookup line name).2 := by
  refine ⟨waiting.accounted.lookup line name, ?_⟩
  rw [firstUses_concat]
  unfold Names.lookup
  cases known : names.values.find? name with
  | some v =>
      simp only
      rw [waiting.entries]
      split
      · rfl
      · next new =>
          -- A name with a value that was not used before has been defined.
          have isDefined : name ∈ defined := by
            rcases waiting.accounted.covered known with member | waits
            · exact member
            · exact absurd ((waiting.contains_pending_iff name).mp waits).1 new
          simp [List.filter_append, isDefined]
  | none =>
      obtain ⟨undefined, new⟩ := waiting.absent known
      have notPending : name ∉ names.pending.keys := by
        rw [← Dictionary.contains_iff_mem_keys, waiting.contains_pending_iff]
        exact fun both => new both.1
      simp only [Names.fresh]
      rw [Dictionary.entries_insert_of_not_mem _ notPending, waiting.entries, if_neg new]
      simp [List.filter_append, undefined]

theorem bind (waiting : Waiting defined used names) (line : Nat) (operand : TypedToken) :
    Waiting defined (used ++ tokenUses line [operand]) (names.bind line operand.token).2 := by
  obtain ⟨type, token⟩ := operand
  have kept : token.name? = none → (names.bind line token).2.pending = names.pending →
      Waiting defined (used ++ tokenUses line [⟨type, token⟩]) (names.bind line token).2 := by
    intro unnamed same
    refine ⟨waiting.accounted.bind line token, ?_⟩
    simpa [tokenUses, unnamed, same] using waiting.entries
  cases token with
  | named name => exact waiting.lookup line name
  | global name => exact kept rfl (names.global_scope name).2
  | literal value type => exact kept rfl rfl
  | expression words type => exact kept rfl (names.expression_scope words type).2.1
  | constant text type => exact kept rfl rfl

theorem bindAll (waiting : Waiting defined used names) (line : Nat) (tokens : List TypedToken) :
    Waiting defined (used ++ tokenUses line tokens) (names.bindAll line tokens).2 := by
  induction tokens generalizing used names with
  | nil => simpa [tokenUses, Names.bindAll] using waiting
  | cons operand rest ih =>
      have split : tokenUses line (operand :: rest) =
          tokenUses line [operand] ++ tokenUses line rest := by
        rw [tokenUses, ← List.singleton_append, List.filterMap_append, List.map_append]
        rfl
      rw [split, ← List.append_assoc]
      exact ih (waiting.bind line operand)

theorem define (waiting : Waiting defined used names) {name : String} {v : Value}
    (isDefined : names.define name = .ok (v, after)) :
    Waiting (defined ++ [name]) used after := by
  have entries : ((firstUses used).filter fun use => use.1 ∉ defined ++ [name]) =
      names.pending.entries.filter fun entry => entry.1 ≠ name := by
    rw [waiting.entries, List.filter_filter]
    apply List.filter_congr
    intro use _
    by_cases here : use.1 = name <;> simp [here]
  rcases define_cases isDefined with ⟨known, waits, rfl⟩ | ⟨unknown, rfl, rfl⟩
  · exact ⟨waiting.accounted.settle waits, entries.symm⟩
  · refine ⟨waiting.accounted.insert unknown _ _, ?_⟩
    have settled := waiting.accounted.not_waiting_of_absent unknown
    rw [entries]
    symm
    apply List.filter_eq_self.mpr
    intro entry member
    have isKey : entry.1 ∈ names.pending.keys := List.mem_map_of_mem member
    apply decide_eq_true
    intro same
    rw [same, ← Dictionary.contains_iff_mem_keys, settled] at isKey
    cases isKey

theorem target (waiting : Waiting defined used names) {result : Option (List Char)} {v : Value}
    (targeted : Reader.target names line result = .ok (v, after)) :
    Waiting (defined ++ (result.map String.ofList).toList) used after := by
  cases result with
  | none =>
      cases targeted
      simpa using ⟨waiting.accounted.fresh (.result none), waiting.entries⟩
  | some name => exact waiting.define (ok_of_atLine targeted)

end Waiting

theorem resultName?_of_form {text mnemonic rest : List Char} {result : Option (List Char)}
    (form : BodyLine.read text = .ok (.instruction result mnemonic rest)) :
    resultName? text = result.map String.ofList := by
  simp [resultName?, form]

/-- A function with these arguments is open, of which these lines have been read. -/
structure Reading (arguments : List Argument) (lines : List (Nat × List Char)) (r : Reader) :
    Prop where
  opened : ∃ draft, r.draft = some draft ∧ draft.arguments = arguments
  waiting : Waiting (arguments.map (·.name) ++ resultNames lines) (uses lines) r.names

namespace Reading

variable {arguments : List Argument} {lines : List (Nat × List Char)} {r next : Reader} {line : Nat}
    {text : List Char}

theorem step (reading : Reading arguments lines r) (step : Reader.Step r line text next)
    (inner : text ≠ ['}']) :
    Reading arguments (lines ++ [(line, text)]) next := by
  obtain ⟨⟨draft, inside, hasArguments⟩, waiting⟩ := reading
  cases step with
  | skip outside | declare outside | global outside | begin outside =>
    cases outside.symm.trans inside
  | close _ form => exact absurd (close_of_read form) inner
  | label same form =>
      cases same.symm.trans inside
      have noUse : lineUses line text = [] := by simp [lineUses, lineOperands, form]
      have noResult : resultName? text = none := by simp [resultName?, form]
      refine ⟨⟨_, rfl, hasArguments⟩, ?_⟩
      simpa [uses_concat, resultNames_concat, noUse, noResult] using waiting
  | instruction same form ensured targeted stated filled =>
      cases same.symm.trans inside
      obtain ⟨-, -, arguments⟩ := Draft.ensureBlock_ok ensured
      refine ⟨⟨_, rfl, arguments.trans hasArguments⟩, ?_⟩
      rw [uses_concat, resultNames_concat, lineUses_of_statement form stated,
        resultName?_of_form form, ← List.append_assoc]
      exact (waiting.target targeted).bindAll line _

theorem readLines (reading : Reading arguments lines r) {more : List (Nat × List Char)}
    (inner : ∀ entry ∈ more, entry.2 ≠ ['}']) (read : r.readLines more = .ok next) :
    Reading arguments (lines ++ more) next := by
  induction more generalizing lines r with
  | nil =>
      cases read
      simpa using reading
  | cons entry rest ih =>
      obtain ⟨here, later⟩ := List.forall_mem_cons.mp inner
      obtain ⟨middle, one, others⟩ := bind_eq_ok.mp read
      have after := ih (reading.step (Reader.step_of_readLine one) here) later others
      simpa using after

/-- The first name that waits is that of the earliest use of an undefined name. -/
theorem head?_pending (reading : Reading arguments lines r) :
    r.names.pending.entries.head? = (undefinedUses arguments lines).head? := by
  have counted := firstUses_filter
    (fun name => decide (name ∉ arguments.map (·.name) ++ resultNames lines)) (uses lines)
  rw [reading.waiting.entries, ← counted, head?_firstUses]
  rfl

end Reading

theorem pending_addPieces {line : Nat} {pieces : List (List Char)}
    {signature signature' : Signature} {names after : Names}
    (added : addPieces line signature names pieces = .ok (signature', after)) :
    after.pending = names.pending := by
  induction pieces generalizing signature names with
  | nil =>
      cases added
      rfl
  | cons piece rest ih =>
      obtain ⟨parameter, -, more⟩ := bind_eq_ok.mp added
      obtain ⟨⟨middle, between⟩, one, last⟩ := bind_eq_ok.mp more
      rcases addParameter_ok one with ⟨-, rfl⟩ | ⟨earlier, name, type, -, argument⟩
      · exact ih last
      · obtain ⟨-, -, rfl⟩ := addArgument_ok argument
        have kept := ih last
        exact kept

theorem consistent_of_readLines {lines : List (Nat × List Char)} {r : Reader}
    (read : Reader.readLines {} lines = .ok r) :
    ∃ objects, Consistent objects r :=
  @Reader.invariant_of_readLines (fun _ r => ∃ objects, Consistent objects r)
    (fun _ _ _ _ _ held step => held.elim fun _ consistent => consistent.step step) [] _ _ _
      ⟨[], Consistent.start⟩ read

theorem Reading.begin {objects : List Object} {r next : Reader} {line : Nat} {text : List Char}
    (consistent : Consistent objects r) (outside : r.draft = none) (header : IsHeader text)
    (read : r.readLine line text = .ok next) :
    ∃ draft, next.draft = some draft ∧ Reading draft.arguments [] next := by
  obtain ⟨_, _, _, isHeader⟩ := header
  cases Reader.step_of_readLine read with
  | skip _ other | declare _ other | global _ other => cases isHeader.symm.trans other
  | close inside | label inside | instruction inside => cases inside.symm.trans outside
  | @begin returnType name params signature names _ _ parameters =>
      let draft : Draft :=
        { name := String.ofList name, returnType := String.ofList returnType,
          arguments := signature.arguments,
          line := line, slot := signature.slot }
      have arguments : draft.arguments = signature.arguments := rfl
      have noInstructions : draft.instructions = [] := rfl
      obtain ⟨_, opened⟩ := consistent.begin outside parameters arguments noInstructions
      have accounted := (opened.inside draft rfl).accounted
      rw [noInstructions] at accounted
      refine ⟨draft, rfl, ⟨draft, rfl, rfl⟩,
        by simpa [definedNames, resultNames] using accounted, ?_⟩
      rw [pending_addPieces parameters]
      rfl

/-- A function of a text to its closing brace, all of which is read without a fault as far as that
brace. -/
structure ReadToBrace (text : String) where
  before : List (Nat × List Char)
  header : Nat × List Char
  lines : List (Nat × List Char)
  closing : Nat
  after : List (Nat × List Char)
  start : Reader
  reached : Reader
  whole : contentLines text.toList = before ++ header :: (lines ++ (closing, ['}']) :: after)
  isHeader : IsHeader header.2
  inner : ∀ entry ∈ lines, entry.2 ≠ ['}']
  outside : start.draft = none
  readBefore : Reader.readLines {} before = .ok start
  readLines : start.readLines (header :: lines) = .ok reached

namespace ReadToBrace

variable {text : String}

theorem reading (place : ReadToBrace text) :
    ∃ draft, place.reached.draft = some draft ∧
      Reading draft.arguments place.lines place.reached := by
  obtain ⟨_, consistent⟩ := consistent_of_readLines place.readBefore
  obtain ⟨opened, first, others⟩ := bind_eq_ok.mp place.readLines
  obtain ⟨draft, _, begun⟩ := Reading.begin consistent place.outside place.isHeader first
  have reading := begun.readLines place.inner others
  rw [List.nil_append] at reading
  obtain ⟨last, isOpen, same⟩ := reading.opened
  exact ⟨last, isOpen, same ▸ reading⟩

theorem read_eq_error (place : ReadToBrace text) {fault : Fault}
    (fails : place.reached.readLine place.closing ['}'] = .error fault) (name : String) :
    read text name = .error fault := by
  have reading : Reader.readLines {} (contentLines text.toList) = .error fault := by
    calc
      Reader.readLines {} (contentLines text.toList) =
          place.start.readLines ((place.header :: place.lines) ++ (place.closing, ['}']) ::
            place.after) := by
        rw [place.whole, Reader.readLines_append_of_ok place.readBefore]
        rfl
      _ = place.reached.readLines ((place.closing, ['}']) :: place.after) :=
        Reader.readLines_append_of_ok place.readLines _
      _ = .error fault := by
        rw [Reader.readLines, fails]
        rfl
  rw [read, reading]
  rfl

end ReadToBrace

/-- The closing brace of a function is accepted where no name is used without a definition.
Otherwise the text is refused for the earliest such use, at the line of it. -/
theorem undefined_use_blamed {text : String} (place : ReadToBrace text) (name : String) :
    ∃ draft, place.reached.draft = some draft ∧
      match undefinedUses draft.arguments place.lines with
      | [] => place.reached.readLine place.closing ['}'] =
          .ok { place.reached with functions := place.reached.functions ++ [draft.function],
                                   draft := none }
      | (value, line) :: _ => read text name = .error (.refused line (.undefinedValue value)) ∧
          (Cause.undefinedValue value).message = "use of undefined value %" ++ value := by
  obtain ⟨draft, isOpen, reading⟩ := place.reading
  have first := reading.head?_pending
  have closes : place.reached.readLine place.closing ['}'] = place.reached.endFunction draft := by
    simp only [Reader.readLine, isOpen, Reader.bodyLine, read_close]
    rfl
  refine ⟨draft, isOpen, ?_⟩
  cases undefined : undefinedUses draft.arguments place.lines with
  | nil =>
      rw [undefined, List.head?_nil, List.head?_eq_none_iff] at first
      simp [closes, Reader.endFunction, first]
  | cons use rest =>
      obtain ⟨value, line⟩ := use
      rw [undefined, List.head?_cons] at first
      obtain ⟨others, entries⟩ := List.head?_eq_some_iff.mp first
      refine ⟨place.read_eq_error ?_ name, rfl⟩
      rw [closes, Reader.endFunction, entries]

def takesOne : String := "define i32 @f(i32 %n) \x7b"

/-- Of the names used before their definition, two are defined in the end, and three are not. -/
def usesAhead : List String :=
  ["%a = add i32 %late, %n", "store i32 %x, ptr %y", "%b = sub i32 %x, %z",
    "%late = mul i32 %b, %c", "%c = or i32 %a, 1",
    "ret i32 %w"]

def usedAhead : String := unlines (takesOne :: usesAhead ++ ["\x7d"])

theorem usedAhead_blames_first :
    ∃ (place : ReadToBrace usedAhead) (draft : Draft), place.reached.draft = some draft ∧
    undefinedUses draft.arguments place.lines = [("x", 3), ("y", 3), ("x", 4), ("z", 4)] ∧
    read usedAhead = .error (.refused 3 (.undefinedValue "x")) := by
  let header : Nat × List Char := (1, takesOne.toList)
  let lines : List (Nat × List Char) := [2, 3, 4, 5, 6, 7].zip (usesAhead.map (·.toList))
  have whole : contentLines usedAhead.toList = [] ++ header :: (lines ++ (8, ['}']) :: []) := by
    decide +kernel
  have isHeader : (TopLine.read takesOne.toList).toOption =
      some (.definition "i32".toList "f".toList "i32 %n".toList) := by
    decide +kernel
  have uses : ((Reader.readLines {} (header :: lines)).toOption.bind fun r =>
      r.draft.map fun draft =>
      undefinedUses draft.arguments lines) = some [("x", 3), ("y", 3), ("x", 4), ("z", 4)] := by
        decide +kernel
  obtain ⟨reached, isReached, drafted⟩ := Option.bind_eq_some_iff.mp uses
  let place : ReadToBrace usedAhead := {
    before := [], header := header, lines := lines, closing := 8, after := [], start :=
    {}, reached := reached, whole := whole,
    isHeader := ⟨_, _, _, ok_of_toOption isHeader⟩, inner := by
      decide +kernel, outside := rfl, readBefore := rfl,
    readLines := ok_of_toOption isReached }
  obtain ⟨draft, isOpen, blamed⟩ := undefined_use_blamed place "<stdin>"
  have undefined : undefinedUses draft.arguments place.lines =
      [("x", 3), ("y", 3), ("x", 4), ("z", 4)] := by
    rw [show reached.draft = some draft from isOpen] at drafted
    exact Option.some.inj drafted
  rw [undefined] at blamed
  exact ⟨place, draft, isOpen, undefined, blamed.1⟩

end ValueNumbering.Assembly
