import ValueNumbering.Proofs.Assembly.Coreference
import ValueNumbering.Proofs.Assembly.PrintedLines
import ValueNumbering.Proofs.Assembly.PrintedParameters

/-!
Texts that the reader accepts. A function of legible lines is accepted where no name is defined
twice and every name in use is defined somewhere in the function; what is read are its blocks with
its lines.
-/

namespace ValueNumbering.Assembly

open Text

/-- The lines lead from a reader to one with a property, whatever their numbers are. -/
def Reader.Leads (r : Reader) (texts : List (List Char)) (goal : Reader → Prop) : Prop :=
  ∀ entries : List (Nat × List Char), entries.map (·.2) = texts →
    ∃ last, r.readLines entries = .ok last ∧ goal last

theorem Reader.readLines_append_of_ok {r next : Reader} {front : List (Nat × List Char)}
    (first : r.readLines front = .ok next) (rest : List (Nat × List Char)) :
    r.readLines (front ++ rest) = next.readLines rest := by
  induction front generalizing r with
  | nil =>
      cases first
      rfl
  | cons entry more ih =>
      obtain ⟨after, read, between⟩ := bind_eq_ok.mp first
      calc
        r.readLines (entry :: more ++ rest) = after.readLines (more ++ rest) := by
          rw [List.cons_append, readLines, read]
          rfl
        _ = next.readLines rest := ih between

theorem Reader.readLines_append {r next last : Reader} {front rest : List (Nat × List Char)}
    (first : r.readLines front = .ok next) (second : next.readLines rest = .ok last) :
    r.readLines (front ++ rest) = .ok last := by
  rw [readLines_append_of_ok first]
  exact second

namespace Reader.Leads

variable {r : Reader} {goal : Reader → Prop}

theorem nil (reached : goal r) : r.Leads [] goal := by
  intro entries areEntries
  rw [List.map_eq_nil_iff.mp areEntries]
  exact ⟨r, rfl, reached⟩

theorem cons {text : List Char} {texts : List (List Char)}
    (first : ∀ line, ∃ next, r.readLine line text = .ok next ∧ next.Leads texts goal) :
    r.Leads (text :: texts) goal := by
  intro entries areEntries
  obtain ⟨⟨line, _⟩, rest, rfl, rfl, areRest⟩ := List.map_eq_cons_iff.mp areEntries
  obtain ⟨next, read, leads⟩ := first line
  obtain ⟨last, more, reached⟩ := leads rest areRest
  exact ⟨last, bind_eq_ok.mpr ⟨next, read, more⟩, reached⟩

theorem append {texts more : List (List Char)} {middle : Reader → Prop}
    (first : r.Leads texts middle) (second : ∀ next, middle next → next.Leads more goal) :
    r.Leads (texts ++ more) goal := by
  intro entries areEntries
  obtain ⟨front, rest, rfl, areFront, areRest⟩ := List.map_eq_append_iff.mp areEntries
  obtain ⟨next, read, between⟩ := first front areFront
  obtain ⟨last, read', reached⟩ := second next between rest areRest
  exact ⟨last, readLines_append read read', reached⟩

theorem imp {texts : List (List Char)} {other : Reader → Prop} (leads : r.Leads texts goal)
    (weaker : ∀ last, goal last → other last) : r.Leads texts other := by
  intro entries areEntries
  obtain ⟨last, read, reached⟩ := leads entries areEntries
  exact ⟨last, read, weaker last reached⟩

end Reader.Leads

structure LegibleLine where
  text : List Char
  result : Option String
  tokens : List Token
  bare : Bare text
  legible : ∃ chars mnemonic rest statement,
    BodyLine.read text = .ok (.instruction chars mnemonic rest) ∧
    chars.map String.ofList = result ∧ statement.tokens.map (·.token) = tokens ∧
    ∀ line, Statement.read line (Opcode.ofMnemonic (String.ofList mnemonic)) rest = .ok statement

namespace LegibleLine

variable (line : LegibleLine)

theorem nonempty : line.text ≠ [] := by
  obtain ⟨chars, mnemonic, rest, statement, form, -⟩ := line.legible
  intro empty
  rw [empty] at form
  cases form

theorem operands :
    List.Forall₂ (fun text token => ∃ type, Token.read text type = .ok token)
      (lineOperands line.text)
    line.tokens := by
  obtain ⟨chars, mnemonic, rest, statement, form, -, areTokens, stated⟩ := line.legible
  have texts : lineOperands line.text =
      operandTexts (Opcode.ofMnemonic (String.ofList mnemonic)) rest := by
    simp [lineOperands, form]
  rw [texts, ← areTokens]
  exact List.forall₂_map_right_iff.mpr
    ((statement_operands (stated 0)).1.imp fun text operand read => ⟨operand.type, read⟩)

theorem readsTo_operand {token : Token} (used : token ∈ line.tokens) :
    ∃ text ∈ lineOperands line.text, ∃ type, ReadsTo type text token := by
  obtain ⟨text, member, type, read⟩ := exists_of_mem_right line.operands used
  exact ⟨text, member, type, readsTo_of_read read⟩

theorem mem_operands_named {name : String} (used : .named name ∈ line.tokens) :
    '%' :: name.toList ∈ lineOperands line.text := by
  obtain ⟨text, member, type, reads⟩ := line.readsTo_operand used
  have key : (Token.named name).key ⟨0, 0, 0⟩ = .named 0 name := rfl
  obtain ⟨-, rfl⟩ := reads.named_of_key key
  exact member

theorem mem_operands_global {name : String} (used : .global name ∈ line.tokens) :
    '@' :: name.toList ∈ lineOperands line.text := by
  obtain ⟨text, member, type, reads⟩ := line.readsTo_operand used
  have key : (Token.global name).key ⟨0, 0, 0⟩ = .global name := rfl
  obtain rfl := reads.global_of_key key
  exact member

end LegibleLine

structure LegibleBlock where
  label : String
  isName : IsName label.toList
  lines : List LegibleLine

namespace LegibleBlock

def texts (block : LegibleBlock) : List (List Char) :=
  (block.label.toList ++ [':']) :: block.lines.map (·.text)

def results (block : LegibleBlock) : List String := block.lines.filterMap (·.result)

def tokens (block : LegibleBlock) : List Token := block.lines.flatMap (·.tokens)

end LegibleBlock

def blocksShown (blocks : List Block) : List (String × List (Except OperandFault String)) :=
  blocks.map fun block => (block.name, block.instructions.map (·.written))

theorem written_of_blocksShown (fn : Function) :
    fn.instructions.map (·.written) = (blocksShown fn.blocks).flatMap (·.2) := by
  simp [Function.instructions, blocksShown, List.map_flatMap, List.flatMap_map]

/-- The names after some lines of a function, from those before it. Only used names wait, and no
global is new if those in use are known. -/
structure Reached (start : Names) (defined : List String) (used : List Token) (names : Names) :
    Prop where
  accounted : Accounted names defined
  waiting : ∀ name, names.pending.contains name = true → .named name ∈ used
  globals : (∀ name, .global name ∈ used → start.globals.contains name = true) →
    names.globals = start.globals

namespace Reached

variable {start names : Names} {defined : List String} {used : List Token}

theorem congr (reached : Reached start defined used names) {after : Names}
    (values : after.values = names.values) (pending : after.pending = names.pending)
    (globals : after.globals = names.globals) (more : List Token) :
    Reached start defined (used ++ more) after where
  accounted := reached.accounted.congr values pending
  waiting := by
    rw [pending]
    exact fun name waits => List.mem_append_left _ (reached.waiting name waits)
  globals := by
    rw [globals]
    exact fun known => reached.globals fun name member => known name (List.mem_append_left _ member)

theorem fresh (reached : Reached start defined used names) (form : Form) (more : List Token) :
    Reached start defined (used ++ more) (names.fresh form).2 := by
  refine reached.congr ?_ ?_ ?_ more <;> rfl

theorem lookup (reached : Reached start defined used names) (line : Nat) (name : String) :
    Reached start defined (used ++ [.named name]) (names.lookup line name).2 := by
  have accounted := reached.accounted.lookup line name
  unfold Names.lookup at accounted ⊢
  cases known : names.values.find? name with
  | some found => exact reached.congr rfl rfl rfl _
  | none =>
      rw [known] at accounted
      refine ⟨accounted, ?_, fun known => reached.globals fun other member =>
        known other (List.mem_append_left _ member)⟩
      intro other waits
      by_cases same : name = other
      · exact same ▸ List.mem_append_right _ (List.mem_singleton_self _)
      · refine List.mem_append_left _ (reached.waiting other ?_)
        rwa [Dictionary.contains, Dictionary.find?_insert_of_ne _ _ same] at waits

theorem global (reached : Reached start defined used names) (name : String) :
    Reached start defined (used ++ [.global name]) (names.global name).2 := by
  unfold Names.global
  cases stored : names.globals.find? name with
  | some found => exact reached.congr rfl rfl rfl _
  | none =>
      refine ⟨reached.accounted.congr rfl rfl, fun other waits =>
        List.mem_append_left _ (reached.waiting other waits), ?_⟩
      intro known
      have before := reached.globals fun other member => known other (List.mem_append_left _ member)
      have present := known name (List.mem_append_right _ (List.mem_singleton_self _))
      rw [← before, Dictionary.contains, stored] at present
      cases present

theorem bind (reached : Reached start defined used names) (line : Nat) (token : Token) :
    Reached start defined (used ++ [token]) (names.bind line token).2 := by
  cases token with
  | named name => exact reached.lookup line name
  | global name => exact reached.global name
  | literal value type => exact reached.fresh (.literal value type) _
  | expression words type =>
      obtain ⟨values, pending, globals⟩ := names.expression_scope words type
      exact reached.congr values pending globals _
  | constant text type => exact reached.fresh (.constant text type) _

theorem bindAll (reached : Reached start defined used names) (line : Nat)
    (tokens : List TypedToken) :
    Reached start defined (used ++ tokens.map (·.token)) (names.bindAll line tokens).2 := by
  induction tokens generalizing names used with
  | nil => simpa [Names.bindAll] using reached
  | cons operand rest ih =>
    simpa [Names.bindAll, Names.bindTyped] using ih (reached.bind line operand.token)

theorem define (reached : Reached start defined used names) {name : String} (new : name ∉ defined) :
    ∃ value after, names.define name = .ok (value, after) ∧
      Reached start (defined ++ [name]) used after := by
  unfold Names.define
  cases known : names.values.find? name with
  | none =>
      refine ⟨_, _, rfl, reached.accounted.insert known _ _, reached.waiting, reached.globals⟩
  | some found =>
      have waits : names.pending.contains name = true :=
        (reached.accounted.covered known).resolve_left new
      simp only [waits, if_true]
      refine ⟨found, _, rfl, reached.accounted.settle waits, ?_, reached.globals⟩
      intro other waits'
      refine reached.waiting other ?_
      rw [Dictionary.contains, Dictionary.find?_erase] at waits'
      split at waits'
      · cases waits'
      · exact waits'

theorem target (reached : Reached start defined used names) {result : Option (List Char)}
    (new : ∀ name ∈ result.map String.ofList, name ∉ defined) (line : Nat) :
    ∃ value after, Reader.target names line result = .ok (value, after) ∧
      Reached start (defined ++ (result.map String.ofList).toList) used after := by
  cases result with
  | none =>
    exact ⟨_, (names.fresh (.result none)).2, rfl, by simpa using reached.fresh (.result none) []⟩
  | some name =>
      obtain ⟨value, after, found, reached'⟩ := reached.define (new _ rfl)
      exact ⟨value, after, by simp [Reader.target, found, atLine], by simpa using reached'⟩

theorem settled (reached : Reached start defined used names)
    (bound : ∀ name, .named name ∈ used → name ∈ defined) :
    names.pending.entries = [] := by
  cases entries : names.pending.entries with
  | nil => rfl
  | cons entry rest =>
      have waits : names.pending.contains entry.1 = true := by
        simp [Dictionary.contains, Dictionary.find?, entries]
      have defined := reached.accounted.settled (bound _ (reached.waiting _ waits))
      rw [waits] at defined
      cases defined

end Reached

section Lines

variable {start : Names} {defined : List String} {used : List Token} {r : Reader} {draft : Draft}

theorem readLine_instruction {block : Block} (inside : r.draft = some draft)
    (opened : draft.current = some block) (reached : Reached start defined used r.names)
    (entry : LegibleLine) (new : ∀ name ∈ entry.result, name ∉ defined) (line : Nat) :
    ∃ inst names, r.readLine line entry.text =
        .ok { r with names := names, draft := some (draft.append inst) } ∧
      inst.written = .ok (String.ofList entry.text) ∧
      Reached start (defined ++ entry.result.toList) (used ++ entry.tokens) names := by
  obtain ⟨chars, mnemonic, rest, statement, form, isResult, areTokens, stated⟩ := entry.legible
  rw [← isResult] at new
  obtain ⟨value, after, targeted, reached'⟩ := reached.target new line
  let inst := (Reader.fill after line
    (Reader.unfilled value (Opcode.ofMnemonic (String.ofList mnemonic)) chars entry.text)
      statement).1
  refine ⟨inst, (after.bindAll line statement.tokens).2, ?_,
    by simp [inst, Reader.unfilled, Instruction.written], ?_⟩
  · have ensured : draft.ensureBlock = .ok draft := by simp [Draft.ensureBlock, opened]
    have made : Reader.readInstruction r.names line entry.text chars mnemonic rest =
        .ok (inst, (after.bindAll line statement.tokens).2) := by
      refine bind_eq_ok.mpr ⟨_, targeted, bind_eq_ok.mpr ⟨_, stated line, ?_⟩⟩
      rw [← Reader.fill_names]
      rfl
    have kind : atLine line (BodyLine.read entry.text) =
        .ok (.instruction chars mnemonic rest) := by rw [form]; rfl
    rw [Reader.readLine, inside]
    exact bind_eq_ok.mpr ⟨_, kind, bind_eq_ok.mpr ⟨_, ensured, bind_eq_ok.mpr ⟨_, made, rfl⟩⟩⟩
  · rw [← isResult, ← areTokens]
    exact reached'.bindAll line statement.tokens

theorem leads_lines {block : Block} (inside : r.draft = some draft)
    (opened : draft.current = some block) (reached : Reached start defined used r.names)
    {lines : List LegibleLine} (distinct : (defined ++ lines.filterMap (·.result)).Nodup) :
    r.Leads (lines.map (·.text)) fun next => ∃ added names,
      next = { r with
        names := names
        draft := some { draft with current := some ⟨block.name, block.instructions ++ added⟩ } } ∧
      added.map (·.written) = lines.map (.ok <| String.ofList ·.text) ∧
      Reached start (defined ++ lines.filterMap (·.result)) (used ++ lines.flatMap (·.tokens))
        names := by
  induction lines generalizing r draft block defined used with
  | nil =>
      refine .nil ⟨[], r.names, ?_, rfl, by simpa using reached⟩
      obtain ⟨names, functions, _⟩ := r
      obtain rfl : _ = some draft := inside
      simp [← opened]
  | cons entry rest ih =>
      refine .cons fun line => ?_
      have whole : (entry :: rest).filterMap (·.result) =
          entry.result.toList ++ rest.filterMap (·.result) := by
        cases result : entry.result <;> simp [result]
      rw [whole, ← List.append_assoc] at distinct
      have new : ∀ name ∈ entry.result, name ∉ defined := by
        intro name isResult member
        have apart := (List.nodup_append.mp (List.nodup_append.mp distinct).1).2.2
        exact apart name member name (Option.mem_toList.mpr isResult) rfl
      obtain ⟨inst, names, read, text, reached'⟩ :=
        readLine_instruction inside opened reached entry new line
      refine ⟨_, read, ?_⟩
      have appended : (draft.append inst).current =
          some ⟨block.name, block.instructions ++ [inst]⟩ := by
        simp [Draft.append, opened]
      refine (ih rfl appended reached' distinct).imp ?_
      rintro next ⟨added, names', rfl, texts, reached''⟩
      refine ⟨inst :: added, names', ?_, by simp [text, texts], ?_⟩
      · simp [Draft.append]
      · rw [whole, List.flatMap_cons, ← List.append_assoc, ← List.append_assoc]
        exact reached''

theorem leads_block (inside : r.draft = some draft) (reached : Reached start defined used r.names)
    (block : LegibleBlock) (distinct : (defined ++ block.results).Nodup) :
    r.Leads block.texts fun next => ∃ added names,
      next = { r with
        names := names
        draft :=
          some { draft with closed := draft.blocks, current := some ⟨block.label, added⟩ } } ∧
      added.map (·.written) = block.lines.map (.ok <| String.ofList ·.text) ∧
      Reached start (defined ++ block.results) (used ++ block.tokens) names := by
  refine .cons fun line => ?_
  have kind : atLine line (BodyLine.read (block.label.toList ++ [':'])) =
      .ok (.label block.label.toList) := by
    rw [read_label block.isName]
    rfl
  have read : r.readLine line (block.label.toList ++ [':']) =
      .ok { r with draft := some (draft.openBlock block.label) } := by
    rw [Reader.readLine, inside]
    exact bind_eq_ok.mpr ⟨_, kind, by simp; rfl⟩
  let labelled : Reader := { r with draft := some (draft.openBlock block.label) }
  have inside' : labelled.draft = some (draft.openBlock block.label) := rfl
  have reached' : Reached start defined used labelled.names := reached
  refine ⟨labelled, read, ?_⟩
  refine (leads_lines inside' rfl reached' distinct).imp ?_
  rintro next ⟨added, names, rfl, texts, reached'⟩
  exact ⟨added, names, rfl, texts, reached'⟩

def LegibleBlock.shown (blocks : List LegibleBlock) :
    List (String × List (Except OperandFault String)) :=
  blocks.map fun block => (block.label, block.lines.map (.ok <| String.ofList ·.text))

theorem leads_blocks (inside : r.draft = some draft) (reached : Reached start defined used r.names)
    {blocks : List LegibleBlock} (distinct : (defined ++ blocks.flatMap (·.results)).Nodup) :
    r.Leads (blocks.flatMap (·.texts)) fun next => ∃ closed current names,
      next = { r with names := names,
                      draft := some { draft with closed := closed, current := current } } ∧
      blocksShown (closed ++ current.toList) =
        blocksShown draft.blocks ++ LegibleBlock.shown blocks ∧
      Reached start (defined ++ blocks.flatMap (·.results)) (used ++ blocks.flatMap (·.tokens))
        names := by
  induction blocks generalizing r draft defined used with
  | nil =>
      refine .nil ⟨draft.closed, draft.current, r.names, ?_,
        by simp [Draft.blocks, LegibleBlock.shown], by simpa using reached⟩
      obtain ⟨names, functions, _⟩ := r
      obtain rfl : _ = some draft := inside
      rfl
  | cons block rest ih =>
      rw [List.flatMap_cons, ← List.append_assoc] at distinct
      rw [List.flatMap_cons]
      refine (leads_block inside reached block (List.nodup_append.mp distinct).1).append ?_
      rintro next ⟨added, names, rfl, texts, reached'⟩
      refine (ih rfl reached' distinct).imp ?_
      rintro last ⟨closed, current, names', rfl, shown, reached''⟩
      refine ⟨closed, current, names', rfl, ?_, ?_⟩
      · rw [shown]
        simp [blocksShown, LegibleBlock.shown, Draft.blocks, texts]
      · rw [List.flatMap_cons, List.flatMap_cons, ← List.append_assoc, ← List.append_assoc]
        exact reached''

end Lines

/-- What a function is listed with. The types and names of arguments count, and the texts of
instructions. -/
structure FunctionShown where
  name : String
  returnType : String
  arguments : List (String × String)
  blocks : List (String × List (Except OperandFault String))
  params : Option String

def functionShown (fn : Function) : FunctionShown :=
  ⟨fn.name, fn.returnType, argumentsShown fn.arguments, blocksShown fn.blocks, fn.params⟩

def definitionText (fn : Function) : List Char :=
  signatureLine "define" fn.returnType.toList fn.name.toList
    (fn.parameterText.toList ++ [')', ' ', '{'])

structure HeaderListable (fn : Function) : Prop where
  signature : IsSignature fn.returnType.toList fn.name.toList
  quiet : Quiet fn.returnType.toList
  arguments : ∀ arg ∈ fn.arguments, Listable arg

/-- A function of legible blocks is accepted where every name in use is defined once, and it is read
as it is listed. -/
theorem leads_function {r : Reader} (outside : r.draft = none) {fn : Function}
    (header : HeaderListable fn) {blocks : List LegibleBlock}
    (distinct : (fn.arguments.map (·.name) ++ blocks.flatMap (·.results)).Nodup)
    (bound : ∀ name, .named name ∈ blocks.flatMap (·.tokens) →
      name ∈ fn.arguments.map (·.name) ++ blocks.flatMap (·.results)) :
    r.Leads (definitionText fn :: (blocks.flatMap (·.texts) ++ [['}']])) fun next => ∃ read,
      next.functions = r.functions ++ [read] ∧ next.draft = none ∧
      functionShown read = ⟨fn.name, fn.returnType, argumentsShown fn.arguments,
        LegibleBlock.shown blocks, none⟩ ∧
      ((∀ name, .global name ∈ blocks.flatMap (·.tokens) → r.names.globals.contains name = true) →
        next.names.globals = r.names.globals) := by
  refine .cons fun line => ?_
  have kind : atLine line (TopLine.read (definitionText fn)) =
      .ok (.definition fn.returnType.toList fn.name.toList fn.parameterText.toList) := by
    rw [definitionText, read_definition header.signature]
    rfl
  obtain ⟨signature, names, parameters, shown, accounted, globals, pending⟩ :=
    readParameters_parameterText r.names header.arguments (List.nodup_append.mp distinct).1 line
  let draft : Draft :=
    { name := fn.name, returnType := fn.returnType, arguments := signature.arguments, line := line,
      slot := signature.slot }
  have read : r.readLine line (definitionText fn) =
      .ok { r with names := names, draft := some draft } := by
    rw [Reader.readLine, outside]
    refine bind_eq_ok.mpr ⟨_, kind, bind_eq_ok.mpr ⟨_, parameters, ?_⟩⟩
    simp [draft]
    rfl
  have reached : Reached r.names (fn.arguments.map (·.name)) [] names := by
    refine ⟨accounted, ?_, fun _ => globals⟩
    intro name waits
    simp [pending, Dictionary.contains] at waits
  let opened : Reader := { r with names := names, draft := some draft }
  have inside : opened.draft = some draft := rfl
  have reached' : Reached r.names (fn.arguments.map (·.name)) [] opened.names := reached
  refine ⟨opened, read, (leads_blocks inside reached' distinct).append ?_⟩
  rintro next ⟨closed, current, names', rfl, blocksSame, after⟩
  refine .cons fun line' => ?_
  have settled : names'.pending.entries = [] := after.settled (by simpa using bound)
  let final : Draft := { draft with closed := closed, current := current }
  have closing : ({ r with names := names', draft := some final } : Reader).readLine line' ['}'] =
      .ok { r with names := names', functions := r.functions ++ [final.function],
                   draft := none } := by
    have kind : atLine line' (BodyLine.read ['}']) = .ok .close := by
      rw [read_close]
      rfl
    refine bind_eq_ok.mpr ⟨_, kind, ?_⟩
    simp [Reader.endFunction, settled]
  refine ⟨_, closing, .nil ⟨final.function, rfl, rfl, ?_, ?_⟩⟩
  · simp only [functionShown, Draft.function, Draft.blocks, final, draft, shown, blocksSame]
    rfl
  · intro known
    exact after.globals (by simpa using known)

end ValueNumbering.Assembly
