import ValueNumbering.Proofs.Assembly.Consistency
import ValueNumbering.Proofs.Assembly.ListingText
import ValueNumbering.Proofs.Assembly.WellRead

/-!
The parts of a listing and what they are read as: a global as one of the same text, and a function
as one that is listed the same.
-/

namespace ValueNumbering.Assembly

open Text

theorem Keeps.line {inst : Instruction} {entry : LegibleLine} (keeps : Keeps inst entry) :
    entry.text = lineOf inst := by
  simp [lineOf, keeps.text]

section Legible

variable {R : Instruction → LegibleLine → Prop}

theorem exists_legible_lines {instructions : List Instruction}
    (each : ∀ inst ∈ instructions, ∃ entry, R inst entry) :
    ∃ lines, List.Forall₂ R instructions lines := by
  induction instructions with
  | nil => exact ⟨[], .nil⟩
  | cons inst rest ih =>
      obtain ⟨entry, here⟩ := each inst (List.mem_cons_self ..)
      obtain ⟨lines, related⟩ := ih fun other member => each other (List.mem_cons_of_mem _ member)
      exact ⟨entry :: lines, .cons here related⟩

theorem written_of_legible_lines
    (written : ∀ {inst entry}, R inst entry → inst.written = .ok (String.ofList entry.text))
    {instructions : List Instruction} {lines : List LegibleLine}
    (related : List.Forall₂ R instructions lines) :
    instructions.map (·.written) = lines.map (.ok <| String.ofList ·.text) := by
  induction related with
  | nil => rfl
  | cons here rest ih => rw [List.map_cons, List.map_cons, written here, ih]

theorem exists_legible_blocks
    (written : ∀ {inst entry}, R inst entry → inst.written = .ok (String.ofList entry.text))
    {blocks : List Block} (labels : ∀ block ∈ blocks, IsName block.name.toList)
    (each : ∀ inst ∈ blocks.flatMap (·.instructions), ∃ entry, R inst entry) :
    ∃ legible : List LegibleBlock, blocksShown blocks = LegibleBlock.shown legible ∧
      List.Forall₂ R (blocks.flatMap (·.instructions)) (legible.flatMap (·.lines)) := by
  induction blocks with
  | nil => exact ⟨[], rfl, .nil⟩
  | cons block more ih =>
      rw [List.flatMap_cons, List.forall_mem_append] at each
      obtain ⟨lines, related⟩ := exists_legible_lines each.1
      obtain ⟨legible, shown, related'⟩ :=
        ih (fun other member => labels other (List.mem_cons_of_mem _ member)) each.2
      refine ⟨⟨block.name, labels block (List.mem_cons_self ..), lines⟩ :: legible, ?_, ?_⟩
      · simp only [blocksShown, LegibleBlock.shown] at shown ⊢
        simp [shown, written_of_legible_lines written related]
      · rw [List.flatMap_cons, List.flatMap_cons]
        exact List.rel_append related related'

theorem results_of_legible_lines (named : ∀ {inst entry}, R inst entry → entry.result = inst.name)
    {instructions : List Instruction} {lines : List LegibleLine}
    (related : List.Forall₂ R instructions lines) :
    lines.filterMap (·.result) = instructions.filterMap (·.name) := by
  induction related with
  | nil => rfl
  | cons here rest ih => simp [List.filterMap_cons, named here, ih]

theorem results_eq (blocks : List LegibleBlock) :
    blocks.flatMap (·.results) = (blocks.flatMap (·.lines)).filterMap (·.result) := by
  simp [LegibleBlock.results, List.filterMap_flatMap]

end Legible

/-- What a function is read as from its listing. -/
structure ReadAgain (fn again : Function) : Prop where
  listing : again.listing = fn.listing
  written : again.instructions.map (·.written) = fn.instructions.map (·.written)

def KnowsGlobals (globals : Dictionary String Global) (fn : Function) : Prop :=
  ∀ inst ∈ fn.instructions, ∀ name : String, '@' :: name.toList ∈ lineOperands (lineOf inst) →
    globals.contains name = true

theorem leads_definition {objects : List Object} {i : Nat} {fn : Function}
    (closed : Closed objects i fn) (header : HeaderListable fn) {blocks : List LegibleBlock}
    (shown : blocksShown fn.blocks = LegibleBlock.shown blocks) (nonempty : blocks ≠ [])
    (related : List.Forall₂ Keeps fn.instructions (blocks.flatMap (·.lines))) {r : Reader}
    (outside : r.draft = none) (known : KnowsGlobals r.names.globals fn) :
    r.Leads (definitionText fn :: (blocks.flatMap (·.texts) ++ [['}']])) fun next => ∃ again,
      next.functions = r.functions ++ [again] ∧ next.draft = none ∧
        next.names.globals = r.names.globals ∧
        ReadAgain fn again := by
  have inLine : ∀ token ∈ blocks.flatMap (·.tokens), ∃ entry : LegibleLine, token ∈ entry.tokens ∧
      ∃ inst ∈ fn.instructions, lineOf inst = entry.text := by
    intro token member
    obtain ⟨block, isBlock, inBlock⟩ := List.mem_flatMap.mp member
    obtain ⟨entry, isEntry, used⟩ := List.mem_flatMap.mp inBlock
    obtain ⟨inst, member, keeps⟩ :=
      exists_of_mem_right related (List.mem_flatMap.mpr ⟨block, isBlock, isEntry⟩)
    exact ⟨entry, used, inst, member, keeps.line.symm⟩
  have names : fn.arguments.map (·.name) ++ blocks.flatMap (·.results) =
      definedNames fn.arguments fn.instructions := by
    rw [results_eq, results_of_legible_lines Keeps.result related, definedNames]
  have bound : ∀ name, .named name ∈ blocks.flatMap (·.tokens) →
      name ∈ fn.arguments.map (·.name) ++ blocks.flatMap (·.results) := by
    intro name used
    obtain ⟨entry, inEntry, inst, isInstruction, line⟩ := inLine _ used
    have defined := closed.bound inst isInstruction name.toList
      (line ▸ entry.mem_operands_named inEntry)
    rwa [names, ← String.ofList_toList (s := name)]
  refine (leads_function outside header (names ▸ closed.distinct) bound).imp ?_
  rintro next ⟨again, functions, draft, same, globals⟩
  obtain ⟨name, returnType, arguments, blocksSame, noParams⟩ := FunctionShown.mk.inj same
  refine ⟨again, functions, draft, globals ?_, ?_, ?_⟩
  · intro name used
    obtain ⟨entry, inEntry, inst, isInstruction, line⟩ := inLine _ used
    exact known inst isInstruction name (line ▸ entry.mem_operands_global inEntry)
  · have sameLine : definitionLine again = definitionLine fn := by
      rw [definitionLine, definitionLine, name, returnType, parameterText_congr arguments]
    rw [Function.listing_definition nonempty blocksSame, Function.listing_definition nonempty shown,
      sameLine]
  · rw [written_of_blocksShown, written_of_blocksShown, blocksSame, shown]

theorem leads_declaration {fn : Function} (noBlocks : fn.blocks = []) (header : HeaderListable fn)
    (params : ∀ text ∈ fn.params, Trimmed text.toList ∧ Plain text.toList) :
    ∃ text, Shows [declarationLine fn] [text] ∧ ∀ r :
    Reader, r.draft = none → r.Leads [text] fun next => ∃ again,
      next.functions = r.functions ++ [again] ∧ next.draft = none ∧
        next.names.globals = r.names.globals ∧
        ReadAgain fn again := by
  have isParams : Trimmed (fn.params.getD fn.parameterText).toList ∧
      Plain (fn.params.getD fn.parameterText).toList := by
    cases kept : fn.params with
    | none => exact ⟨trimmed_parameterText header.arguments, plain_parameterText header.arguments⟩
    | some text => exact params text kept
  let text := signatureLine "declare" fn.returnType.toList fn.name.toList
    ((fn.params.getD fn.parameterText).toList ++ [')'])
  have closing : Plain [')'] := by decide
  have bare : Bare text := bare_signatureLine (Or.inr rfl) header.signature header.quiet
    (isParams.2.append closing) (by simp)
    (by simp; decide)
  have whole : (declarationLine fn).toList = text := by
    simp [declarationLine, text, signatureLine, toString]
  have shows : Shows [declarationLine fn] [text] := by
    refine .cons ?_ ?_ (by simp [text, signatureLine]) .nil
    · rw [whole]
      exact bare.within
    · rw [whole, bare.content]
  refine ⟨text, shows, fun r outside => ?_⟩
  refine .cons fun line => ?_
  let again : Function := { name := fn.name, returnType := fn.returnType,
                            params := some (fn.params.getD fn.parameterText) }
  have read : r.readLine line text = .ok { r with functions := r.functions ++ [again] } := by
    have kind : atLine line (TopLine.read text) =
        .ok (.declaration fn.returnType.toList fn.name.toList
        (fn.params.getD fn.parameterText).toList) := by
      rw [read_declaration header.signature isParams.1]
      rfl
    rw [Reader.readLine, outside]
    refine bind_eq_ok.mpr ⟨_, kind, ?_⟩
    simp [again, outside]
    rfl
  refine ⟨_, read, .nil ⟨again, rfl, outside, rfl, ?_, ?_⟩⟩
  · rw [Function.listing_declaration noBlocks, Function.listing_declaration rfl]
    rfl
  · simp [Function.instructions, noBlocks, again]

section Globals

theorem defineGlobal_new (names : Names) {name : String} (new : name ∉ names.globals.keys)
    (initializer : String) :
    ∃ created : Global, (names.defineGlobal name initializer).globals.entries =
      names.globals.entries ++ [(name, created)] ∧
      created.listing = s!"@{name} = " ++ initializer := by
  have absent : names.globals.find? name = none := (Dictionary.find?_eq_none_iff _ _).mpr new
  refine ⟨{ id := names.nextId, name := name, initializer := some initializer }, ?_, rfl⟩
  simp only [Names.defineGlobal, Names.global, absent, Dictionary.insert_insert]
  exact Dictionary.entries_insert_of_not_mem _ new _

theorem readLine_globalLine {r : Reader} (outside : r.draft = none) {name initializer : String}
    (isName : IsName name.toList) (bare : Bare initializer.toList) (line : Nat) :
    r.readLine line (content (globalLine name.toList initializer.toList)) =
      .ok { r with names := r.names.defineGlobal name initializer } := by
  have kind : atLine line (TopLine.read (content (globalLine name.toList initializer.toList))) =
      .ok (.global name.toList initializer.toList) := by
    rw [read_globalLine isName bare]
    rfl
  rw [Reader.readLine, outside]
  refine bind_eq_ok.mpr ⟨_, kind, ?_⟩
  simp [outside]
  rfl

theorem bare_initializer {global : Global}
    (bare : ∀ text, global.initializer = some text → Bare text.toList) :
    Bare (global.initializer.getD "external global i32").toList := by
  cases kept : global.initializer with
  | none => exact ⟨by decide, by decide⟩
  | some text => exact bare text kept

theorem content_globalLine_ne_nil {name initializer : List Char} (isName : IsName name)
    (bare : Bare initializer) : content (globalLine name initializer) ≠ [] := by
  intro empty
  have read := read_globalLine isName bare
  rw [empty] at read
  cases read

theorem unbroken_globalLine {name initializer : List Char} (isName : IsName name)
    (bare : Bare initializer) : Unbroken (globalLine name initializer) := by
  have front : Unbroken ['@'] ∧ Unbroken [' ', '=', ' '] := by
    constructor <;> simp [Unbroken] <;> decide
  have whole := front.1.append (isName.plain.unbroken.append (front.2.append bare.within))
  simpa [globalLine] using whole

theorem toList_listing_global (global : Global) :
    global.listing.toList = globalLine global.name.toList
      (global.initializer.getD "external global i32").toList := by
  rw [Global.listing]
  simp [globalLine, toString]

theorem globals_defineGlobal {names : Names} {global : Global}
    (new : global.name ∉ names.globals.keys) {initializer : String}
    (isInitializer : global.initializer.getD "external global i32" = initializer) :
    (names.defineGlobal global.name initializer).globals.keys =
      names.globals.keys ++ [global.name] ∧
    (names.defineGlobal global.name initializer).globals.values.map (·.listing) =
      names.globals.values.map (·.listing) ++ [global.listing] := by
  obtain ⟨created, entries, listing⟩ := defineGlobal_new names new initializer
  have listed : created.listing = global.listing := by
    rw [listing, Global.listing, isInitializer]
  constructor
  · simp [Dictionary.keys, entries]
  · simp [Dictionary.values, entries, listed]

theorem leads_globals {entries : List (String × Global)}
    (named : ∀ entry ∈ entries, entry.2.name = entry.1)
    (isName : ∀ entry ∈ entries, IsName entry.1.toList)
    (initializers : ∀ entry ∈ entries, ∀ text, entry.2.initializer = some text → Bare text.toList) :
    ∃ texts, Shows (entries.map (·.2.listing)) texts ∧ ∀ r : Reader, r.draft = none →
      (r.names.globals.keys ++ entries.map (·.1)).Nodup → r.Leads texts fun next =>
        next.functions = r.functions ∧ next.draft = none ∧
        next.names.globals.keys = r.names.globals.keys ++ entries.map (·.1) ∧
        next.names.globals.values.map (·.listing) =
          r.names.globals.values.map (·.listing) ++ entries.map (·.2.listing) := by
  induction entries with
  | nil => exact ⟨[], .nil, fun r outside _ => .nil (by simp [outside])⟩
  | cons entry rest ih =>
      obtain ⟨texts, shows, leads⟩ :=
        ih (fun other member => named other (List.mem_cons_of_mem _ member))
        (fun other member => isName other (List.mem_cons_of_mem _ member))
        (fun other member => initializers other (List.mem_cons_of_mem _ member))
      obtain ⟨name, global⟩ := entry
      obtain rfl : global.name = name := named _ (List.mem_cons_self ..)
      have here : IsName global.name.toList := isName _ (List.mem_cons_self ..)
      have bare := bare_initializer (initializers _ (List.mem_cons_self ..))
      refine ⟨_, .cons ?_ (congrArg content (toList_listing_global global))
        (content_globalLine_ne_nil here bare) shows, fun r outside distinct => ?_⟩
      · rw [toList_listing_global]
        exact unbroken_globalLine here bare
      refine .cons fun number => ?_
      rw [List.map_cons, ← List.singleton_append, ← List.append_assoc] at distinct
      have new : global.name ∉ r.names.globals.keys := fun member =>
        (List.nodup_append.mp (List.nodup_append.mp distinct).1).2.2 _ member _
          (List.mem_singleton_self _) rfl
      let initializer := global.initializer.getD "external global i32"
      let defined : Reader := { r with names := r.names.defineGlobal global.name initializer }
      have globals : defined.names.globals.keys = r.names.globals.keys ++ [global.name] ∧
          defined.names.globals.values.map (·.listing) =
            r.names.globals.values.map (·.listing) ++ [global.listing] :=
        globals_defineGlobal new rfl
      obtain ⟨keys, values⟩ := globals
      refine ⟨defined, readLine_globalLine outside here bare number,
        (leads defined outside (keys ▸ distinct)).imp ?_⟩
      rintro next ⟨functions, draft, keys', values'⟩
      refine ⟨functions, draft, ?_, ?_⟩
      · simp [keys', keys]
      · simp [values', values]

end Globals

/-- A function with a listing that is read as a function of the same listing and the same lines. -/
def ReadsBack (fn : Function) : Prop :=
  ∃ ls texts, fn.listing = .ok ls ∧ Shows ls texts ∧ ∀ r : Reader, r.draft = none →
    KnowsGlobals r.names.globals fn →
    r.Leads texts fun next => ∃ again, next.functions = r.functions ++ [again] ∧ next.draft = none ∧
      next.names.globals = r.names.globals ∧ ReadAgain fn again

theorem readsBack {objects : List Object} {i : Nat} {fn : Function} (closed : Closed objects i fn)
    (read : FunctionRead fn) (header : HeaderListable fn)
    (params : ∀ text ∈ fn.params, Quiet text.toList) : ReadsBack fn := by
  by_cases noBlocks : fn.blocks = []
  · have isParams : ∀ text ∈ fn.params, Trimmed text.toList ∧ Plain text.toList := by
      intro text kept
      obtain ⟨trimmed, unbroken, -⟩ := read.params text kept
      exact ⟨trimmed, params text kept, unbroken⟩
    obtain ⟨text, shows, leads⟩ := leads_declaration noBlocks header isParams
    exact ⟨_, [text], Function.listing_declaration noBlocks, shows, fun r outside _ =>
      leads r outside⟩
  · obtain ⟨blocks, shown, related⟩ := exists_legible_blocks Keeps.written read.labels read.lines
    have nonempty : blocks ≠ [] := by
      rintro rfl
      exact noBlocks (List.map_eq_nil_iff.mp shown)
    have shows := header.shows ((LegibleBlock.shows_allListed blocks).append shows_close)
    exact ⟨_, _, Function.listing_definition nonempty shown, shows, fun r outside known =>
      leads_definition closed header shown nonempty related outside known⟩

/-- Functions one after the other, each after an empty line. -/
theorem leads_functions {functions : List Function} (each : ∀ fn ∈ functions, ReadsBack fn) :
    ∃ lists texts, (functions.mapM fun fn => do
        let body ← fn.listing
        return "" :: body) = .ok lists ∧ Shows lists.flatten texts ∧
      ∀ r : Reader, r.draft = none → (∀ fn ∈ functions, KnowsGlobals r.names.globals fn) →
        r.Leads texts fun next =>
        ∃ again, next.functions = r.functions ++ again ∧ next.draft = none ∧
          next.names.globals = r.names.globals ∧
          List.Forall₂ ReadAgain functions again := by
  induction functions with
  | nil => exact ⟨[], [], rfl, .nil, fun r outside _ => .nil ⟨[], by simp, outside, rfl, .nil⟩⟩
  | cons fn rest ih =>
      obtain ⟨ls, texts, listed, shows, leads⟩ := each fn (List.mem_cons_self ..)
      obtain ⟨lists, texts', listed', shows', leads'⟩ :=
        ih fun other member => each other (List.mem_cons_of_mem _ member)
      refine ⟨("" :: ls) :: lists, texts ++ texts', ?_, ?_, fun r outside known => ?_⟩
      · rw [List.mapM_cons, listed', listed]
        rfl
      · exact (Shows.cons_empty (by simp) rfl shows).append shows'
      · refine (leads r outside (known fn (List.mem_cons_self ..))).append ?_
        rintro next ⟨again, functions, draft, globals, alike⟩
        have known' : ∀ other ∈ rest, KnowsGlobals next.names.globals other :=
          fun other member => globals ▸ known other (List.mem_cons_of_mem _ member)
        refine (leads' next draft known').imp ?_
        rintro last ⟨others, functions', draft', globals', alikes⟩
        exact ⟨again :: others, by simp [functions', functions], draft', globals'.trans globals,
          .cons alike alikes⟩

end ValueNumbering.Assembly
