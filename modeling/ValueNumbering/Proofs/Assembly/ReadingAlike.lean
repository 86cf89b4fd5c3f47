import ValueNumbering.Proofs.Assembly.Acceptance
import ValueNumbering.Proofs.Assembly.WellRead

/-!
Reading a function does not depend on what was read before it. The globals and the constant
expressions that are kept from function to function decide which operands are one object, but never
what is accepted or what a function looks like.
-/

namespace ValueNumbering.Assembly

namespace Names

/-- Names of a function that are defined alike and wait for a definition alike, whatever values they
stand for. -/
structure Alike (names names' : Names) : Prop where
  values : ∀ name, names.values.contains name = names'.values.contains name
  pending : ∀ name, names.pending.contains name = names'.pending.contains name

variable {names names' after : Names}

theorem Alike.newFunction (names names' : Names) : names.newFunction.Alike names'.newFunction :=
  ⟨fun _ => rfl, fun _ => rfl⟩

theorem bind_scope (names : Names) (line : Nat) {token : Token}
    (unnamed : ∀ name, token ≠ .named name) :
    (names.bind line token).2.values = names.values ∧
      (names.bind line token).2.pending = names.pending := by
  cases token with
  | named name => exact absurd rfl (unnamed name)
  | global name => exact names.global_scope name
  | expression key type =>
      obtain ⟨values, pending, -⟩ := names.expression_scope key type
      exact ⟨values, pending⟩
  | literal value type => exact ⟨rfl, rfl⟩
  | constant text type => exact ⟨rfl, rfl⟩

theorem Alike.lookup (alike : names.Alike names') (line line' : Nat) (name : String) :
    (names.lookup line name).2.Alike (names'.lookup line' name).2 := by
  have known := alike.values name
  unfold Names.lookup
  cases found : names.values.find? name with
  | some value =>
      cases found' : names'.values.find? name with
      | some value' => exact alike
      | none => simp [Dictionary.contains, found, found'] at known
  | none =>
      cases found' : names'.values.find? name with
      | some value' => simp [Dictionary.contains, found, found'] at known
      | none =>
          constructor
          · intro other
            simp only [Names.fresh, Dictionary.contains_insert, alike.values other]
          · intro other
            simp only [Names.fresh, Dictionary.contains_insert, alike.pending other]

theorem Alike.bind (alike : names.Alike names') (line line' : Nat) (token : Token) :
    (names.bind line token).2.Alike (names'.bind line' token).2 := by
  by_cases named : ∃ name, token = .named name
  · obtain ⟨name, rfl⟩ := named
    exact alike.lookup line line' name
  · have unnamed : ∀ name, token ≠ .named name := fun name same => named ⟨name, same⟩
    obtain ⟨values, pending⟩ := names.bind_scope line unnamed
    obtain ⟨values', pending'⟩ := names'.bind_scope line' unnamed
    constructor
    · rw [values, values']
      exact alike.values
    · rw [pending, pending']
      exact alike.pending

theorem Alike.bindAll (alike : names.Alike names') (line line' : Nat) (tokens : List TypedToken) :
    (names.bindAll line tokens).2.Alike (names'.bindAll line' tokens).2 := by
  induction tokens generalizing names names' with
  | nil => exact alike
  | cons token rest ih => exact ih (alike.bind line line' token.token)

theorem Alike.define (alike : names.Alike names') {name : String} {value : Value}
    (defined : names.define name = .ok (value, after)) :
    ∃ value' after', names'.define name = .ok (value', after') ∧ after.Alike after' := by
  have known := alike.values name
  rcases define_cases defined with ⟨found, waits, rfl⟩ | ⟨absent, -, rfl⟩
  · cases found' : names'.values.find? name with
    | none => simp [Dictionary.contains, found, found'] at known
    | some value' =>
        have waits' : names'.pending.contains name = true := (alike.pending name).symm.trans waits
        refine ⟨value', { names' with pending := names'.pending.erase name }, ?_, alike.values, ?_⟩
        · simp [Names.define, found', waits']
        · intro other
          simp only [Dictionary.contains_erase, alike.pending other]
  · cases found' : names'.values.find? name with
    | some value' => simp [Dictionary.contains, absent, found'] at known
    | none =>
        have defined' : names'.define name =
            .ok (⟨names'.nextId, .result (some name)⟩, { names' with
              nextId := names'.nextId + 1,
              values := names'.values.insert name ⟨names'.nextId, .result (some name)⟩ }) := by
          simp [Names.define, found', Names.fresh]
        refine ⟨_, _, defined', ?_, alike.pending⟩
        intro other
        simp only [Dictionary.contains_insert, alike.values other]

theorem Alike.target (alike : names.Alike names') {line : Nat} {result : Option (List Char)}
    {value : Value} (targeted : Reader.target names line result = .ok (value, after))
    (line' : Nat) :
    ∃ value' after', Reader.target names' line' result = .ok (value', after') ∧
      after.Alike after' := by
  cases result with
  | none =>
      cases targeted
      exact ⟨_, _, rfl, alike.values, alike.pending⟩
  | some name =>
      obtain ⟨value', after', defined', alike'⟩ := alike.define (ok_of_atLine targeted)
      refine ⟨value', after', ?_, alike'⟩
      simp [Reader.target, defined', atLine]

end Names

structure Signature.Alike (signature signature' : Signature) : Prop where
  arguments : argumentsShown signature.arguments = argumentsShown signature'.arguments
  slot : signature.slot = signature'.slot

section Parameters

variable {line : Nat} {signature signature' next : Signature} {names names' after : Names}

theorem addArgument_alike (alike : signature.Alike signature') (namesAlike : names.Alike names')
    {name type : String} (added : addArgument line signature names name type = .ok (next, after))
    (line' : Nat) :
    ∃ next' after', addArgument line' signature' names' name type = .ok (next', after') ∧
      next.Alike next' ∧
      after.Alike after' := by
  unfold addArgument at added ⊢
  have same := namesAlike.values name
  split at added
  · cases added
  · next absent =>
      rw [same] at absent
      cases added
      rw [if_neg absent]
      refine ⟨_, _, rfl, ⟨?_, alike.slot⟩, ?_, namesAlike.pending⟩
      · have arguments := alike.arguments
        unfold argumentsShown at arguments ⊢
        rw [List.map_append, List.map_append, arguments]
        rfl
      · intro other
        simp only [Dictionary.contains_insert, namesAlike.values other]

theorem addParameter_alike (alike : signature.Alike signature') (namesAlike : names.Alike names')
    {parameter : Parameter}
    (added : addParameter line signature names parameter = .ok (next, after)) (line' : Nat) :
    ∃ next' after', addParameter line' signature' names' parameter = .ok (next', after') ∧
      next.Alike next' ∧
      after.Alike after' := by
  cases parameter with
  | variadic =>
      cases added
      exact ⟨_, _, rfl, alike, namesAlike⟩
  | unnamed type =>
      obtain ⟨name, written, more⟩ := bind_eq_ok.mp added
      have ahead : Signature.Alike { signature with slot := signature.slot + 1 }
          { signature' with slot := signature'.slot + 1 } :=
        ⟨alike.arguments, congrArg (· + 1) alike.slot⟩
      obtain ⟨next', after', added', result⟩ := addArgument_alike ahead namesAlike more line'
      rw [alike.slot] at written
      exact ⟨next', after', bind_eq_ok.mpr ⟨name, written, added'⟩, result⟩
  | named type name =>
      obtain ⟨slot, following, more⟩ := bind_eq_ok.mp added
      have ahead : Signature.Alike { signature with slot := slot }
          { signature' with slot := slot } := ⟨alike.arguments, rfl⟩
      obtain ⟨next', after', added', result⟩ := addArgument_alike ahead namesAlike more line'
      rw [alike.slot] at following
      exact ⟨next', after', bind_eq_ok.mpr ⟨slot, following, added'⟩, result⟩

theorem addPieces_alike (alike : signature.Alike signature') (namesAlike : names.Alike names')
    {pieces : List (List Char)} (added : addPieces line signature names pieces = .ok (next, after))
    (line' : Nat) :
    ∃ next' after', addPieces line' signature' names' pieces = .ok (next', after') ∧
      next.Alike next' ∧
      after.Alike after' := by
  induction pieces generalizing signature signature' names names' with
  | nil =>
      cases added
      exact ⟨_, _, rfl, alike, namesAlike⟩
  | cons piece rest ih =>
      obtain ⟨parameter, read, more⟩ := bind_eq_ok.mp added
      obtain ⟨⟨middle, between⟩, one, last⟩ := bind_eq_ok.mp more
      obtain ⟨middle', between', one', alike', namesAlike'⟩ :=
        addParameter_alike alike namesAlike one line'
      obtain ⟨next', after', last', result⟩ := ih alike' namesAlike' last
      exact ⟨next', after', bind_eq_ok.mpr ⟨parameter, read, bind_eq_ok.mpr ⟨_, one', last'⟩⟩,
        result⟩

end Parameters

structure Draft.Alike (draft draft' : Draft) : Prop where
  name : draft.name = draft'.name
  returnType : draft.returnType = draft'.returnType
  arguments : argumentsShown draft.arguments = argumentsShown draft'.arguments
  blocks : blocksShown draft.blocks = blocksShown draft'.blocks
  slot : draft.slot = draft'.slot
  opened : draft.current.isSome = draft'.current.isSome

namespace Draft.Alike

variable {draft draft' ready : Draft}

theorem shown (alike : draft.Alike draft') :
    functionShown draft.function = functionShown draft'.function := by
  unfold functionShown Draft.function
  rw [alike.name, alike.returnType, alike.arguments, alike.blocks]

theorem openBlock (alike : draft.Alike draft') (name : String) :
    (draft.openBlock name).Alike (draft'.openBlock name) := by
  refine ⟨alike.name, alike.returnType, alike.arguments, ?_, alike.slot, rfl⟩
  have shown : ∀ d : Draft, blocksShown (d.openBlock name).blocks =
      blocksShown d.blocks ++ [(name, [])] := by
    intro d
    simp [Draft.openBlock, Draft.blocks, blocksShown]
  rw [shown, shown, alike.blocks]

theorem ensureBlock (alike : draft.Alike draft') (ensured : draft.ensureBlock = .ok ready) :
    ∃ ready', draft'.ensureBlock = .ok ready' ∧ ready.Alike ready' := by
  have opened := alike.opened
  unfold Draft.ensureBlock at ensured ⊢
  cases isOpen : draft.current with
  | some block =>
      cases isOpen' : draft'.current with
      | none => simp [isOpen, isOpen'] at opened
      | some block' =>
          rw [isOpen] at ensured
          cases ensured
          exact ⟨draft', rfl, alike⟩
  | none =>
      cases isOpen' : draft'.current with
      | some block' => simp [isOpen, isOpen'] at opened
      | none =>
          rw [isOpen] at ensured
          obtain ⟨name, written, made⟩ := bind_eq_ok.mp ensured
          cases made
          rw [alike.slot] at written
          have before := alike.openBlock name
          have slots := congrArg (· + 1) alike.slot
          exact ⟨_, bind_eq_ok.mpr ⟨name, written, rfl⟩, before.name, before.returnType,
            before.arguments, before.blocks, slots, rfl⟩

theorem append (alike : draft.Alike draft') {block : Block} (isOpen : draft.current = some block)
    {inst inst' : Instruction} (written : inst.written = inst'.written) :
    (draft.append inst).Alike (draft'.append inst') := by
  obtain ⟨block', isOpen'⟩ := Option.isSome_iff_exists.mp
    (alike.opened.symm.trans (by rw [isOpen]; rfl))
  refine ⟨alike.name, alike.returnType, alike.arguments, ?_, alike.slot, by
    simp [Draft.append, isOpen, isOpen']⟩
  have before := alike.blocks
  simp only [Draft.blocks, isOpen, isOpen', blocksShown, Option.toList_some, List.map_append,
    List.map_cons, List.map_nil]
    at before
  obtain ⟨closed, last⟩ := List.append_inj' before rfl
  obtain ⟨sameName, sameTexts⟩ := Prod.mk.inj (List.cons.inj last).1
  simp [Draft.append, Draft.blocks, isOpen, isOpen', blocksShown, closed, sameName, sameTexts,
    written]

end Draft.Alike

/-- Two readers, each after functions of its own: those that they have read since look the same, and
so do the functions that are open. -/
structure Reader.Alike (before before' : List Function) (r r' : Reader) : Prop where
  functions : ∃ added added', r.functions = before ++ added ∧ r'.functions = before' ++ added' ∧
    List.Forall₂ (fun fn fn' => functionShown fn = functionShown fn') added added'
  draft : Option.Rel Draft.Alike r.draft r'.draft
  names : r.draft.isSome = true → r.names.Alike r'.names

namespace Reader.Alike

variable {before before' : List Function} {r r' next : Reader} {line : Nat} {text : List Char}

theorem of_outside (outside : r.draft = none) (outside' : r'.draft = none) :
    r.Alike r.functions r'.functions r' := by
  refine ⟨⟨[], [], by simp, by simp, .nil⟩, ?_, ?_⟩
  · rw [outside, outside']
    exact .none
  · intro inside
    simp [outside] at inside

theorem outside (alike : r.Alike before before' r')
    (outside : r.draft = none) : r'.draft = none := by
  have draft := alike.draft
  rw [outside] at draft
  generalize r'.draft = other at draft
  cases draft
  rfl

theorem inside (alike : r.Alike before before' r') {draft : Draft} (inside : r.draft = some draft) :
    ∃ draft', r'.draft = some draft' ∧ draft.Alike draft' ∧ r.names.Alike r'.names := by
  have related := alike.draft
  have names := alike.names (by rw [inside]; rfl)
  rw [inside] at related
  generalize r'.draft = other at related
  cases related with
  | some same => exact ⟨_, rfl, same, names⟩

theorem functions_concat (alike : r.Alike before before' r') {fn fn' : Function}
    (shown : functionShown fn = functionShown fn') :
    ∃ added added', r.functions ++ [fn] = before ++ added ∧
      r'.functions ++ [fn'] = before' ++ added' ∧
      List.Forall₂ (fun fn fn' => functionShown fn = functionShown fn') added added' := by
  obtain ⟨added, added', functions, functions', related⟩ := alike.functions
  refine ⟨added ++ [fn], added' ++ [fn'], ?_, ?_, List.rel_append related (.cons shown .nil)⟩
  · rw [functions, List.append_assoc]
  · rw [functions', List.append_assoc]

/-- A line that one reader gets through every reader alike gets through as well, whatever its number
is. -/
theorem step (alike : r.Alike before before' r') (step : Reader.Step r line text next)
    (line' : Nat) :
    ∃ next', r'.readLine line' text = .ok next' ∧ next.Alike before before' next' := by
  cases step with
  | skip outside form => exact ⟨r', readLine_of_step (.skip (alike.outside outside) form), alike⟩
  | declare outside form =>
      refine ⟨_, readLine_of_step (.declare (alike.outside outside) form), ?_⟩
      exact ⟨alike.functions_concat rfl, alike.draft, alike.names⟩
  | global outside form =>
      refine ⟨_, readLine_of_step (.global (alike.outside outside) form), alike.functions,
        alike.draft, fun inside => ?_⟩
      simp [outside] at inside
  | begin outside form parameters =>
      have empty : Signature.Alike {} {} := ⟨rfl, rfl⟩
      obtain ⟨signature', names', parameters', signatureAlike, namesAlike⟩ :=
        addPieces_alike empty (Names.Alike.newFunction r.names r'.names) parameters line'
      refine ⟨_, readLine_of_step (.begin (alike.outside outside) form parameters'),
        alike.functions, .some ?_, fun _ => namesAlike⟩
      exact ⟨rfl, rfl, signatureAlike.arguments, rfl, signatureAlike.slot, rfl⟩
  | close inside form settled =>
      obtain ⟨draft', inside', draftAlike, namesAlike⟩ := alike.inside inside
      have settled' : r'.names.pending.entries = [] := by
        rw [Dictionary.entries_eq_nil_iff] at settled ⊢
        intro name
        rw [← namesAlike.pending, settled]
      refine ⟨_, readLine_of_step (.close inside' form settled'), ?_⟩
      exact ⟨alike.functions_concat draftAlike.shown, .none, by simp⟩
  | label inside form =>
      obtain ⟨draft', inside', draftAlike, namesAlike⟩ := alike.inside inside
      exact ⟨_, readLine_of_step (.label inside' form), alike.functions,
        .some (draftAlike.openBlock _), fun _ => namesAlike⟩
  | instruction inside form ensured targeted stated filled =>
      obtain ⟨draft', inside', draftAlike, namesAlike⟩ := alike.inside inside
      obtain ⟨ready', ensured', readyAlike⟩ := draftAlike.ensureBlock ensured
      obtain ⟨value', names', targeted', afterAlike⟩ := namesAlike.target targeted line'
      obtain ⟨⟨block, isOpen⟩, -⟩ := Draft.ensureBlock_ok ensured
      refine ⟨_,
        readLine_of_step
          (.instruction inside' form ensured' targeted' (statement_any_line stated) rfl),
        alike.functions, .some (readyAlike.append isOpen ?_), fun _ => afterAlike.bindAll line line' _⟩
      simp [filled, Instruction.written, Reader.unfilled]

theorem leads (alike : r.Alike before before' r') {entries : List (Nat × List Char)} {last : Reader}
    (read : r.readLines entries = .ok last) :
    r'.Leads (entries.map (·.2)) fun last' => last.Alike before before' last' := by
  induction entries generalizing r r' with
  | nil =>
      cases read
      exact .nil alike
  | cons entry rest ih =>
      obtain ⟨line, text⟩ := entry
      obtain ⟨next, first, more⟩ := bind_eq_ok.mp read
      apply Reader.Leads.cons
      intro line'
      obtain ⟨next', first', after⟩ := alike.step (Reader.step_of_readLine first) line'
      exact ⟨next', first', ih after more⟩

end Reader.Alike

end ValueNumbering.Assembly
