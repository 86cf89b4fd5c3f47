import ValueNumbering.Proofs.Assembly.Drafts

/-!
The reader as a whole: every closed function holds the values that were made for it and defines each
name that it uses, and the tables of names agree with the objects. Every line keeps this, so an
accepted module has it.
-/

namespace ValueNumbering.Assembly

/-- A function to its closing brace. -/
structure Closed (objects : List Object) (function : Nat) (fn : Function) : Prop where
  filed : Filed objects function fn.arguments fn.instructions
  distinct : (definedNames fn.arguments fn.instructions).Nodup
  bound : ∀ inst ∈ fn.instructions, ∀ name, '%' :: name ∈ lineOperands (lineOf inst) →
    String.ofList name ∈ definedNames fn.arguments fn.instructions

theorem Closed.grow {objects after : List Object} {function : Nat} {fn : Function}
    (closed : Closed objects function fn) (grown : objects <+: after) : Closed after function fn :=
  ⟨closed.filed.grow grown, closed.distinct, closed.bound⟩

theorem Closed.empty (objects : List Object) (function : Nat) {fn : Function}
    (noArguments : fn.arguments = []) (noBlocks : fn.blocks = []) : Closed objects function fn := by
  have noInstructions : fn.instructions = [] := by simp [Function.instructions, noBlocks]
  refine ⟨?_, ?_, ?_⟩
  · rw [noArguments, noInstructions]
    exact Filed.empty objects function
  · simp [definedNames, noArguments, noInstructions]
  · simp [noInstructions]

theorem Drafted.close {objects : List Object} {function : Nat} {draft : Draft} {names : Names}
    (drafted : Drafted objects function draft.arguments draft.instructions names)
    (settled : names.pending.entries = []) : Closed objects function draft.function := by
  refine ⟨drafted.filed, drafted.accounted.distinct, ?_⟩
  intro inst member name used
  obtain ⟨i, found⟩ := List.mem_iff_getElem?.mp member
  have written := drafted.filed.written i inst found
  obtain ⟨p, isText⟩ := List.mem_iff_getElem?.mp used
  have inside : p < inst.operands.length := written.length ▸ (List.getElem?_eq_some_iff.mp isText).1
  obtain ⟨token, reads, value, -⟩ := written.operand p _ inst.operands[p] isText (by simp [inside])
  cases reads
  have known := (drafted.coherent.values (String.ofList name)).trans value
  rcases drafted.accounted.covered known with defined | waits
  · exact defined
  · simp [Dictionary.contains, Dictionary.find?, settled] at waits

structure Consistent (objects : List Object) (r : Reader) : Prop where
  closed : ∀ i fn, r.functions[i]? = some fn → Closed objects i fn
  outside : r.draft = none → Coherent objects ⟨r.functions.length, 0, 0⟩ r.names.newFunction
  inside : ∀ draft, r.draft = some draft →
    Drafted objects r.functions.length draft.arguments draft.instructions r.names

namespace Consistent

variable {objects : List Object} {r next : Reader}

theorem start : Consistent [] {} := ⟨by simp, fun _ => Coherent.start, by simp⟩

theorem closed_grow (consistent : Consistent objects r) {after : List Object}
    (grown : objects <+: after) :
    ∀ i fn, r.functions[i]? = some fn → Closed after i fn :=
  fun i fn found => (consistent.closed i fn found).grow grown

theorem closed_concat (consistent : Consistent objects r) {fn : Function}
    (last : Closed objects r.functions.length fn) :
    ∀ i other, (r.functions ++ [fn])[i]? = some other → Closed objects i other := by
  intro i other found
  rcases getElem?_concat_cases found with old | ⟨rfl, rfl⟩
  · exact consistent.closed i other old
  · exact last

theorem declare (consistent : Consistent objects r) (outside : r.draft = none) {fn : Function}
    (noArguments : fn.arguments = []) (noBlocks : fn.blocks = []) :
    Consistent objects { r with functions := r.functions ++ [fn] } where
  closed := consistent.closed_concat (Closed.empty objects _ noArguments noBlocks)
  outside := by
    intro _
    simpa [Names.newFunction] using (consistent.outside outside).newFunction
  inside := by simp [outside]

theorem newFunction_defineGlobal (names : Names) (name initializer : String) :
    (names.defineGlobal name initializer).newFunction =
      names.newFunction.defineGlobal name initializer := by
  simp only [Names.defineGlobal, Names.global, Names.newFunction]
  split <;> rfl

theorem defineGlobal (consistent : Consistent objects r) (outside : r.draft = none)
    (name initializer : String) :
    ∃ after, Consistent after { r with names := r.names.defineGlobal name initializer } := by
  obtain ⟨after, grown, coherent⟩ := (consistent.outside outside).defineGlobal name initializer
  refine ⟨after, consistent.closed_grow grown, ?_, by simp [outside]⟩
  intro _
  rw [newFunction_defineGlobal]
  exact coherent

theorem begin (consistent : Consistent objects r) (outside : r.draft = none) {line : Nat}
    {params : List Char} {signature : Signature} {names : Names}
    (parameters : readParameters line r.names.newFunction params = .ok (signature, names))
    {draft : Draft} (arguments : draft.arguments = signature.arguments)
    (noInstructions : draft.instructions = []) :
    ∃ after, Consistent after { r with names := names, draft := some draft } := by
  have empty : Drafted objects r.functions.length ({} : Signature).arguments []
      r.names.newFunction :=
    ⟨Filed.empty _ _, consistent.outside outside, Accounted.newFunction _⟩
  obtain ⟨after, grown, drafted⟩ := empty.addPieces parameters
  refine ⟨after, consistent.closed_grow grown, by simp, ?_⟩
  intro other isDraft
  cases isDraft
  rw [arguments, noInstructions]
  exact drafted

theorem close (consistent : Consistent objects r) {draft : Draft} (inside : r.draft = some draft)
    (settled : r.names.pending.entries = []) :
    Consistent objects { r with functions := r.functions ++ [draft.function], draft := none } where
  closed := consistent.closed_concat ((consistent.inside draft inside).close settled)
  outside := by
    intro _
    simpa using (consistent.inside draft inside).coherent.newFunction
  inside := by simp

theorem label (consistent : Consistent objects r) {draft : Draft} (inside : r.draft = some draft)
    (name : String) : Consistent objects { r with draft := some (draft.openBlock name) } where
  closed := consistent.closed
  outside := by simp
  inside := by
    intro other isDraft
    cases isDraft
    simpa using consistent.inside draft inside

theorem instruction (consistent : Consistent objects r) {draft ready : Draft} {line : Nat}
    {text mnemonic rest : List Char} {result : Option (List Char)} {v : Value} {names : Names}
    {statement : Statement} {inst : Instruction} (inside : r.draft = some draft)
    (form : BodyLine.read text = .ok (.instruction result mnemonic rest))
    (ensured : draft.ensureBlock = .ok ready)
    (targeted : Reader.target r.names line result = .ok (v, names))
    (stated : Statement.read line (Opcode.ofMnemonic (String.ofList mnemonic)) rest = .ok statement)
    (filled : inst = (Reader.fill names line
      (Reader.unfilled v (Opcode.ofMnemonic (String.ofList mnemonic)) result text) statement).1) :
    ∃ after, Consistent after { r with
      names := (names.bindAll line statement.tokens).2
      draft := some (ready.append inst) } := by
  obtain ⟨⟨block, opened⟩, instructions, arguments⟩ := Draft.ensureBlock_ok ensured
  obtain ⟨after, grown, drafted⟩ :=
    (consistent.inside draft inside).addInstruction form targeted stated filled
  refine ⟨after, consistent.closed_grow grown, by simp, ?_⟩
  intro other isDraft
  cases isDraft
  rw [Draft.append_arguments, Draft.append_instructions opened, instructions, arguments]
  exact drafted

theorem step (consistent : Consistent objects r) {line : Nat} {text : List Char}
    (step : Reader.Step r line text next) : ∃ after, Consistent after next := by
  cases step with
  | skip outside form => exact ⟨objects, consistent⟩
  | declare outside form => exact ⟨objects, consistent.declare outside rfl rfl⟩
  | global outside form => exact consistent.defineGlobal outside _ _
  | begin outside form parameters => exact consistent.begin outside parameters rfl rfl
  | close inside form settled => exact ⟨objects, consistent.close inside settled⟩
  | label inside form => exact ⟨objects, consistent.label inside _⟩
  | instruction inside form ensured targeted stated filled =>
      exact consistent.instruction inside form ensured targeted stated filled

end Consistent

/-- What the objects of a module say of it. -/
structure Made (objects : List Object) (m : Module) : Prop where
  closed : ∀ i fn, m.functions[i]? = some fn → Closed objects i fn
  globals : ∀ name, (m.globals.find? name).map (·.value) = value? objects (.global name)
  globalName : ∀ {name found}, m.globals.find? name = some found → found.name = name

theorem made_of_read {text name : String} {m : Module} (accepted : read text name = .ok m) :
    ∃ objects, Made objects m := by
  obtain ⟨r, ⟨objects, consistent⟩, outside, functions, globals⟩ :=
    invariant_of_read (fun _ r => ∃ objects, Consistent objects r) ⟨[], Consistent.start⟩
      (fun _ r line text next held step => held.elim fun _ consistent => consistent.step step)
        accepted
  have coherent := consistent.outside outside
  refine ⟨objects, ?_, ?_, ?_⟩
  · rw [functions]
    exact consistent.closed
  · rw [globals]
    exact coherent.globals
  · rw [globals]
    exact coherent.globalName

end ValueNumbering.Assembly
