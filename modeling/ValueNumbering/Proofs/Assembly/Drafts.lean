import ValueNumbering.Proofs.Lists
import ValueNumbering.Proofs.Assembly.Definitions

/-!
A function while it is read: every argument, result and operand so far is the value that was made
for it, and the names of the function are accounted for.
-/

namespace ValueNumbering.Assembly

def definedNames (arguments : List Argument) (instructions : List Instruction) : List String :=
  arguments.map (·.name) ++ instructions.filterMap (·.name)

def lineOf (inst : Instruction) : List Char := (inst.text.getD "").toList

def resultKey (point : Point) : Option String → Key
  | some name => .named point.function name
  | none => .single point

/-- An instruction is what its line says, and its operands are the values made for their texts. -/
structure Written (objects : List Object) (function index : Nat) (inst : Instruction) : Prop where
  text : inst.text = some (String.ofList (lineOf inst))
  form : ∃ result mnemonic rest,
    BodyLine.read (lineOf inst) = .ok (.instruction result mnemonic rest) ∧
    inst.opcode = Opcode.ofMnemonic (String.ofList mnemonic) ∧ inst.name = result.map String.ofList
  count : inst.operands.length = inst.opcode.operandCount
  length : (lineOperands (lineOf inst)).length = inst.operands.length
  operand : ∀ p written (operand : Operand), (lineOperands (lineOf inst))[p]? = some written →
    inst.operands[p]? = some operand → ∃ token, Token.read written operand.type = .ok token ∧
      value? objects (token.key (.operand function index p)) = some operand.value ∧
      token.Allows operand.value.form

structure Filed (objects : List Object) (function : Nat) (arguments : List Argument)
    (instructions : List Instruction) : Prop where
  argument : ∀ arg ∈ arguments, value? objects (.named function arg.name) = some arg.value
  result : ∀ i (inst : Instruction), instructions[i]? = some inst →
    value? objects (resultKey ⟨function, i, 0⟩ inst.name) = some inst.result
  written : ∀ i (inst : Instruction), instructions[i]? = some inst → Written objects function i inst

theorem Written.grow {objects after : List Object} {function index : Nat} {inst : Instruction}
    (written : Written objects function index inst) (grown : objects <+: after) :
    Written after function index inst := by
  refine ⟨written.text, written.form, written.count, written.length, ?_⟩
  intro p text operand isText isOperand
  obtain ⟨token, reads, value, form⟩ := written.operand p text operand isText isOperand
  exact ⟨token, reads, value?_grow grown value, form⟩

namespace Filed

variable {objects after : List Object} {function : Nat} {arguments : List Argument}
  {instructions : List Instruction}

theorem empty (objects : List Object) (function : Nat) : Filed objects function [] [] :=
  ⟨by simp, by simp, by simp⟩

theorem grow (filed : Filed objects function arguments instructions) (grown : objects <+: after) :
    Filed after function arguments instructions where
  argument := fun arg member => value?_grow grown (filed.argument arg member)
  result := fun i inst found => value?_grow grown (filed.result i inst found)
  written := fun i inst found => (filed.written i inst found).grow grown

theorem addArgument (filed : Filed objects function arguments instructions) {arg : Argument}
    (made : value? objects (.named function arg.name) = some arg.value) :
    Filed objects function (arguments ++ [arg]) instructions where
  argument := by
    intro other member
    rcases List.mem_append.mp member with old | new
    · exact filed.argument other old
    · rw [List.mem_singleton.mp new]
      exact made
  result := filed.result
  written := filed.written

theorem addInstruction (filed : Filed objects function arguments instructions) {inst : Instruction}
    (made : value? objects (resultKey ⟨function, instructions.length, 0⟩ inst.name) =
      some inst.result)
    (written : Written objects function instructions.length inst) :
    Filed objects function arguments (instructions ++ [inst]) where
  argument := filed.argument
  result := by
    intro i other found
    rcases getElem?_concat_cases found with old | ⟨rfl, rfl⟩
    · exact filed.result i other old
    · exact made
  written := by
    intro i other found
    rcases getElem?_concat_cases found with old | ⟨rfl, rfl⟩
    · exact filed.written i other old
    · exact written

end Filed

theorem Coherent.fill {objects : List Object} {function index line : Nat} {names : Names}
    {text mnemonic rest : List Char} {result : Option (List Char)} {statement : Statement}
    (coherent : Coherent objects ⟨function, index, 1⟩ names)
    (form : BodyLine.read text = .ok (.instruction result mnemonic rest))
    (stated : Statement.read line (Opcode.ofMnemonic (String.ofList mnemonic)) rest = .ok statement)
    (v : Value) :
    ∃ after, objects <+: after ∧
      Coherent after ⟨function, index, 1 + statement.tokens.length⟩
        (names.bindAll line statement.tokens).2 ∧
      Written after function index (Reader.fill names line
        (Reader.unfilled v (Opcode.ofMnemonic (String.ofList mnemonic)) result text)
          statement).1 := by
  obtain ⟨after, grown, coherent', length, each⟩ := coherent.bindAll line statement.tokens
  obtain ⟨reads, count⟩ := statement_operands stated
  let inst := (Reader.fill names line
    (Reader.unfilled v (Opcode.ofMnemonic (String.ofList mnemonic)) result text) statement).1
  have operands : inst.operands = (names.bindAll line statement.tokens).1 :=
    Reader.fill_operands _ _ _ _ rfl
  have opcode : inst.opcode = Opcode.ofMnemonic (String.ofList mnemonic) := by
    simp [inst, Reader.unfilled]
  have name : inst.name = result.map String.ofList := by simp [inst, Reader.unfilled]
  have kept : inst.text = some (String.ofList text) := by simp [inst, Reader.unfilled]
  have line_eq : lineOf inst = text := by simp [lineOf, kept]
  have texts : lineOperands (lineOf inst) =
      operandTexts (Opcode.ofMnemonic (String.ofList mnemonic)) rest := by
    simp [line_eq, lineOperands, form]
  -- The points of the operands follow the one of the result, in the order of the tokens.
  refine ⟨after, grown, coherent', ?_, ⟨result, mnemonic, rest, ?_, opcode, name⟩, ?_, ?_, ?_⟩
  · rw [line_eq, kept]
  · rw [line_eq, form]
  · rw [operands, opcode, length, count]
  · rw [texts, operands, length, reads.length_eq]
  · intro p written operand isText isOperand
    rw [texts] at isText
    rw [operands] at isOperand
    obtain ⟨inside, isWritten⟩ := List.getElem?_eq_some_iff.mp isText
    have inside' : p < statement.tokens.length := reads.length_eq ▸ inside
    have read := reads.get inside inside'
    obtain ⟨type, found, allowed⟩ :=
      each p statement.tokens[p] operand (by simp [inside']) isOperand
    refine ⟨statement.tokens[p].token, ?_, ?_, allowed⟩
    · rw [type, ← isWritten]
      exact read
    · simpa [Point.operand, Nat.add_comm] using found

/-- A function whose closing brace has not come: what has been made for it, at the point where the
next instruction begins. -/
structure Drafted (objects : List Object) (function : Nat) (arguments : List Argument)
    (instructions : List Instruction) (names : Names) : Prop where
  filed : Filed objects function arguments instructions
  coherent : Coherent objects ⟨function, instructions.length, 0⟩ names
  accounted : Accounted names (definedNames arguments instructions)

namespace Drafted

variable {objects : List Object} {function : Nat} {arguments : List Argument}
    {instructions : List Instruction}
  {names after : Names}

theorem addArgument {line : Nat} {signature signature' : Signature} {name type : String}
    (drafted : Drafted objects function signature.arguments [] names)
    (added : Assembly.addArgument line signature names name type = .ok (signature', after)) :
    ∃ grown, objects <+: grown ∧ Drafted grown function signature'.arguments [] after := by
  obtain ⟨absent, arguments, rfl⟩ := addArgument_ok added
  let arg : Argument := ⟨names.nextId, name, type⟩
  let grown := objects ++ [⟨.named function name, arg.value.form⟩]
  have made : value? grown (.named function name) = some arg.value := by
    have unmade : value? objects (.named function name) = none :=
      drafted.coherent.values name ▸ absent
    rw [value?_concat unmade, if_pos rfl, ← drafted.coherent.nextId]
    rfl
  refine ⟨grown, List.prefix_append _ _, ?_,
    drafted.coherent.named absent arg.value.form names.pending, ?_⟩
  · rw [arguments]
    exact (drafted.filed.grow (List.prefix_append _ _)).addArgument made
  · have accounted := drafted.accounted.insert absent arg.value (names.nextId + 1)
    simpa [definedNames, arguments, arg, Argument.value] using accounted

theorem addPieces {line : Nat} {pieces : List (List Char)} {signature signature' : Signature}
    (drafted : Drafted objects function signature.arguments [] names)
    (added : Assembly.addPieces line signature names pieces = .ok (signature', after)) :
    ∃ grown, objects <+: grown ∧ Drafted grown function signature'.arguments [] after := by
  induction pieces generalizing objects signature names with
  | nil =>
      cases added
      exact ⟨objects, List.prefix_refl _, drafted⟩
  | cons piece rest ih =>
      obtain ⟨parameter, -, more⟩ := bind_eq_ok.mp added
      obtain ⟨⟨middle, between⟩, one, last⟩ := bind_eq_ok.mp more
      rcases addParameter_ok one with ⟨rfl, rfl⟩ | ⟨earlier, name, type, same, argument⟩
      · exact ih drafted last
      · rw [← same] at drafted
        obtain ⟨grown, more, next⟩ := drafted.addArgument argument
        obtain ⟨whole, more', next'⟩ := ih next last
        exact ⟨whole, more.trans more', next'⟩

theorem target {line : Nat} {result : Option (List Char)} {v : Value}
    (drafted : Drafted objects function arguments instructions names)
    (targeted : Reader.target names line result = .ok (v, after)) :
    ∃ grown, objects <+: grown ∧ Coherent grown ⟨function, instructions.length, 1⟩ after ∧
      value? grown (resultKey ⟨function, instructions.length, 0⟩ (result.map String.ofList)) =
        some v ∧
      v.form = .result (result.map String.ofList) ∧
      Accounted after (definedNames arguments instructions ++
        (result.map String.ofList).toList) := by
  have ahead : Point.Before ⟨function, instructions.length, 0⟩ ⟨function, instructions.length, 1⟩ :=
    Point.before_next _
  cases result with
  | none =>
      cases targeted
      refine ⟨_, List.prefix_append _ _, drafted.coherent.fresh (.result none), ?_, rfl, ?_⟩
      · have unmade := drafted.coherent.absent_single
        simp [resultKey, value?_concat unmade, drafted.coherent.nextId]
      · simpa [Names.fresh] using drafted.accounted.fresh (.result none)
  | some text =>
      have defined := ok_of_atLine targeted
      -- A name that was used before has its object already; else the definition makes one.
      rcases define_cases defined with ⟨known, waits, rfl⟩ | ⟨absent, rfl, rfl⟩
      · obtain ⟨w, found, form⟩ := drafted.accounted.waiting waits
        have same : v = w := Option.some.inj (known.symm.trans found)
        refine ⟨objects, List.prefix_refl _, (drafted.coherent.withPending _).advance rfl ahead,
          drafted.coherent.values _ ▸ known, same ▸ form, ?_⟩
        simpa using drafted.accounted.settle waits
      · have unmade := drafted.coherent.values _ ▸ absent
        refine ⟨_, List.prefix_append _ _,
          (drafted.coherent.named absent _ names.pending).advance rfl ahead, ?_, rfl, ?_⟩
        · simp [resultKey, value?_concat unmade, drafted.coherent.nextId]
        · simpa using drafted.accounted.insert absent _ (names.nextId + 1)

/-- A line that holds an instruction adds it to the function. -/
theorem addInstruction {line : Nat} {text mnemonic rest : List Char} {result : Option (List Char)}
    {v : Value} {statement : Statement} {inst : Instruction}
    (drafted : Drafted objects function arguments instructions names)
    (form : BodyLine.read text = .ok (.instruction result mnemonic rest))
    (targeted : Reader.target names line result = .ok (v, after))
    (stated : Statement.read line (Opcode.ofMnemonic (String.ofList mnemonic)) rest = .ok statement)
    (filled : inst = (Reader.fill after line
      (Reader.unfilled v (Opcode.ofMnemonic (String.ofList mnemonic)) result text) statement).1) :
    ∃ grown, objects <+: grown ∧ Drafted grown function arguments (instructions ++ [inst])
      (after.bindAll line statement.tokens).2 := by
  obtain ⟨middle, grown, coherent, made, resultForm, accounted⟩ := drafted.target targeted
  obtain ⟨last, grown', coherent', written⟩ := coherent.fill form stated v
  have name : inst.name = result.map String.ofList := by simp [filled, Reader.unfilled]
  have value : inst.result = v := filled ▸ Reader.fill_result resultForm after line _ text statement
  refine ⟨last, grown.trans grown', ?_, ?_, ?_⟩
  · have filed := drafted.filed.grow (grown.trans grown')
    have resultMade := value?_grow grown' made
    apply filed.addInstruction
    · rw [name, value]
      exact resultMade
    · exact filled ▸ written
  · have ahead : Point.Before ⟨function, instructions.length, 1 + statement.tokens.length⟩
        ⟨function, (instructions ++ [inst]).length, 0⟩ := Or.inr ⟨rfl, Or.inl (by simp)⟩
    exact coherent'.advance rfl ahead
  · have accounted' := accounted.bindAll line statement.tokens
    cases result with
    | none => simpa [definedNames, name] using accounted'
    | some text => simpa [definedNames, name] using accounted'

end Drafted

end ValueNumbering.Assembly
