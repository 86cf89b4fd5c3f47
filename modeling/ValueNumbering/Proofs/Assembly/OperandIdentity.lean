import ValueNumbering.Proofs.Assembly.Consistency
import ValueNumbering.Proofs.Assembly.Coreference
import ValueNumbering.Proofs.Assembly.Outline

/-!
Which operands of an accepted text are one object, and what each stands for, said of the text alone:
of the places of operands in it and of their texts.
-/

namespace ValueNumbering.Assembly

open Text

/-- Where an operand stands: the function, the instruction and the operand, each counted from
zero. -/
structure Place where
  function : Nat
  instruction : Nat
  operand : Nat
  deriving DecidableEq, Repr

namespace Place

def text? (place : Place) (text : String) : Option (List Char) := do
  let lines ← (instructionLines text)[place.function]?
  let line ← lines[place.instruction]?
  (lineOperands line)[place.operand]?

def operand? (place : Place) (m : Module) : Option Operand := do
  let fn ← m.functions[place.function]?
  let inst ← fn.instructions[place.instruction]?
  inst.operands[place.operand]?

def point (place : Place) : Point := .operand place.function place.instruction place.operand

theorem point_inj {first second : Place} : first.point = second.point ↔ first = second := by
  cases first
  cases second
  simp [point, Point.operand]

end Place

def Holder (m : Module) (id : Nat) : Prop :=
  (∃ fn ∈ m.functions, (∃ arg ∈ fn.arguments, arg.id = id) ∨
    ∃ inst ∈ fn.instructions, inst.id = id) ∨
    ∃ name found, m.globals.find? name = some found ∧ found.id = id

def Key.OfHolder : Key → Prop
  | .named _ _ => True
  | .global _ => True
  | .expression _ => False
  | .single point => point.slot = 0

/-- What the text of an operand of a function stands for. -/
inductive Denotes (m : Module) (fn : Function) (type : String) : List Char → Value → Prop
  | argument {name : List Char} {arg : Argument}
      (one : fn.arguments.filter (·.name = String.ofList name) = [arg])
      (none : fn.instructions.filter (·.name = some (String.ofList name)) = []) :
      Denotes m fn type ('%' :: name) arg.value
  | result {name : List Char} {inst : Instruction}
      (one : fn.instructions.filter (·.name = some (String.ofList name)) = [inst])
      (none : fn.arguments.filter (·.name = String.ofList name) = []) :
      Denotes m fn type ('%' :: name) inst.result
  | global {name : List Char} {found : Global}
      (stored : m.globals.find? (String.ofList name) = some found)
      (named : found.name = String.ofList name) : Denotes m fn type ('@' :: name) found.value
  | integer {text : List Char} {v : Value} {value : Int} (digits : isIntegerText text = true)
      (read : Integer.read text = .ok value) (form : v.form = .literal value type)
      (own : ¬ Holder m v.id) :
      Denotes m fn type text v
  | isTrue {v : Value} (form : v.form = .literal 1 "i1") (own : ¬ Holder m v.id) :
      Denotes m fn type "true".toList v
  | isFalse {v : Value} (form : v.form = .literal 0 "i1") (own : ¬ Holder m v.id) :
      Denotes m fn type "false".toList v
  | expression {text : List Char} {v : Value} {first : String}
      (expression : IsConstantExpression text)
      (form : v.form = .constant (String.ofList (collapse text)) first) (own : ¬ Holder m v.id) :
      Denotes m fn type text v
  | constant {text : List Char} {v : Value} (notNamed : text.head? ≠ some '%')
      (notGlobal : text.head? ≠ some '@') (notInteger : isIntegerText text = false)
      (notExpression : isExpression text = false)
      (form : v.form = .constant (String.ofList text) type)
      (own : ¬ Holder m v.id) : Denotes m fn type text v

/-- The identity of the operands of a text, in the module that it is read as. -/
structure OperandIdentity (text : String) (m : Module) : Prop where
  /-- The instructions of the module are those of the text, each with its line. -/
  lines : m.functions.map (fun fn => fn.instructions.map (·.text)) =
    (instructionLines text).map fun lines => lines.map fun line => some (String.ofList line)
  /-- An instruction has the opcode and the result name that its line says. -/
  instructions : ∀ fn ∈ m.functions, ∀ inst ∈ fn.instructions, ∃ result mnemonic rest,
    BodyLine.read (lineOf inst) = .ok (.instruction result mnemonic rest) ∧
      inst.opcode = Opcode.ofMnemonic (String.ofList mnemonic) ∧
        inst.name = result.map String.ofList
  /-- There is an operand at a place where there is a text of one. -/
  operands : ∀ place : Place, (place.operand? m).isSome = (place.text? text).isSome
  /-- Two operands are one object when they stand at one place or their texts say so. -/
  same : ∀ (first second : Place) x y left right, first.operand? m = some x →
    second.operand? m = some y →
    first.text? text = some left → second.text? text = some right →
    (x.value = y.value ↔ first = second ∨ Coreferent first.function second.function left right) ∧
      (x.value.id = y.value.id ↔ first = second ∨
        Coreferent first.function second.function left right)
  /-- Every operand is what its text stands for. -/
  denotes : ∀ (place : Place) fn x written, m.functions[place.function]? = some fn →
    place.operand? m = some x → place.text? text = some written →
      Denotes m fn x.type written x.value

theorem Place.operand?_eq_some {place : Place} {m : Module} {x : Operand}
    (found : place.operand? m = some x) :
    ∃ fn inst, m.functions[place.function]? = some fn ∧
      fn.instructions[place.instruction]? = some inst ∧
      inst.operands[place.operand]? = some x := by
  obtain ⟨fn, isFunction, rest⟩ := Option.bind_eq_some_iff.mp found
  obtain ⟨inst, isInstruction, isOperand⟩ := Option.bind_eq_some_iff.mp rest
  exact ⟨fn, inst, isFunction, isInstruction, isOperand⟩

theorem Place.text?_eq {place : Place} {m : Module} {text : String}
    (lines : m.functions.map (fun fn => fn.instructions.map lineOf) = instructionLines text) :
    place.text? text = (m.functions[place.function]?).bind fun fn =>
      (fn.instructions[place.instruction]?).bind fun inst =>
        (lineOperands (lineOf inst))[place.operand]? := by
  unfold Place.text?
  rw [← lines, List.getElem?_map]
  cases m.functions[place.function]? with
  | none => rfl
  | some fn =>
      simp only [Option.map_some, Option.bind_some, List.getElem?_map, bind]
      cases fn.instructions[place.instruction]? with
      | none => rfl
      | some inst => rfl

namespace Made

variable {objects : List Object} {m : Module}

theorem written (made : Made objects m) {function index : Nat} {fn : Function} {inst : Instruction}
    (isFunction : m.functions[function]? = some fn)
    (isInstruction : fn.instructions[index]? = some inst) :
    Written objects function index inst := by
  have closed := made.closed function fn isFunction
  exact closed.filed.written index inst isInstruction

theorem written_of_mem (made : Made objects m) {fn : Function} (member : fn ∈ m.functions)
    {inst : Instruction} (isInstruction : inst ∈ fn.instructions) :
    ∃ i j, Written objects i j inst := by
  obtain ⟨i, isFunction⟩ := List.mem_iff_getElem?.mp member
  obtain ⟨j, isAt⟩ := List.mem_iff_getElem?.mp isInstruction
  exact ⟨i, j, made.written isFunction isAt⟩

theorem operands (made : Made objects m) {text : String}
    (lines : m.functions.map (fun fn => fn.instructions.map lineOf) = instructionLines text)
    (place : Place) :
    (place.operand? m).isSome = (place.text? text).isSome := by
  rw [Place.text?_eq lines]
  unfold Place.operand?
  cases isFunction : m.functions[place.function]? with
  | none => rfl
  | some fn =>
      cases isInstruction : fn.instructions[place.instruction]? with
      | none => simp [isInstruction]
      | some inst =>
          have length := (made.written isFunction isInstruction).length
          have sameBound : inst.operands[place.operand]?.isSome =
              (lineOperands (lineOf inst))[place.operand]?.isSome := by
            rw [Option.isSome_eq_isSome, List.getElem?_eq_none_iff,
              List.getElem?_eq_none_iff, length]
          simpa [isInstruction] using sameBound

/-- An operand of an accepted module is the value that was made for its token. -/
theorem operand (made : Made objects m) {text : String}
    (lines : m.functions.map (fun fn => fn.instructions.map lineOf) = instructionLines text)
    {place : Place} {x : Operand} {written : List Char} (isOperand : place.operand? m = some x)
    (isText : place.text? text = some written) :
    ∃ token, Token.read written x.type = .ok token ∧
      value? objects (token.key place.point) = some x.value ∧
      token.Allows x.value.form := by
  obtain ⟨fn, inst, isFunction, isInstruction, isOperand⟩ := Place.operand?_eq_some isOperand
  rw [Place.text?_eq lines] at isText
  simp only [isFunction, isInstruction, Option.bind_some] at isText
  exact (made.written isFunction isInstruction).operand place.operand written x isText isOperand

theorem same (made : Made objects m) {text : String}
    (lines : m.functions.map (fun fn => fn.instructions.map lineOf) = instructionLines text)
    {first second : Place} {x y : Operand} {left right : List Char}
    (isFirst : first.operand? m = some x) (isSecond : second.operand? m = some y)
    (isLeft : first.text? text = some left) (isRight : second.text? text = some right) :
    (x.value = y.value ↔ first = second ∨ Coreferent first.function second.function left right) ∧
      (x.value.id = y.value.id ↔ first = second ∨
        Coreferent first.function second.function left right) := by
  obtain ⟨token, reads, value, -⟩ := made.operand lines isFirst isLeft
  obtain ⟨token', reads', value', -⟩ := made.operand lines isSecond isRight
  have alike : first.point = second.point → token = token' := by
    intro at_
    obtain rfl := Place.point_inj.mp at_
    have sameText : left = right := Option.some.inj (isLeft.symm.trans isRight)
    have sameOperand : x = y := Option.some.inj (isFirst.symm.trans isSecond)
    rw [sameText, sameOperand, reads'] at reads
    exact (Except.ok.inj reads).symm
  have keys := key_eq_iff reads reads' alike
  rw [Place.point_inj] at keys
  have valueOfKey : token.key first.point = token'.key second.point → x.value = y.value := by
    intro key
    rw [key, value'] at value
    exact (Option.some.inj value).symm
  refine ⟨⟨fun equal => keys.mp (key_unique value value' (congrArg Value.id equal)), ?_⟩,
    ⟨fun equal => keys.mp (key_unique value value' equal), ?_⟩⟩
  · intro coreferent
    exact valueOfKey (keys.mpr coreferent)
  · intro coreferent
    exact congrArg Value.id (valueOfKey (keys.mpr coreferent))

theorem key_of_holder (made : Made objects m) {id : Nat} (holder : Holder m id) :
    ∃ key v, value? objects key = some v ∧ v.id = id ∧ key.OfHolder := by
  rcases holder with ⟨fn, member, ⟨arg, isArgument, rfl⟩ | ⟨inst, isInstruction, rfl⟩⟩ | ⟨name,
    found, stored, rfl⟩
  · obtain ⟨i, isFunction⟩ := List.mem_iff_getElem?.mp member
    have filed := (made.closed i fn isFunction).filed.argument arg isArgument
    exact ⟨_, _, filed, rfl, trivial⟩
  · obtain ⟨i, isFunction⟩ := List.mem_iff_getElem?.mp member
    obtain ⟨j, isAt⟩ := List.mem_iff_getElem?.mp isInstruction
    have filed := (made.closed i fn isFunction).filed.result j inst isAt
    refine ⟨_, _, filed, rfl, ?_⟩
    cases inst.name with
    | none => rfl
    | some name => trivial
  · have value := made.globals name
    rw [stored] at value
    exact ⟨_, _, value.symm, rfl, trivial⟩

theorem not_holder (made : Made objects m) {key : Key} {v : Value}
    (value : value? objects key = some v) (own : ¬ key.OfHolder) : ¬ Holder m v.id := by
  intro holder
  obtain ⟨other, w, found, same, kind⟩ := made.key_of_holder holder
  have keys : other = key := key_unique found value same
  exact own (keys ▸ kind)

theorem denotes_named (made : Made objects m) {function : Nat} {fn : Function}
    (isFunction : m.functions[function]? = some fn) {inst : Instruction}
    (member : inst ∈ fn.instructions) {name : List Char}
    (used : '%' :: name ∈ lineOperands (lineOf inst)) {v : Value}
    (value : value? objects (.named function (String.ofList name)) = some v) (type : String) :
    Denotes m fn type ('%' :: name) v := by
  have closed := made.closed function fn isFunction
  obtain ⟨argumentsApart, resultsApart, apart⟩ := List.nodup_append.mp closed.distinct
  have isDefined := closed.bound inst member name used
  rcases List.mem_append.mp isDefined with isArgument | isResult
  · obtain ⟨arg, inArguments, named⟩ := List.mem_map.mp isArgument
    have filed := closed.filed.argument arg inArguments
    rw [named, value] at filed
    obtain rfl := Option.some.inj filed
    refine .argument ?_ (filter_eq_nil_of_not_mem fun inResults => ?_)
    · have asOption : (fn.arguments.filterMap fun arg => some arg.name).Nodup := by
        simpa using argumentsApart
      simpa using filter_eq_singleton asOption inArguments (congrArg some named)
    · exact apart _ isArgument _ inResults rfl
  · obtain ⟨target, inInstructions, named⟩ := List.mem_filterMap.mp isResult
    obtain ⟨j, isAt⟩ := List.mem_iff_getElem?.mp inInstructions
    have filed := closed.filed.result j target isAt
    rw [named, resultKey, value] at filed
    obtain rfl := Option.some.inj filed
    refine .result (filter_eq_singleton resultsApart inInstructions named) ?_
    apply List.filter_eq_nil_iff.mpr
    intro arg inArguments same
    exact apart _ (List.mem_map.mpr ⟨arg, inArguments, of_decide_eq_true same⟩) _ isResult rfl

theorem denotes (made : Made objects m) {text : String}
    (lines : m.functions.map (fun fn => fn.instructions.map lineOf) = instructionLines text)
    {place : Place} {fn : Function} {x : Operand} {written : List Char}
    (isFunction : m.functions[place.function]? = some fn) (isOperand : place.operand? m = some x)
    (isText : place.text? text = some written) :
    Denotes m fn x.type written x.value := by
  obtain ⟨token, reads, value, allowed⟩ := made.operand lines isOperand isText
  obtain ⟨fn', inst, isFunction', isInstruction, -⟩ := Place.operand?_eq_some isOperand
  obtain rfl : fn' = fn := Option.some.inj (isFunction'.symm.trans isFunction)
  rw [Place.text?_eq lines] at isText
  simp only [isFunction, isInstruction, Option.bind_some] at isText
  cases readsTo_of_read reads with
  | named name =>
      have member := List.mem_of_getElem? isInstruction
      have used := List.mem_of_getElem? isText
      exact made.denotes_named isFunction member used value x.type
  | global name =>
      have stored := (made.globals (String.ofList name)).trans value
      obtain ⟨found, isFound, isValue⟩ := Option.map_eq_some_iff.mp stored
      exact isValue ▸ .global isFound (made.globalName isFound)
  | integer digits number =>
      have own := made.not_holder value (Nat.succ_ne_zero _)
      exact .integer digits number allowed own
  | isTrue =>
      have own := made.not_holder value (Nat.succ_ne_zero _)
      exact .isTrue allowed own
  | isFalse =>
      have own := made.not_holder value (Nat.succ_ne_zero _)
      exact .isFalse allowed own
  | expression expression =>
      obtain ⟨first, form⟩ := allowed
      have own := made.not_holder value id
      exact .expression expression form own
  | constant notNamed notGlobal notInteger notExpression =>
      have own := made.not_holder value (Nat.succ_ne_zero _)
      exact .constant notNamed notGlobal notInteger notExpression allowed own

end Made

/-- The operands of an accepted text are the same objects when, and only when, their texts say
so. -/
theorem operands_identified {text name : String} {m : Module} (accepted : read text name = .ok m) :
    OperandIdentity text m := by
  obtain ⟨objects, made⟩ := made_of_read accepted
  have lines := lines_of_read accepted
  refine ⟨?_, ?_, made.operands lines, ?_, ?_⟩
  · rw [← lines, List.map_map]
    apply List.map_congr_left
    intro fn isFunction
    rw [Function.comp_apply, List.map_map]
    apply List.map_congr_left
    intro inst isInstruction
    obtain ⟨i, j, written⟩ := made.written_of_mem isFunction isInstruction
    exact written.text
  · intro fn isFunction inst isInstruction
    obtain ⟨i, j, written⟩ := made.written_of_mem isFunction isInstruction
    exact written.form
  · intro first second x y left right isFirst isSecond isLeft isRight
    exact made.same lines isFirst isSecond isLeft isRight
  · intro place fn x written isFunction isOperand isText
    exact made.denotes lines isFunction isOperand isText

def usesBeforeDefinitions : String :=
  "define i32 @f(ptr %p) \x7b\n" ++
  "  store i32 %later, ptr %p\n" ++
  "  %later = load i32, ptr @g\n" ++
  "  %sum = add i32 %later, 1\n" ++
  "  ret i32 %sum\n" ++
  "\x7d\n" ++
  "@g = global i32 1\n"

theorem usesBeforeDefinitions_identified : ∃ m, read usesBeforeDefinitions = .ok m ∧
    OperandIdentity usesBeforeDefinitions m ∧
    (m.functions.map fun fn => fn.instructions.map fun inst => inst.operands.map (·.value.id)) =
      [[[2, 0], [3], [2, 5], []]] := by
  have numbers : ((read usesBeforeDefinitions).toOption.map fun m => m.functions.map fun fn =>
      fn.instructions.map fun inst =>
        inst.operands.map (·.value.id)) = some [[[2, 0], [3], [2, 5], []]] := by
    decide +kernel
  cases accepted : read usesBeforeDefinitions with
  | error fault => simp [accepted, Except.toOption] at numbers
  | ok m =>
      simp only [accepted, Except.toOption, Option.map_some, Option.some.injEq] at numbers
      exact ⟨m, rfl, operands_identified accepted, numbers⟩

end ValueNumbering.Assembly
