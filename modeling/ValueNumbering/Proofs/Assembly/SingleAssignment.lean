import ValueNumbering.Proofs.Numbering.Completion
import ValueNumbering.Proofs.Assembly.OperandIdentity

/-!
Accepted modules are closed and assign every name once, so numbering gets through each of their
functions.
-/

namespace ValueNumbering.Assembly

/-- What an operand of a function can be. -/
inductive InScope (m : Module) (fn : Function) : Value → Prop
  | argument {arg : Argument} (member : arg ∈ fn.arguments) : InScope m fn arg.value
  | result {inst : Instruction} (member : inst ∈ fn.instructions) : InScope m fn inst.result
  | global {found : Global} (stored : m.globals.find? found.name = some found) :
      InScope m fn found.value
  | literal {v : Value} {value : Int} {type : String} (form : v.form = .literal value type) :
      InScope m fn v
  | constant {v : Value} {text type : String} (form : v.form = .constant text type) : InScope m fn v

/-- A function in which every object is made once and every operand is one that the module holds. -/
structure SingleAssignment (m : Module) (fn : Function) : Prop where
  instructions : (fn.instructions.map (·.id)).Nodup
  names : (fn.arguments.map (·.name) ++ fn.instructions.filterMap (·.name)).Nodup
  operands : ∀ inst ∈ fn.instructions, inst.operands.length = inst.opcode.operandCount
  inScope : ∀ inst ∈ fn.instructions, ∀ operand ∈ inst.operands, InScope m fn operand.value

theorem Denotes.inScope {m : Module} {fn : Function} {type : String} {text : List Char} {v : Value}
    (denotes : Denotes m fn type text v) : InScope m fn v := by
  cases denotes with
  | argument one none =>
      exact .argument (List.mem_of_mem_filter (one ▸ List.mem_singleton_self _))
  | result one none =>
      exact .result (List.mem_of_mem_filter (one ▸ List.mem_singleton_self _))
  | global stored named => exact .global (named ▸ stored)
  | integer digits read form own => exact .literal form
  | isTrue form own => exact .literal form
  | isFalse form own => exact .literal form
  | expression expression form own => exact .constant form
  | constant notNamed notGlobal notInteger notExpression form own => exact .constant form

/-- The results of two instructions have different keys: by name, else by place. -/
theorem Filed.index_unique {objects : List Object} {function : Nat} {arguments : List Argument}
    {instructions : List Instruction} (filed : Filed objects function arguments instructions)
    (distinct : (instructions.filterMap (·.name)).Nodup) : (instructions.map (·.id)).Nodup := by
  have apart := List.pairwise_iff_getElem.mp (List.pairwise_filterMap.mp distinct)
  apply List.pairwise_map.mpr
  apply List.pairwise_iff_getElem.mpr
  intro i j inside inside' less same
  have first := filed.result i instructions[i] (by simp)
  have second := filed.result j instructions[j] (by simp)
  have key := key_unique first second same
  -- Equal keys are two equal names or two equal places, and neither can be.
  cases left : instructions[i].name with
  | none =>
      cases right : instructions[j].name with
      | none =>
          rw [left, right] at key
          have place := Key.single.inj key
          simp only [Point.mk.injEq, true_and, and_true] at place
          omega
      | some name =>
          rw [left, right] at key
          cases key
  | some name =>
      cases right : instructions[j].name with
      | none =>
          rw [left, right] at key
          cases key
      | some other =>
          rw [left, right] at key
          exact apart i j inside inside' less name left other right (Key.named.inj key).2

theorem Made.singleAssignment {objects : List Object} {m : Module} (made : Made objects m)
    {text : String}
    (lines : m.functions.map (fun fn => fn.instructions.map lineOf) = instructionLines text)
    {fn : Function} (member : fn ∈ m.functions) : SingleAssignment m fn := by
  obtain ⟨i, isFunction⟩ := List.mem_iff_getElem?.mp member
  have closed := made.closed i fn isFunction
  refine ⟨closed.filed.index_unique (List.nodup_append.mp closed.distinct).2.1,
    closed.distinct, ?_, ?_⟩
  · intro inst isInstruction
    obtain ⟨_, _, written⟩ := made.written_of_mem member isInstruction
    exact written.count
  · intro inst isInstruction operand isOperand
    obtain ⟨j, isAt⟩ := List.mem_iff_getElem?.mp isInstruction
    obtain ⟨p, isPlaced⟩ := List.mem_iff_getElem?.mp isOperand
    let place : Place := ⟨i, j, p⟩
    have found : place.operand? m = some operand := by
      simp [place, Place.operand?, isFunction, isAt, isPlaced]
    have hasText : (place.text? text).isSome = true := by
      rw [← made.operands lines place, found]
      rfl
    obtain ⟨written, isText⟩ := Option.isSome_iff_exists.mp hasText
    exact (made.denotes lines isFunction found isText).inScope

theorem Made.complete {objects : List Object} {m : Module} (made : Made objects m) {fn : Function}
    (member : fn ∈ m.functions) {inst : Instruction} (isInstruction : inst ∈ fn.instructions) :
    inst.Complete := by
  obtain ⟨i, j, written⟩ := made.written_of_mem member isInstruction
  exact ⟨⟨_, written.text⟩, written.count⟩

/-- Every function of an accepted module assigns once, and numbering it ends without a fault; each
result then has the number of its one record. -/
theorem accepted_functions_numbered {text name : String} {m : Module}
    (accepted : read text name = .ok m) :
    ∀ fn ∈ m.functions, SingleAssignment m fn ∧
      ∀ settings : Numbering.Settings, Line.columnInRange settings.column = true →
        (Numbering.ofFunction settings fn).fault = none ∧
        ∀ inst ∈ fn.instructions, inst.opcode = .load ∨ inst.opcode.isBinary = true → ∃ r,
          (Numbering.ofFunction settings fn).numbering.records.filter (·.instruction = inst) = [r] ∧
            (Numbering.ofFunction settings fn).numbering.number? inst.result = some r.number := by
  obtain ⟨objects, made⟩ := made_of_read accepted
  intro fn member
  have single := made.singleAssignment (lines_of_read accepted) member
  refine ⟨single, fun settings inRange => ?_⟩
  have finished : (Numbering.ofFunction settings fn).fault = none :=
    Numbering.fault_of_complete inRange fun inst isInstruction => made.complete member isInstruction
  refine ⟨finished, fun inst isInstruction kind => ?_⟩
  have computes : inst.computes = true := by
    rcases kind with load | binary <;> simp [Instruction.computes, Instruction.isBinary, *]
  exact Numbering.number_of_result finished single.instructions isInstruction computes

def sumsOfItself : String :=
  "define i32 @f() \x7b\n" ++
  "  %sum = add i32 %sum, 1\n" ++
  "  %twice = add i32 %sum, %sum\n" ++
  "  ret i32 %twice\n" ++
  "\x7d\n"

theorem sumsOfItself_numbered : ∃ m fn, read sumsOfItself = .ok m ∧ m.functions = [fn] ∧
    Line.columnInRange ({} : Numbering.Settings).column = true ∧ SingleAssignment m fn ∧
    (Numbering.ofFunction {} fn).fault = none ∧
    (Numbering.ofFunction {} fn).numbering.records.map (·.number) = [3, 4] := by
  have numbers : ((read sumsOfItself).toOption.map fun m => m.functions.map fun fn =>
      (Numbering.ofFunction {} fn).numbering.records.map (·.number)) = some [[3, 4]] := by
    decide +kernel
  cases accepted : read sumsOfItself with
  | error fault => simp [accepted, Except.toOption] at numbers
  | ok m =>
      simp only [accepted, Except.toOption, Option.map_some, Option.some.injEq] at numbers
      obtain ⟨fn, only, records⟩ := List.map_eq_singleton_iff.mp numbers
      have inRange : Line.columnInRange ({} : Numbering.Settings).column = true := by decide
      obtain ⟨single, numbered⟩ := accepted_functions_numbered accepted fn
        (only ▸ List.mem_singleton_self fn)
      exact ⟨m, fn, rfl, only, inRange, single, (numbered {} inRange).1, records⟩

end ValueNumbering.Assembly
