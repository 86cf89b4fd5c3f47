import Mathlib.Data.List.Forall2
import ValueNumbering.Numbering.Run

/-!
A run that ends without a fault, seen through the actions of its instructions: one record for each
numbered instruction, in program order, each with the decision that knowledge alone makes.
-/

namespace ValueNumbering

def Opcode.operandCount : Opcode → Nat
  | .store => 2
  | .load => 1
  | opcode => if opcode.isBinary then 2 else 0

def Instruction.isNumbered (inst : Instruction) : Bool :=
  decide (inst.opcode = .store) || decide (inst.opcode = .load) || inst.isBinary

def Instruction.action? (inst : Instruction) : Option Action :=
  match inst.action with
  | .ok action => action
  | .error _ => none

def Function.actions (fn : Function) : List Action := fn.instructions.filterMap (·.action?)

namespace Knowledge

theorem performAll_append (k : Knowledge) (first second : List Action) :
    k.performAll (first ++ second) =
      ((k.performAll first).1 ++ ((k.performAll first).2.performAll second).1,
        ((k.performAll first).2.performAll second).2) := by
  induction first generalizing k with
  | nil => rfl
  | cons action rest ih => simp [performAll, ih]

theorem performAll_concat (k : Knowledge) (actions : List Action) (action : Action) :
    k.performAll (actions ++ [action]) =
      ((k.performAll actions).1 ++ [((k.performAll actions).2.perform action).1],
        ((k.performAll actions).2.perform action).2) := by
  rw [performAll_append]
  rfl

theorem length_performAll (k : Knowledge) (actions : List Action) :
    (k.performAll actions).1.length = actions.length := by
  induction actions generalizing k with
  | nil => rfl
  | cons action rest ih => simp [performAll, ih]

end Knowledge

namespace Instruction

theorem isBinary_of_store {inst : Instruction} (store : inst.opcode = .store) :
    inst.isBinary = false := by
  rw [isBinary, store]
  rfl

theorem isBinary_of_load {inst : Instruction} (load : inst.opcode = .load) :
    inst.isBinary = false := by
  rw [isBinary, load]
  rfl

/-- What an action says of its instruction: the opcode and where the operands stand. -/
inductive Performs (inst : Instruction) : Action → Prop
  | store {value pointer : Operand} (opcode : inst.opcode = .store)
      (first : inst.operands.head? = some value) (last : inst.operands.getLast? = some pointer) :
      Performs inst (.store value.value pointer.value)
  | load {pointer : Operand} (opcode : inst.opcode = .load)
      (last : inst.operands.getLast? = some pointer) :
      Performs inst (.load inst.result pointer.value)
  | binary {lhs rhs : Operand} (opcode : inst.isBinary = true) (both : inst.operands = [lhs, rhs]) :
      Performs inst (.binary inst.opcode inst.result lhs.value rhs.value)

theorem action_none {inst : Instruction} (unmodelled : inst.action = .ok none) :
    inst.isNumbered = false := by
  unfold action at unmodelled
  split at unmodelled
  · cases value : inst.valueOperand <;> cases pointer : inst.pointerOperand <;>
      simp [value, pointer, bind, Except.bind, pure, Except.pure] at unmodelled
  · cases pointer : inst.pointerOperand <;>
      simp [pointer, bind, Except.bind, pure, Except.pure] at unmodelled
  · next notStore notLoad =>
      split at unmodelled
      · cases operands : inst.twoOperands <;>
          simp [operands, bind, Except.bind, pure, Except.pure] at unmodelled
      · simp_all [isNumbered, isBinary]

theorem action_some {inst : Instruction} {action : Action}
    (found : inst.action = .ok (some action)) :
    inst.Performs action := by
  unfold Instruction.action at found
  split at found
  · next opcode =>
      simp only [valueOperand, pointerOperand] at found
      cases first : inst.operands.head? <;> cases last : inst.operands.getLast? <;>
        simp [first, last, bind, Except.bind, pure, Except.pure] at found
      exact found ▸ .store opcode first last
  · next opcode =>
      simp only [pointerOperand] at found
      cases last : inst.operands.getLast? <;>
        simp [last, bind, Except.bind, pure, Except.pure] at found
      exact found ▸ .load opcode last
  · split at found
    · next binary =>
        simp only [twoOperands] at found
        split at found
        · next lhs rhs both =>
            simp [bind, Except.bind, pure, Except.pure] at found
            exact found ▸ .binary binary both
        · simp [bind, Except.bind] at found
    · simp at found

theorem Performs.isNumbered {inst : Instruction} {action : Action}
    (performs : inst.Performs action) :
    inst.isNumbered = true := by
  cases performs <;> simp_all [Instruction.isNumbered]

end Instruction

namespace Numbering

/-- What a visit without a fault can do: pass over an instruction, or add its record. -/
inductive Visited (column : Int) (n : Numbering) (inst : Instruction) : Numbering → Prop
  | skipped (unmodelled : inst.action = .ok none) : Visited column n inst n
  | recorded {action : Action} {line : String} (found : inst.action = .ok (some action))
      (shown : Line.ofDecision inst (n.knowledge.perform action).1 column = .ok line) :
      Visited column n inst ⟨(n.knowledge.perform action).2,
        n.records ++ [{ (n.knowledge.perform action).1 with instruction := inst, line := line }]⟩

theorem visited_of_visit {column : Int} {n next : Numbering} {inst : Instruction}
    (visited : visit column n inst = .ok next) : Visited column n inst next := by
  unfold visit at visited
  split at visited
  · cases visited
  · next unmodelled =>
      cases visited
      exact .skipped unmodelled
  · next action found =>
      simp only at visited
      split at visited
      · cases visited
      · next line shown =>
          cases visited
          exact .recorded found shown

structure Added (n : Numbering) (instructions : List Instruction) (records : List Record)
    (last : Numbering) :
    Prop where
  records_eq : last.records = n.records ++ records
  knowledge_eq : last.knowledge = (n.knowledge.performAll (instructions.filterMap (·.action?))).2
  decisions_eq : records.map (·.toDecision) =
    (n.knowledge.performAll (instructions.filterMap (·.action?))).1
  instructions_eq : records.map (·.instruction) = instructions.filter (·.isNumbered)
  performs : List.Forall₂ (fun r action => r.instruction.Performs action) records
    (instructions.filterMap (·.action?))

theorem Added.cons {column : Int} {n next last : Numbering} {inst : Instruction}
    {rest : List Instruction} {records : List Record} (visited : Visited column n inst next)
    (added : Added next rest records last) :
    ∃ all, Added n (inst :: rest) all last := by
  cases visited with
  | skipped unmodelled =>
      have absent : inst.action? = none := by simp [Instruction.action?, unmodelled]
      have passed := Instruction.action_none unmodelled
      refine ⟨records, added.records_eq, ?_, ?_, ?_, ?_⟩
      · simpa [absent] using added.knowledge_eq
      · simpa [absent] using added.decisions_eq
      · simpa [passed] using added.instructions_eq
      · simpa [absent] using added.performs
  | @recorded action line found shown =>
      have present : inst.action? = some action := by simp [Instruction.action?, found]
      have performs := Instruction.action_some found
      have counted := performs.isNumbered
      refine ⟨{ (n.knowledge.perform action).1 with instruction := inst, line := line } :: records,
        by simpa using added.records_eq, ?_, ?_, ?_, ?_⟩
      · simpa [present, Knowledge.performAll] using added.knowledge_eq
      · simpa [present, Knowledge.performAll] using added.decisions_eq
      · simpa [counted] using added.instructions_eq
      · rw [List.filterMap_cons_some present]
        exact .cons performs added.performs

theorem visitAll_added {column : Int} {n : Numbering} {instructions : List Instruction}
    (finished : (visitAll column n instructions).fault = none) :
    ∃ records, Added n instructions records (visitAll column n instructions).numbering := by
  induction instructions generalizing n with
  | nil => exact ⟨[], by simp [visitAll], rfl, rfl, rfl, .nil⟩
  | cons inst rest ih =>
      unfold visitAll at finished ⊢
      split at finished
      · cases finished
      · next next visited =>
          obtain ⟨records, added⟩ := ih finished
          exact added.cons (visited_of_visit visited)

def initial (shareLiterals : Bool) : Knowledge := { store := { shareLiterals := shareLiterals } }

/-- One record for each numbered instruction of a function, in program order. -/
structure OneRecordEach (fn : Function) (records : List Record) : Prop where
  instructions_eq : records.map (·.instruction) = fn.instructions.filter (·.isNumbered)
  performs : List.Forall₂ (fun r action => r.instruction.Performs action) records fn.actions

theorem ofFunction_added {settings : Settings} {fn : Function}
    (finished : (ofFunction settings fn).fault = none) :
    Added ⟨initial settings.shareLiterals, []⟩ fn.instructions
      (ofFunction settings fn).numbering.records
      (ofFunction settings fn).numbering := by
  obtain ⟨records, added⟩ := visitAll_added finished
  have same : (ofFunction settings fn).numbering.records = records := added.records_eq
  exact same ▸ added

theorem oneRecordEach_of_finished {settings : Settings} {fn : Function}
    (finished : (ofFunction settings fn).fault = none) :
    OneRecordEach fn (ofFunction settings fn).numbering.records :=
  ⟨(ofFunction_added finished).instructions_eq, (ofFunction_added finished).performs⟩

theorem decisions_of_finished {settings : Settings} {fn : Function}
    (finished : (ofFunction settings fn).fault = none) :
    (ofFunction settings fn).numbering.records.map (·.toDecision) =
      ((initial settings.shareLiterals).performAll fn.actions).1 :=
  (ofFunction_added finished).decisions_eq

end Numbering

end ValueNumbering
