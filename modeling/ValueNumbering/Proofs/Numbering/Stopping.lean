import ValueNumbering.Pass.Reporting
import ValueNumbering.Proofs.Numbering.Actions

/-!
Where numbering stops. An instruction without the operands that its action or its line needs is at
fault, no other one is, and the lines of the instructions before it stay as they are. The pass that
numbers functions has written these lines then, and keeps what it had counted and found before.
-/

namespace ValueNumbering

/-- An instruction that cannot be numbered or written: a store or a load of nothing, a store that
has neither its line nor two operands, a binary operation that has not two. -/
def Instruction.Unfit (inst : Instruction) : Prop :=
  (inst.opcode = .store ∧ inst.operands = []) ∨
  (inst.opcode = .store ∧ inst.text = none ∧ inst.operands.length ≠ 2) ∨
  (inst.opcode = .load ∧ inst.operands = []) ∨
  (inst.isBinary = true ∧ inst.operands.length ≠ 2)

instance (inst : Instruction) : Decidable inst.Unfit := inferInstanceAs (Decidable (_ ∨ _))

namespace Instruction

variable {inst : Instruction} {action : Action}

theorem twoOperands_of_length (notTwo : inst.operands.length ≠ 2) :
    inst.twoOperands = .error (.notTwo inst.operands.length) := by
  unfold twoOperands
  split
  · next both => simp [both] at notTwo
  · rfl

theorem exists_action (fit : ¬inst.Unfit) : ∃ action, inst.action = .ok action := by
  unfold Unfit at fit
  push Not at fit
  obtain ⟨store, -, load, binary⟩ := fit
  unfold Instruction.action
  split
  · next opcode =>
      obtain ⟨value, more, operands⟩ := List.exists_cons_of_ne_nil (store opcode)
      simp [valueOperand, pointerOperand, operands, List.getLast?_cons, bind, Except.bind, pure,
        Except.pure]
  · next opcode =>
      obtain ⟨pointer, more, operands⟩ := List.exists_cons_of_ne_nil (load opcode)
      simp [pointerOperand, operands, List.getLast?_cons, bind, Except.bind, pure, Except.pure]
  · split
    · next isBinary =>
        obtain ⟨lhs, rhs, both⟩ := List.length_eq_two.mp (binary isBinary)
        simp [twoOperands, both, bind, Except.bind, pure, Except.pure]
    · exact ⟨none, rfl⟩

theorem exists_written (performs : inst.Performs action) (fit : ¬inst.Unfit) :
    ∃ text, inst.written = .ok text := by
  unfold written
  cases kept : inst.text with
  | some line => exact ⟨line, rfl⟩
  | none =>
      simp only [built]
      cases performs with
      | store opcode first last =>
          have two : inst.operands.length = 2 := by
            by_contra notTwo
            exact fit (.inr (.inl ⟨opcode, kept, notTwo⟩))
          obtain ⟨value, pointer, both⟩ := List.length_eq_two.mp two
          simp [opcode, twoOperands, both, bind, Except.bind, pure, Except.pure]
      | load opcode last =>
          cases operands : inst.operands with
          | nil => simp [operands] at last
          | cons pointer more => simp [opcode]
      | binary isBinary both =>
          unfold Instruction.isBinary at isBinary
          split <;> simp_all [Opcode.isBinary, twoOperands, bind, Except.bind, pure, Except.pure]

end Instruction

namespace Line

variable {inst : Instruction} {column : Int}

theorem exists_ofDecision {text : String} (written : inst.written = .ok text)
    (inRange : columnInRange column = true) (decision : Decision) :
    ∃ line, ofDecision inst decision column = .ok line := by
  have padded : padded inst column = .ok (pad text column) := by simp [padded, written, inRange]
  unfold ofDecision
  split <;> simp [store, load, binary, padded, bind, Except.bind, pure, Except.pure]

theorem ofDecision_unwritten {fault : OperandFault} (unwritten : inst.written = .error fault)
    (decision : Decision) :
    ofDecision inst decision column = .error (.operands fault) := by
  have padded : padded inst column = .error (.operands fault) := by simp [padded, unwritten]
  unfold ofDecision
  split <;> simp [store, load, binary, padded, bind, Except.bind]

theorem ofDecision_outOfRange (inst : Instruction) (outOfRange : columnInRange column = false)
    (decision : Decision) :
    ∃ fault, ofDecision inst decision column = .error fault := by
  have unpadded : ∃ fault, padded inst column = .error fault := by
    cases written : inst.written with
    | error fault => exact ⟨.operands fault, by simp [padded, written]⟩
    | ok text => exact ⟨.columnOutOfRange, by simp [padded, written, outOfRange]⟩
  obtain ⟨fault, unpadded⟩ := unpadded
  refine ⟨fault, ?_⟩
  unfold ofDecision
  split <;> simp [store, load, binary, unpadded, bind, Except.bind]

end Line

namespace Numbering

variable {column : Int} {n : Numbering} {inst : Instruction} {instructions : List Instruction}

theorem visit_fit (inRange : Line.columnInRange column = true) (fit : ¬inst.Unfit) :
    ∃ next, visit column n inst = .ok next := by
  obtain ⟨action, found⟩ := Instruction.exists_action fit
  unfold visit
  cases action with
  | none => exact ⟨n, by rw [found]⟩
  | some action =>
      obtain ⟨text, written⟩ := Instruction.exists_written (Instruction.action_some found) fit
      obtain ⟨line, shown⟩ := Line.exists_ofDecision written inRange (n.knowledge.perform action).1
      simp [found, shown]

theorem visit_without_action {fault : OperandFault} (missing : inst.action = .error fault) :
    visit column n inst = .error (.operands fault) := by
  rw [visit, missing]

/-- The operands of an unfit instruction are at fault: of its action, or of its line. -/
theorem visit_unfit (unfit : inst.Unfit) :
    ∃ fault, visit column n inst = .error (.operands fault) := by
  rcases unfit with ⟨opcode, none⟩ | ⟨opcode, noText, notTwo⟩ | ⟨opcode, none⟩ | ⟨isBinary, notTwo⟩
  · refine ⟨.missing, visit_without_action ?_⟩
    simp [Instruction.action, opcode, Instruction.valueOperand, none, bind, Except.bind]
  · cases operands : inst.operands with
    | nil =>
        refine ⟨.missing, visit_without_action ?_⟩
        simp [Instruction.action, opcode, Instruction.valueOperand, operands, bind, Except.bind]
    | cons value more =>
        -- The action is found, but the text needs two operands.
        have unwritten : inst.written = .error (.notTwo inst.operands.length) := by
          simp [Instruction.written, noText, Instruction.built, opcode,
            Instruction.twoOperands_of_length notTwo, bind, Except.bind]
        refine ⟨.notTwo inst.operands.length, ?_⟩
        unfold visit
        simp [Instruction.action, opcode, Instruction.valueOperand, Instruction.pointerOperand,
          operands, List.getLast?_cons, bind,
          Except.bind, pure, Except.pure, Line.ofDecision_unwritten unwritten]
  · refine ⟨.missing, visit_without_action ?_⟩
    simp [Instruction.action, opcode, Instruction.pointerOperand, none, bind, Except.bind]
  · refine ⟨.notTwo inst.operands.length, visit_without_action ?_⟩
    unfold Instruction.isBinary at isBinary
    unfold Instruction.action
    split <;>
      simp_all [Opcode.isBinary, Instruction.twoOperands_of_length notTwo, bind, Except.bind]

theorem fault_of_fit (inRange : Line.columnInRange column = true)
    (fit : ∀ inst ∈ instructions, ¬inst.Unfit) :
    (visitAll column n instructions).fault = none := by
  induction instructions generalizing n with
  | nil => rfl
  | cons inst rest ih =>
      obtain ⟨first, later⟩ := List.forall_mem_cons.mp fit
      obtain ⟨next, visited⟩ := visit_fit (n := n) inRange first
      rw [visitAll, visited]
      exact ih later

theorem visitAll_unfit (inRange : Line.columnInRange column = true)
    {before after : List Instruction} {bad : Instruction} (fit : ∀ inst ∈ before, ¬inst.Unfit)
    (unfit : bad.Unfit) :
    ∃ fault, visitAll column n (before ++ bad :: after) =
      ⟨(visitAll column n before).numbering, some (.operands fault)⟩ := by
  induction before generalizing n with
  | nil =>
      obtain ⟨fault, stopped⟩ : ∃ fault, visit column n bad = .error (.operands fault) :=
        visit_unfit unfit
      exact ⟨fault, by rw [List.nil_append, visitAll, visitAll, stopped]⟩
  | cons inst rest ih =>
      obtain ⟨first, later⟩ := List.forall_mem_cons.mp fit
      obtain ⟨next, visited⟩ := visit_fit (n := n) inRange first
      rw [List.cons_append, visitAll, visitAll, visited]
      exact ih later

theorem exists_first_unfit (exists_unfit : ∃ inst ∈ instructions, inst.Unfit) :
    ∃ before bad after, instructions = before ++ bad :: after ∧ (∀ inst ∈ before, ¬inst.Unfit) ∧
      bad.Unfit := by
  have found : (instructions.find? fun inst => decide inst.Unfit).isSome := by
    simpa using exists_unfit
  obtain ⟨bad, isFirst⟩ := Option.isSome_iff_exists.mp found
  obtain ⟨unfit, before, after, split, fit⟩ := List.find?_eq_some_iff_append.mp isFirst
  exact ⟨before, bad, after, split, by simpa using fit, by simpa using unfit⟩

end Numbering

def Block.keep : Nat → List Block → List Block
  | _, [] => []
  | n, block :: rest =>
      { block with instructions := block.instructions.take n } ::
        Block.keep (n - block.instructions.length) rest

/-- A function that is cut off after some instructions. -/
def Function.cutAfter (fn : Function) (n : Nat) : Function :=
  { fn with blocks := Block.keep n fn.blocks }

theorem Function.instructions_cutAfter (fn : Function) (n : Nat) :
    (fn.cutAfter n).instructions = fn.instructions.take n := by
  unfold Function.instructions Function.cutAfter
  simp only
  generalize fn.blocks = blocks
  induction blocks generalizing n with
  | nil => simp [Block.keep]
  | cons block rest ih =>
    rw [Block.keep, List.flatMap_cons, List.flatMap_cons, ih, List.take_append]

namespace Reporting

/-- A visit that ends with a fault of the numbering: its header and the lines so far are written, to
the own stream or to the host's diagnostics, and what was found and counted before is kept. -/
structure Stopped (fn : Function) (lines : List String) (fault : NumberingFault)
    (state : PassState Reporting) (visit : Visit Reporting) : Prop where
  result : visit.result = .error (.numbering fault)
  written : (visit.state.own, visit.diagnostics) =
    state.own.write (Text.unlines (s!"ValueNumbering: {fn.name}" :: lines))
  last : visit.state.own.last = state.own.last
  metrics : visit.state.metrics = some (state.metrics.getD {})

theorem last_write (own : Reporting) (text : String) : (own.write text).1.last = own.last := by
  unfold write
  split <;> rfl

theorem visit_stopped {fn : Function} {config : PassConfig} {state : PassState Reporting}
    {settings : Numbering.Settings} {n : Numbering} {fault : NumberingFault}
    (isEnabled : config.isEnabled = true) (asked : config.settings = .ok settings)
    (ended : Numbering.ofFunction settings fn = ⟨n, some fault⟩) :
    Stopped fn n.lines fault state (visit fn config state) := by
  constructor <;> simp [visit, isEnabled, asked, ended, last_write]

end Reporting

namespace Numbering

/-- Numbering fails exactly where an instruction is unfit. It has the lines then of the function
that is cut off before the first such instruction, which is numbered in full, and a visit of the
pass writes them and keeps the rest as it was. -/
theorem stops_before_first_unfit (settings : Settings)
    (inRange : Line.columnInRange settings.column = true) (fn : Function) :
    ((ofFunction settings fn).fault.isSome = true ↔ ∃ inst ∈ fn.instructions, inst.Unfit) ∧
    ∀ fault, (ofFunction settings fn).fault = some fault → ∃ before bad after,
      fn.instructions = before ++ bad :: after ∧ (∀ inst ∈ before, ¬inst.Unfit) ∧ bad.Unfit ∧
      let cut := fn.cutAfter before.length
      cut.instructions = before ∧ (ofFunction settings cut).fault = none ∧
      (ofFunction settings fn).numbering.lines = (ofFunction settings cut).numbering.lines ∧
      ∀ (config : PassConfig) (state : PassState Reporting), config.isEnabled = true →
        config.settings = .ok settings →
        Reporting.Stopped fn (ofFunction settings cut).numbering.lines fault state
          (Reporting.visit fn config state) := by
  have complete : (∀ inst ∈ fn.instructions, ¬inst.Unfit) → (ofFunction settings fn).fault = none :=
    fault_of_fit inRange
  have stops : ∀ before bad after, fn.instructions = before ++ bad :: after →
      (∀ inst ∈ before, ¬inst.Unfit) → bad.Unfit →
      ∃ fault, ofFunction settings fn =
        ⟨(ofInstructions settings before).numbering, some (.operands fault)⟩ := by
    intro before bad after split fit unfit
    rw [ofFunction, ofInstructions, split]
    exact visitAll_unfit inRange fit unfit
  constructor
  · constructor
    · intro failed
      by_contra noUnfit
      push Not at noUnfit
      simp [complete noUnfit] at failed
    · intro unfit
      obtain ⟨before, bad, after, split, fit, unfit⟩ := exists_first_unfit unfit
      obtain ⟨fault, ended⟩ := stops before bad after split fit unfit
      simp [ended]
  · intro fault failed
    have exists_unfit : ∃ inst ∈ fn.instructions, inst.Unfit := by
      by_contra noUnfit
      push Not at noUnfit
      simp [complete noUnfit] at failed
    obtain ⟨before, bad, after, split, fit, unfit⟩ := exists_first_unfit exists_unfit
    obtain ⟨other, ended⟩ := stops before bad after split fit unfit
    have kept : (fn.cutAfter before.length).instructions = before := by
      rw [fn.instructions_cutAfter, split, List.take_left]
    have ofCut : ofFunction settings (fn.cutAfter before.length) =
        ofInstructions settings before := by
      rw [ofFunction, kept]
    rw [ended] at failed
    obtain rfl : NumberingFault.operands other = fault := Option.some.inj failed
    refine ⟨before, bad, after, split, fit, unfit, kept, ?_, ?_,
      fun config state isEnabled asked => ?_⟩
    · rw [ofCut]
      exact fault_of_fit inRange fit
    · rw [ended, ofCut]
    · rw [ofCut]
      exact Reporting.visit_stopped isEnabled asked ended

end Numbering

def sumOfThree : Function :=
  let x : Operand := ⟨"i32", 0, .argument "x" "i32"⟩
  let y : Operand := ⟨"i32", 1, .argument "y" "i32"⟩
  { name := "f"
    blocks :=
      [⟨"entry", [{ id := 2, opcode := .store, operands := [x], text := some "store i32 %x" },
          { id := 3, opcode := .add, operands := [x, y], type := "i32", name := some "a" }]⟩,
        ⟨"next", [{ id := 4, opcode := .ret },
          { id := 5, opcode := .add, operands := [x, y, x], type := "i32", name := some "b" },
          { id := 6, opcode := .mul, operands := [x, y], type := "i32", name := some "c" }]⟩] }

def countingState : PassState Reporting :=
  { own := { stream := some "so far\n" }, metrics := some { functions := 1, messages := ["seen"] } }

def narrowConfig : PassConfig :=
  { name := "lvn", options := .obj (.ofList [("column_width", .int 18)]) }

def sumOfThreeLines : List String := ["store i32 %x       1 = 1", "%a = add i32 %x, %y 3 = 1 add 2"]

theorem sumOfThree_stops :
    Line.columnInRange 18 = true ∧ narrowConfig.isEnabled = true ∧
      narrowConfig.settings = .ok ⟨true, 18⟩ ∧
    (Numbering.ofFunction ⟨true, 18⟩ sumOfThree).fault = some (.operands (.notTwo 3)) ∧
    (Numbering.ofFunction ⟨true, 18⟩ sumOfThree).numbering.lines = sumOfThreeLines ∧
    Reporting.Stopped sumOfThree sumOfThreeLines (.operands (.notTwo 3)) countingState
      (Reporting.visit sumOfThree narrowConfig countingState) := by
  have inRange : Line.columnInRange 18 = true := by decide
  have failed : (Numbering.ofFunction ⟨true, 18⟩ sumOfThree).fault =
      some (.operands (.notTwo 3)) := by decide +kernel
  have written : (Numbering.ofFunction ⟨true, 18⟩ sumOfThree).numbering.lines =
      sumOfThreeLines := by decide +kernel
  have isEnabled : narrowConfig.isEnabled = true := by decide
  have asked : narrowConfig.settings = .ok ⟨true, 18⟩ := by rfl
  obtain ⟨-, stops⟩ := Numbering.stops_before_first_unfit ⟨true, 18⟩ inRange sumOfThree
  obtain ⟨before, bad, after, -, -, -, -, -, sameLines, visits⟩ := stops _ failed
  have stopped := visits narrowConfig countingState isEnabled asked
  rw [← sameLines, written] at stopped
  exact ⟨inRange, isEnabled, asked, failed, written, stopped⟩

end ValueNumbering
