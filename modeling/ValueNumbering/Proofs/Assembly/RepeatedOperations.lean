import ValueNumbering.Proofs.Numbering.Repetition
import ValueNumbering.Proofs.Assembly.SingleAssignment

/-!
Operations that an accepted text makes again on the very same operands. They are reported wherever
the operands are defined, but for one case: a load or an operation between the two that defines an
operand gives it another number, and the second one is new.
-/

namespace ValueNumbering.Assembly

/-- An operation made again is reported, unless the first one or an instruction between the two is a
load or an operation that defines an operand. -/
theorem repeated_operations_reported {text name : String} {m : Module}
    (accepted : read text name = .ok m) {fn : Function} (member : fn ∈ m.functions)
    {first second : Instruction} {between : List Instruction}
    (repeats : Repeats fn first between second)
    (undefined : ∀ inst ∈ first :: between, inst.opcode = .load ∨ inst.isBinary = true →
      ∀ operand ∈ first.operands, inst.result ≠ operand.value)
    (settings : Numbering.Settings) (inRange : Line.columnInRange settings.column = true) :
    (Numbering.ofFunction settings fn).fault = none ∧ ReportedAgain settings fn first second := by
  obtain ⟨objects, made⟩ := made_of_read accepted
  have single := made.singleAssignment (lines_of_read accepted) member
  have finished : (Numbering.ofFunction settings fn).fault = none :=
    Numbering.fault_of_complete inRange fun inst isInstruction => made.complete member isInstruction
  obtain ⟨before, after, inOrder⟩ := repeats.inOrder
  have isFirst : first ∈ fn.instructions := by simp [inOrder]
  have count := single.operands first isFirst
  have isBinary : first.opcode.isBinary = true := repeats.binary
  have two : first.operands.length = 2 := by
    cases opcode : first.opcode <;> simp_all [Opcode.operandCount, Opcode.isBinary]
  obtain ⟨lhs, rhs, both⟩ := List.length_eq_two.mp two
  refine ⟨finished, repeats.reportedAgain both ?_ finished single.instructions⟩
  intro inst isBetween computes operand isOperand
  have kind : inst.opcode = .load ∨ inst.isBinary = true := by
    simpa [Instruction.computes] using computes
  exact undefined inst isBetween kind operand isOperand

def differencesBeforeLoad : String :=
  "define i32 @f(ptr %p, i32 %y) \x7b\n" ++
  "  %a = sub i32 %x, %y\n" ++
  "  %b = sub i32 %x, %y\n" ++
  "  %x = load i32, ptr %p\n" ++
  "\x7d\n"

theorem differencesBeforeLoad_reported :
    ∃ m fn first second load, read differencesBeforeLoad = .ok m ∧
    m.functions = [fn] ∧ fn.instructions = [first, second, load] ∧ Repeats fn first [] second ∧
    (∀ operand ∈ first.operands, first.result ≠ operand.value) ∧
      ReportedAgain {} fn first second := by
  have outline : ((read differencesBeforeLoad).toOption.map fun m => m.functions.map fun fn =>
      fn.instructions.map fun inst => (inst.opcode, inst.result.id, inst.operands.map (·.value))) =
      some [[(.sub, 2, [⟨3, .result (some "x")⟩, ⟨1, .argument "y" "i32"⟩]),
        (.sub, 4, [⟨3, .result (some "x")⟩, ⟨1, .argument "y" "i32"⟩]),
        (.load, 3, [⟨0, .argument "p" "ptr"⟩])]] := by
    decide +kernel
  obtain ⟨m, fn, accepted, only, listed⟩ := exists_function_of_view outline
  have isFunction : fn ∈ m.functions := only ▸ List.mem_singleton_self fn
  have three : fn.instructions.length = 3 := by simpa using congrArg List.length listed
  obtain ⟨first, second, load, inOrder⟩ := List.length_eq_three.mp three
  simp only [inOrder, List.map_cons, List.map_nil, List.cons.injEq, Prod.mk.injEq,
    and_true] at listed
  obtain ⟨⟨opcode, id, operands⟩, ⟨opcode', -, operands'⟩, -⟩ := listed
  have repeats : Repeats fn first [] second :=
    ⟨⟨[], [load], inOrder⟩, by simp [Instruction.isBinary, opcode, Opcode.isBinary],
      opcode'.trans opcode.symm, operands'.trans operands.symm⟩
  have own : ∀ operand ∈ first.operands, first.result ≠ operand.value := by
    intro operand isOperand same
    have used : first.result ∈ first.operands.map (·.value) := same ▸ List.mem_map_of_mem isOperand
    rw [operands] at used
    rcases List.mem_pair.mp used with isX | isY
    · rw [isX] at id
      cases id
    · rw [isY] at id
      cases id
  have undefined : ∀ inst ∈ [first], inst.opcode = .load ∨ inst.isBinary = true →
      ∀ operand ∈ first.operands, inst.result ≠ operand.value :=
    fun inst isFirst _ => List.mem_singleton.mp isFirst ▸ own
  have inRange : Line.columnInRange ({} : Numbering.Settings).column = true := by decide
  exact ⟨m, fn, first, second, load, accepted, only, inOrder, repeats, own,
    (repeated_operations_reported accepted isFunction repeats undefined {} inRange).2⟩

def sumsAroundLoad : String :=
  "define i32 @f(ptr %p) \x7b\n" ++
  "  %a = add i32 %x, %x\n" ++
  "  %x = load i32, ptr %p\n" ++
  "  %b = add i32 %x, %x\n" ++
  "\x7d\n"

/-- The load gives its result a new number, so the second sum has another key than the first. -/
theorem sumsAroundLoad_not_reported : ∃ m fn first load second, read sumsAroundLoad = .ok m ∧
    m.functions = [fn] ∧ fn.instructions = [first, load, second] ∧ Repeats fn first [load] second ∧
    ∀ shareLiterals, ¬ ReportedAgain { shareLiterals := shareLiterals } fn first second := by
  have outline : ((read sumsAroundLoad).toOption.map fun m => m.functions.map fun fn =>
      (fn.instructions.map fun inst => (inst.opcode, inst.operands.map (·.value)),
        [true, false].map fun shareLiterals =>
          (Numbering.ofFunction { shareLiterals := shareLiterals }
            fn).numbering.redundant.length)) =
      some [([(.add, [⟨2, .result (some "x")⟩, ⟨2, .result (some "x")⟩]),
        (.load, [⟨0, .argument "p" "ptr"⟩]),
        (.add, [⟨2, .result (some "x")⟩, ⟨2, .result (some "x")⟩])], [0, 0])] := by
    decide +kernel
  obtain ⟨m, fn, accepted, only, facts⟩ := exists_function_of_view outline
  obtain ⟨listed, counts⟩ := Prod.mk.inj facts
  have three : fn.instructions.length = 3 := by simpa using congrArg List.length listed
  obtain ⟨first, load, second, inOrder⟩ := List.length_eq_three.mp three
  simp only [inOrder, List.map_cons, List.map_nil, List.cons.injEq, Prod.mk.injEq,
    and_true] at listed counts
  obtain ⟨⟨opcode, operands⟩, -, ⟨opcode', operands'⟩⟩ := listed
  refine ⟨m, fn, first, load, second, accepted, only, inOrder, ⟨⟨[], [], inOrder⟩, ?_, ?_, ?_⟩, ?_⟩
  · simp [Instruction.isBinary, opcode, Opcode.isBinary]
  · exact opcode'.trans opcode.symm
  · exact operands'.trans operands.symm
  · rintro shareLiterals ⟨r, s, -, isSecond, -, -, -, redundant⟩
    have noneRedundant :
        (Numbering.ofFunction { shareLiterals := shareLiterals } fn).numbering.redundant = [] := by
      apply List.eq_nil_of_length_eq_zero
      cases shareLiterals
      · exact counts.2
      · exact counts.1
    have isRecord := List.mem_of_mem_filter (isSecond ▸ List.mem_singleton_self s)
    have reported :
        s ∈ (Numbering.ofFunction { shareLiterals := shareLiterals } fn).numbering.redundant :=
      List.mem_filter.mpr ⟨isRecord, redundant⟩
    rw [noneRedundant] at reported
    cases reported

end ValueNumbering.Assembly
