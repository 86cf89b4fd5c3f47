import ValueNumbering.Proofs.Numbering.History
import ValueNumbering.Proofs.Numbering.Operands

/-!
An operation made again on the very same values. As long as no definition of an operand comes
between, the second one is redundant and has the number of the first.
-/

namespace ValueNumbering

namespace Knowledge

def Remembers (k : Knowledge) (opcode : Opcode) (lhs rhs : Value) (number : Int) : Prop :=
  ∃ left right, k.store.known? lhs = some left ∧ k.store.known? rhs = some right ∧
    k.table.find? (Expression.canonical opcode left right) = some number

variable {k : Knowledge} {opcode : Opcode} {lhs rhs result : Value} {number : Int}

theorem remembers_compute (k : Knowledge) (opcode : Opcode) (left : result ≠ lhs)
    (right : result ≠ rhs) :
    (k.compute opcode result lhs rhs).2.Remembers opcode lhs rhs
      (k.compute opcode result lhs rhs).1.number := by
  rcases resolved : k.store.resolve lhs with ⟨leftNumber, first⟩
  rcases resolved' : first.resolve rhs with ⟨rightNumber, second⟩
  have knownLeft : second.known? lhs = some leftNumber := by
    have known := k.store.known?_resolve_self lhs
    have kept := Store.known?_resolve known rhs
    rwa [resolved, resolved'] at kept
  have knownRight : second.known? rhs = some rightNumber := by
    have known := first.known?_resolve_self rhs
    rwa [resolved'] at known
  cases entry : k.table.find? (Expression.canonical opcode leftNumber rightNumber) with
  | some number =>
      rw [compute_known resolved resolved' entry]
      refine ⟨leftNumber, rightNumber, ?_, ?_, entry⟩
      · exact (second.known?_bind left _ _).trans knownLeft
      · exact (second.known?_bind right _ _).trans knownRight
  | none =>
      rw [compute_new resolved resolved' entry]
      refine ⟨leftNumber, rightNumber, ?_, ?_, Dictionary.find?_insert_self _ _ _⟩
      · exact (second.known?_bind left _ _).trans knownLeft
      · exact (second.known?_bind right _ _).trans knownRight

theorem Remembers.perform (remembers : k.Remembers opcode lhs rhs number) {action : Action}
    (left : action.result? ≠ some lhs) (right : action.result? ≠ some rhs) :
    (k.perform action).2.Remembers opcode lhs rhs number := by
  obtain ⟨leftNumber, rightNumber, knownLeft, knownRight, entry⟩ := remembers
  exact ⟨leftNumber, rightNumber, known?_perform knownLeft left, known?_perform knownRight right,
    find?_table_perform entry action⟩

theorem Remembers.performAll (remembers : k.Remembers opcode lhs rhs number) {actions : List Action}
    (left : ∀ action ∈ actions, action.result? ≠ some lhs)
    (right : ∀ action ∈ actions, action.result? ≠ some rhs) :
    (k.performAll actions).2.Remembers opcode lhs rhs number := by
  induction actions generalizing k with
  | nil => exact remembers
  | cons action rest ih =>
      have first := remembers.perform (left action (List.mem_cons_self ..))
        (right action (List.mem_cons_self ..))
      exact ih first (fun other member => left other (List.mem_cons_of_mem _ member))
        fun other member => right other (List.mem_cons_of_mem _ member)

theorem Remembers.again (remembers : k.Remembers opcode lhs rhs number) (result : Value) :
    (k.compute opcode result lhs rhs).1.number = number ∧
      (k.compute opcode result lhs rhs).1.redundant = true := by
  obtain ⟨leftNumber, rightNumber, knownLeft, knownRight, entry⟩ := remembers
  rw [compute_known (Store.resolve_of_known knownLeft) (Store.resolve_of_known knownRight) entry]
  exact ⟨rfl, rfl⟩

end Knowledge

/-- In a function, an operation and a later one with the same opcode on the very same operands, with
the instructions between the two. -/
structure Repeats (fn : Function) (first : Instruction) (between : List Instruction)
    (second : Instruction) : Prop where
  inOrder : ∃ before after, fn.instructions = before ++ first :: (between ++ second :: after)
  binary : first.isBinary = true
  opcode : second.opcode = first.opcode
  operands : second.operands.map (·.value) = first.operands.map (·.value)

/-- Each of the two operations has one record, both have one number, and the second is reported as
redundant. -/
def ReportedAgain (settings : Numbering.Settings) (fn : Function) (first second : Instruction) :
    Prop :=
  ∃ r s, (Numbering.ofFunction settings fn).numbering.records.filter (·.instruction = first) = [r] ∧
    (Numbering.ofFunction settings fn).numbering.records.filter (·.instruction = second) = [s] ∧
    (Numbering.ofFunction settings fn).numbering.number? first.result = some r.number ∧
    (Numbering.ofFunction settings fn).numbering.number? second.result = some r.number ∧
    s.number = r.number ∧ s.redundant = true

namespace Numbering

theorem decision_of_record {settings : Settings} {fn : Function}
    (finished : (ofFunction settings fn).fault = none) {before after : List Instruction}
    {inst : Instruction} (split : fn.instructions = before ++ inst :: after) {action : Action}
    (found : inst.action? = some action) {r : Record}
    (only : (ofFunction settings fn).numbering.records.filter (·.instruction = inst) = [r]) :
    r.toDecision =
      (((initial settings.shareLiterals).performAll (before.filterMap (·.action?))).2.perform
        action).1 := by
  unfold ofFunction ofInstructions at finished only
  rw [split] at finished only
  obtain ⟨s, member, isInst, decision⟩ := exists_record found finished
  have inFilter := List.mem_filter (p := (·.instruction = inst)) |>.mpr
    ⟨member, decide_eq_true isInst⟩
  rw [only] at inFilter
  rw [← List.mem_singleton.mp inFilter, decision]
  rfl

end Numbering

theorem Instruction.action?_of_binary {inst : Instruction} {lhs rhs : Operand}
    (binary : inst.isBinary = true) (both : inst.operands = [lhs, rhs]) :
    inst.action? = some (.binary inst.opcode inst.result lhs.value rhs.value) := by
  have notStore : inst.opcode ≠ .store := by
    intro store
    cases (isBinary_of_store store).symm.trans binary
  have notLoad : inst.opcode ≠ .load := by
    intro load
    cases (isBinary_of_load load).symm.trans binary
  have isBinary : inst.opcode.isBinary = true := binary
  unfold action? action
  simp [isBinary, twoOperands, both, bind, Except.bind, pure, Except.pure]

theorem Instruction.result?_ne {inst : Instruction} {action : Action}
    (found : inst.action? = some action) {v : Value}
    (other : inst.computes = true → inst.result ≠ v) : action.result? ≠ some v := by
  rw [(action_some (action_of_action? found)).result?_eq]
  split
  · next computes =>
      intro same
      exact other computes (Option.some.inj same)
  · simp

/-- An operation made again is reported, unless the first one or an instruction between the two
defines an operand. -/
theorem Repeats.reportedAgain {fn : Function} {first second : Instruction}
    {between : List Instruction} (repeats : Repeats fn first between second) {lhs rhs : Operand}
    (both : first.operands = [lhs, rhs])
    (undefined : ∀ inst ∈ first :: between, inst.computes = true →
      ∀ x ∈ first.operands, inst.result ≠ x.value)
    {settings : Numbering.Settings} (finished : (Numbering.ofFunction settings fn).fault = none)
    (distinct : (fn.instructions.map (·.id)).Nodup) : ReportedAgain settings fn first second := by
  obtain ⟨before, after, inOrder⟩ := repeats.inOrder
  have isBinary : second.isBinary = true := by
    have binary := repeats.binary
    rwa [Instruction.isBinary, ← repeats.opcode] at binary
  obtain ⟨lhs', rhs', both', left, right⟩ : ∃ lhs' rhs', second.operands = [lhs', rhs'] ∧
    lhs'.value = lhs.value ∧
      rhs'.value = rhs.value := by
    have operands := repeats.operands
    rw [both] at operands
    obtain ⟨lhs', rest, isCons, left, operands⟩ := List.map_eq_cons_iff.mp operands
    obtain ⟨rhs', more, isCons', right, none⟩ := List.map_eq_cons_iff.mp operands
    rw [List.map_eq_nil_iff.mp none] at isCons'
    exact ⟨lhs', rhs', by rw [isCons, isCons'], left, right⟩
  have firstAction := Instruction.action?_of_binary repeats.binary both
  have secondAction := Instruction.action?_of_binary isBinary both'
  rw [left, right, repeats.opcode] at secondAction
  have isFirst : first ∈ fn.instructions := by simp [inOrder]
  have isSecond : second ∈ fn.instructions := by simp [inOrder]
  obtain ⟨r, onlyFirst, firstNumber⟩ :=
    Numbering.number_of_result finished distinct isFirst
      (by simp [Instruction.computes, repeats.binary])
  obtain ⟨s, onlySecond, secondNumber⟩ :=
    Numbering.number_of_result finished distinct isSecond (by simp [Instruction.computes, isBinary])
  have isRecord := Numbering.decision_of_record finished inOrder firstAction onlyFirst
  have inOrder' : fn.instructions = (before ++ first :: between) ++ second :: after := by
    simp [inOrder]
  have isRecord' := Numbering.decision_of_record finished inOrder' secondAction onlySecond
  -- What is known before the second operation is what the first one left, after the instructions
  -- between.
  rw [List.filterMap_append, List.filterMap_cons_some firstAction, Knowledge.performAll_append,
    Knowledge.performAll] at isRecord'
  have apart : ∀ x ∈ first.operands, ∀ action ∈ between.filterMap (·.action?),
      action.result? ≠ some x.value := by
    intro x isOperand action member
    obtain ⟨inst, isBetween, found⟩ := List.mem_filterMap.mp member
    exact Instruction.result?_ne found fun computes =>
      undefined inst (List.mem_cons_of_mem _ isBetween) computes x isOperand
  have own : ∀ x ∈ first.operands, first.result ≠ x.value :=
    undefined first (List.mem_cons_self ..) (by simp [Instruction.computes, repeats.binary])
  have leftIn : lhs ∈ first.operands := by simp [both]
  have rightIn : rhs ∈ first.operands := by simp [both]
  have remembered := Knowledge.remembers_compute
    ((Numbering.initial settings.shareLiterals).performAll (before.filterMap (·.action?))).2
    first.opcode (own lhs leftIn) (own rhs rightIn)
  have kept := remembered.performAll (apart lhs leftIn) (apart rhs rightIn)
  obtain ⟨number, redundant⟩ := kept.again second.result
  have sameNumber : s.number = r.number := by
    calc
      s.number = _ := congrArg Decision.number isRecord'
      _ = _ := number
      _ = r.number := (congrArg Decision.number isRecord).symm
  refine ⟨r, s, onlyFirst, onlySecond, firstNumber, sameNumber ▸ secondNumber, sameNumber, ?_⟩
  exact (congrArg Decision.redundant isRecord').trans redundant

end ValueNumbering
