import ValueNumbering.Proofs.Lists
import ValueNumbering.Proofs.Numbering.Stopping

/-!
Functions that numbering always gets through: every instruction has its line and the operands that
its opcode calls for. Where no two instructions are one object, each result has in the end the
number of its record.
-/

namespace ValueNumbering

/-- An instruction with its line and its operands, as it is after reading. -/
structure Instruction.Complete (inst : Instruction) : Prop where
  text : ∃ line, inst.text = some line
  operands : inst.operands.length = inst.opcode.operandCount

def Instruction.computes (inst : Instruction) : Bool :=
  decide (inst.opcode = .load) || inst.isBinary

def Action.result? : Action → Option Value
  | .store _ _ => none
  | .load result _ => some result
  | .binary _ result _ _ => some result

namespace Instruction

variable {inst : Instruction}

theorem Complete.fit (complete : inst.Complete) : ¬inst.Unfit := by
  have operands := complete.operands
  rintro (⟨opcode, none⟩ | ⟨-, noText, -⟩ | ⟨opcode, none⟩ | ⟨binary, notTwo⟩)
  · simp [opcode, none, Opcode.operandCount] at operands
  · obtain ⟨line, kept⟩ := complete.text
    simp [kept] at noText
  · simp [opcode, none, Opcode.operandCount] at operands
  · have two : inst.opcode.operandCount = 2 := by
      rw [isBinary] at binary
      cases opcode : inst.opcode <;> simp_all [Opcode.operandCount, Opcode.isBinary]
    exact notTwo (operands.trans two)

theorem isNumbered_of_computes (computes : inst.computes = true) : inst.isNumbered = true := by
  simp only [Instruction.computes, Bool.or_eq_true] at computes
  rcases computes with load | binary <;> simp [Instruction.isNumbered, *]

theorem Performs.result?_eq {action : Action} (performs : inst.Performs action) :
    action.result? = if inst.computes then some inst.result else none := by
  cases performs with
  | store opcode first last => simp [Action.result?, computes, isBinary, opcode, Opcode.isBinary]
  | load opcode last => simp [Action.result?, computes, opcode]
  | binary opcode both => simp [Action.result?, computes, opcode]

end Instruction

namespace Store

theorem numberOf_keeps {s : Store} {v w : Value} {n : Int} (found : s.values.find? v = some n) :
    (s.numberOf w).2.values.find? v = some n := by
  unfold numberOf
  cases known : s.values.find? w with
  | some number => exact found
  | none =>
      have different : w ≠ v := by
        rintro rfl
        simp [known] at found
      exact (Dictionary.find?_insert_of_ne _ _ different).trans found

theorem resolve_keeps {s : Store} {v w : Value} {n : Int} (found : s.values.find? v = some n) :
    (s.resolve w).2.values.find? v = some n := by
  unfold resolve
  split
  · unfold numberOfLiteral
    split <;> exact found
  · exact numberOf_keeps found

end Store

namespace Knowledge

variable {k : Knowledge} {action : Action} {v : Value} {n : Int}

theorem perform_keeps (found : k.store.values.find? v = some n) (other : action.result? ≠ some v) :
    (k.perform action).2.store.values.find? v = some n := by
  cases action with
  | store value pointer => exact Store.resolve_keeps found
  | load result pointer =>
      have different : result ≠ v := fun same => other (congrArg some same)
      dsimp only [perform, loadFrom]
      split <;> exact (Dictionary.find?_insert_of_ne _ _ different).trans found
  | binary opcode result lhs rhs =>
      have different : result ≠ v := fun same => other (congrArg some same)
      have resolved := Store.resolve_keeps (w := rhs) (Store.resolve_keeps (w := lhs) found)
      dsimp only [perform, compute]
      split <;> exact (Dictionary.find?_insert_of_ne _ _ different).trans resolved

theorem perform_binds (result : action.result? = some v) :
    (k.perform action).2.store.values.find? v = some (k.perform action).1.number := by
  cases action with
  | store value pointer => cases result
  | load target pointer =>
      cases result
      dsimp only [perform, loadFrom]
      split <;> exact Dictionary.find?_insert_self _ _ _
  | binary opcode target lhs rhs =>
      cases result
      dsimp only [perform, compute]
      split <;> exact Dictionary.find?_insert_self _ _ _

end Knowledge

namespace Numbering

theorem fault_of_complete {column : Int} (inRange : Line.columnInRange column = true)
    {n : Numbering} {instructions : List Instruction}
    (complete : ∀ inst ∈ instructions, inst.Complete) :
    (visitAll column n instructions).fault = none :=
  fault_of_fit inRange fun inst member => (complete inst member).fit

theorem exists_visit_iff_of_outOfRange {column : Int}
    (outOfRange : Line.columnInRange column = false) {n : Numbering} {inst : Instruction}
    (complete : inst.Complete) :
    (∃ next, visit column n inst = .ok next) ↔ inst.isNumbered = false := by
  constructor
  · rintro ⟨next, visited⟩
    cases visited_of_visit visited with
    | skipped unmodelled => exact Instruction.action_none unmodelled
    | recorded found shown =>
        obtain ⟨fault, unwritten⟩ := Line.ofDecision_outOfRange inst outOfRange _
        cases unwritten.symm.trans shown
  · intro notNumbered
    obtain ⟨action, found⟩ := Instruction.exists_action complete.fit
    cases action with
    | none => exact ⟨n, by rw [visit, found]⟩
    | some action =>
        have numbered := (Instruction.action_some found).isNumbered
        cases notNumbered.symm.trans numbered

/-- A run over instructions with their lines and operands is complete where the column is in range,
or nothing is numbered. -/
theorem fault_eq_none_iff {column : Int} {n : Numbering} {instructions : List Instruction}
    (complete : ∀ inst ∈ instructions, inst.Complete) :
    (visitAll column n instructions).fault = none ↔
      ((∃ inst ∈ instructions, inst.isNumbered = true) → Line.columnInRange column = true) := by
  cases inRange : Line.columnInRange column with
  | true => simp [fault_of_complete inRange complete]
  | false =>
      induction instructions generalizing n with
      | nil => simp [visitAll]
      | cons inst rest ih =>
          obtain ⟨first, later⟩ := List.forall_mem_cons.mp complete
          have through := exists_visit_iff_of_outOfRange inRange (n := n) first
          cases visited : visit column n inst with
          | error fault => simp_all [visitAll]
          | ok next => simp_all [visitAll]

/-- Every result that has a record has the number of the record. -/
def Kept (n : Numbering) : Prop :=
  ∀ r ∈ n.records, r.instruction.computes = true → n.number? r.instruction.result = some r.number

theorem Kept.visit {column : Int} {n next : Numbering} {inst : Instruction} (kept : Kept n)
    (visited : Visited column n inst next) (new : ∀ r ∈ n.records, r.instruction.id ≠ inst.id) :
    Kept next := by
  cases visited with
  | skipped unmodelled => exact kept
  | @recorded action line found shown =>
      have result := (Instruction.action_some found).result?_eq
      intro r member computes
      rcases List.mem_append.mp member with old | last
      · -- The instruction is another object than that of the record: its result is bound elsewhere.
        refine Knowledge.perform_keeps (kept r old computes) ?_
        rw [result]
        intro same
        split at same
        · exact new r old (congrArg Value.id (Option.some.inj same)).symm
        · cases same
      · rw [List.mem_singleton.mp last] at computes ⊢
        simp only at computes
        rw [if_pos computes] at result
        exact Knowledge.perform_binds result

theorem Kept.visitAll {column : Int} {n : Numbering} {instructions : List Instruction}
    (kept : Kept n) (distinct : (instructions.map (·.id)).Nodup)
    (new : ∀ r ∈ n.records, ∀ inst ∈ instructions, r.instruction.id ≠ inst.id)
    (finished : (visitAll column n instructions).fault = none) :
    Kept (visitAll column n instructions).numbering := by
  induction instructions generalizing n with
  | nil => exact kept
  | cons inst rest ih =>
      unfold Numbering.visitAll at finished ⊢
      split at finished
      · cases finished
      · next next step =>
          have visited := visited_of_visit step
          rw [List.map_cons, List.nodup_cons] at distinct
          have kept' := kept.visit visited fun r member => new r member inst (List.mem_cons_self ..)
          refine ih kept' distinct.2 ?_ finished
          intro r member other later
          cases visited with
          | skipped unmodelled => exact new r member other (List.mem_cons_of_mem _ later)
          | recorded found shown =>
              rcases List.mem_append.mp member with old | last
              · exact new r old other (List.mem_cons_of_mem _ later)
              · rw [List.mem_singleton.mp last]
                intro same
                exact distinct.1 (List.mem_map.mpr ⟨other, later, same.symm⟩)

theorem exists_one_record {settings : Settings} {fn : Function}
    (finished : (ofFunction settings fn).fault = none)
    (distinct : (fn.instructions.map (·.id)).Nodup) {inst : Instruction}
    (member : inst ∈ fn.instructions) (numbered : inst.isNumbered = true) :
    ∃ r, (ofFunction settings fn).numbering.records.filter (·.instruction = inst) = [r] := by
  have each := (oneRecordEach_of_finished finished).instructions_eq
  have recorded : inst ∈ (ofFunction settings fn).numbering.records.map (·.instruction) :=
    each ▸ List.mem_filter.mpr ⟨member, numbered⟩
  obtain ⟨r, isRecord, isInst⟩ := List.mem_map.mp recorded
  have apart : ((ofFunction settings fn).numbering.records.filterMap fun r =>
      some r.instruction).Nodup := by
    have inOrder : fn.instructions.Nodup :=
      List.Pairwise.of_map _ (fun _ _ differ same => differ (congrArg _ same)) distinct
    rw [List.filterMap_eq_map', each]
    exact List.Pairwise.filter _ inOrder
  exact ⟨r, by simpa using filter_eq_singleton apart isRecord (congrArg some isInst)⟩

theorem number_of_result {settings : Settings} {fn : Function}
    (finished : (ofFunction settings fn).fault = none)
    (distinct : (fn.instructions.map (·.id)).Nodup) {inst : Instruction}
    (member : inst ∈ fn.instructions) (computes : inst.computes = true) : ∃ r,
    (ofFunction settings fn).numbering.records.filter (·.instruction = inst) = [r] ∧
      (ofFunction settings fn).numbering.number? inst.result = some r.number := by
  have kept : Kept (ofFunction settings fn).numbering :=
    Kept.visitAll (by simp [Kept]) distinct (by simp) finished
  obtain ⟨r, only⟩ := exists_one_record finished distinct member
    (Instruction.isNumbered_of_computes computes)
  obtain ⟨isRecord, isInst⟩ := List.mem_filter.mp (only ▸ List.mem_singleton_self r)
  obtain rfl := of_decide_eq_true isInst
  exact ⟨r, only, kept r isRecord computes⟩

end Numbering

end ValueNumbering
