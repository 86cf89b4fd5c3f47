import Mathlib.Algebra.GroupWithZero.Nat
import ValueNumbering.Pass.Reporting
import ValueNumbering.Proofs.Numbering.Actions
import ValueNumbering.Proofs.Pass.Calls

/-!
What is counted in a run. The host counts for each enabled stage the functions with a body and their
instructions; the pass that numbers functions counts its records and what it made of them.
-/

namespace ValueNumbering

/-- What the host counts. -/
def PassState.counts {σ : Type} (s : PassState σ) : Option (Nat × Nat) :=
  s.metrics.map fun m => (m.functions, m.instructions)

namespace Manager

variable {σ : Type}

def Call.Settles (call : Call σ) : Prop :=
  call.visit.result.toBool = true ∧ call.visit.state.counts = call.stage.state.counts

instance (call : Call σ) : Decidable call.Settles := inferInstanceAs (Decidable (_ ∧ _))

theorem Call.Settles.succeeds {call : Call σ} (settles : call.Settles) : call.Succeeds := by
  have isOk := settles.1
  cases ended : call.visit.result with
  | error fault => simp [ended, Except.toBool] at isOk
  | ok preserved => exact ⟨preserved, ended⟩

section

variable {config : Dictionary Text.CodePoints PassConfig} {stage : Stage σ}
    {stages : List (Stage σ)} {fn : Function}
  {fns : List Function}

theorem mem_callsFor (member : stage ∈ stages) (isEnabled : enabled config stage = true)
    (fn : Function) :
    ⟨stage, configFor config stage.pass, fn⟩ ∈ callsFor config stages fn :=
  List.mem_map.mpr ⟨stage, List.mem_filter.mpr ⟨member, isEnabled⟩, rfl⟩

theorem through_disabled (isDisabled : enabled config stage = false) (fn : Function) :
    through config fn stage = stage := by
  have passed : called config fn stage = stage := by simp [called, isDisabled]
  rw [enabled] at isDisabled
  simp [through, passed, countFunction, isDisabled]

theorem throughAll_disabled (isDisabled : enabled config stage = false) (fns : List Function) :
    throughAll config fns stage = stage := by
  induction fns with
  | nil => rfl
  | cons fn rest ih => rwa [throughAll, List.foldl_cons, through_disabled isDisabled]

/-- An enabled stage after a function: its state after the call, with the function counted. -/
theorem state_through (isEnabled : enabled config stage = true) (fn : Function) :
    (through config fn stage).state =
      let after := (Call.mk stage (configFor config stage.pass) fn).visit.state
      { after with metrics := after.metrics.map (·.addFunction fn) } := by
  have seen : called config fn stage =
      { stage with state := (Call.mk stage (configFor config stage.pass) fn).visit.state } := by
    simp [called, isEnabled]
  rw [enabled] at isEnabled
  simp [through, seen, countFunction, isEnabled]

theorem counts_through (isEnabled : enabled config stage = true)
    (settles : (Call.mk stage (configFor config stage.pass) fn).Settles) :
    (through config fn stage).state.counts = stage.state.counts.map fun c =>
      (c.1 + 1, c.2 + fn.instructionCount) := by
  have kept : _ = stage.state.counts := settles.2
  rw [state_through isEnabled, ← kept, PassState.counts, PassState.counts, Option.map_map,
    Option.map_map]
  rfl

theorem counts_throughAll (isEnabled : enabled config stage = true) (member : stage ∈ stages)
    (settle : ∀ call ∈ callsForAll config stages fns, call.Settles) :
    (throughAll config fns stage).state.counts =
      stage.state.counts.map fun c =>
        (c.1 + fns.length, c.2 + (fns.map (·.instructionCount)).sum) := by
  induction fns generalizing stage stages with
  | nil => simp [throughAll]
  | cons fn rest ih =>
      obtain ⟨here, later⟩ := List.forall_mem_append.mp settle
      have stays : enabled config (through config fn stage) = true :=
        (enabled_eq_of_pass (pass_through fn stage)).trans isEnabled
      have counted := counts_through isEnabled (here _ (mem_callsFor member isEnabled fn))
      calc
        _ = (throughAll config rest (through config fn stage)).state.counts := rfl
        _ = _ := ih stays (List.mem_map_of_mem member) later
        _ = _ := by
          rw [counted, Option.map_map]
          simp [Function.comp_def, Nat.add_assoc, Nat.add_comm 1]

end

end Manager

end ValueNumbering
