import ValueNumbering.Proofs.Pass.Counts
import ValueNumbering.Proofs.Pass.Effective

/-!
What stages of the pass that numbers functions write to the diagnostics of their host: for each
function a header and its lines, once for each stage, or nothing where the pass is switched off.
-/

namespace ValueNumbering

theorem Text.unlines_append (first second : List String) :
    Text.unlines (first ++ second) = Text.unlines first ++ Text.unlines second := by
  rw [Text.unlines, List.map_append, String.join_append, Text.unlines, Text.unlines]

namespace Reporting

def reportOf (settings : Numbering.Settings) (fn : Function) : List String :=
  s!"ValueNumbering: {fn.name}" :: (Numbering.ofFunction settings fn).numbering.lines

def reports (isOn : Bool) (settings : Numbering.Settings) (stages : Nat) (fn : Function) :
    List String :=
  (List.replicate stages (if isOn then reportOf settings fn else [])).flatten

theorem reports_succ (isOn : Bool) (settings : Numbering.Settings) (stages : Nat) (fn : Function) :
    reports isOn settings (stages + 1) fn =
      (if isOn then reportOf settings fn else []) ++ reports isOn settings stages fn := by
  rw [reports, List.replicate_succ, List.flatten_cons, reports]

structure Reports (settings : Numbering.Settings) (fn : Function) (visit : Visit Reporting) :
    Prop where
  result : visit.result = .ok .all
  diagnostics : visit.diagnostics = Text.unlines (reportOf settings fn)
  stream : visit.state.own.stream = none

theorem visit_reports {fn : Function} {config : PassConfig} {state : PassState Reporting}
    {settings : Numbering.Settings} (isEnabled : config.isEnabled = true)
    (asked : config.settings = .ok settings) (shared : state.own.stream = none)
    (finished : (Numbering.ofFunction settings fn).fault = none) :
    Reports settings fn (visit fn config state) := by
  constructor <;> simp [visit, isEnabled, asked, finished, write, shared, reportOf]

end Reporting

namespace Manager

/-- A stage of the pass that writes to the diagnostics of its host. -/
structure Shared (stage : Stage Reporting) : Prop where
  pass : stage.pass = reportingPass
  stream : stage.state.own.stream = none

section

variable {config : Dictionary Text.CodePoints PassConfig} {stages : List (Stage Reporting)}
    {stage : Stage Reporting}
  {settings : Numbering.Settings} {fn : Function} {fns : List Function}

theorem Shared.reports (shared : Shared stage)
    (isOn : (configFor config reportingPass).isEnabled = true)
    (asked : (configFor config reportingPass).settings = .ok settings)
    (finished : (Numbering.ofFunction settings fn).fault = none) :
    Reporting.Reports settings fn (Call.mk stage (configFor config stage.pass) fn).visit := by
  rw [Call.visit, shared.pass]
  exact Reporting.visit_reports isOn asked shared.stream finished

theorem Shared.enabled_eq (shared : Shared stage) :
    enabled config stage = (configFor config reportingPass).isEnabled := by
  rw [enabled, shared.pass]

theorem Shared.through (shared : Shared stage)
    (asked : (configFor config reportingPass).settings = .ok settings)
    (finished : (Numbering.ofFunction settings fn).fault = none) :
    Shared (through config fn stage) := by
  constructor
  · exact (pass_through fn stage).trans shared.pass
  · cases isOn : enabled config stage with
    | false =>
        rw [through_disabled isOn]
        exact shared.stream
    | true =>
        rw [state_through isOn]
        exact (shared.reports (shared.enabled_eq.symm.trans isOn) asked finished).stream

theorem callsFor_shared (shared : ∀ stage ∈ stages, Shared stage)
    (asked : (configFor config reportingPass).settings = .ok settings)
    (finished : (Numbering.ofFunction settings fn).fault = none) :
    (∀ call ∈ callsFor config stages fn, call.visit.result = .ok .all) ∧
      Call.written (callsFor config stages fn) = Text.unlines
        (Reporting.reports (configFor config reportingPass).isEnabled settings stages.length
          fn) := by
  induction stages with
  | nil => exact ⟨by simp [callsFor], rfl⟩
  | cons stage rest ih =>
      obtain ⟨first, others⟩ := List.forall_mem_cons.mp shared
      obtain ⟨succeed, written⟩ := ih others
      rw [List.length_cons, Reporting.reports_succ, Text.unlines_append, ← written]
      cases isOn : enabled config stage with
      | false =>
          rw [callsFor_cons_disabled isOn, ← first.enabled_eq, isOn]
          exact ⟨succeed, rfl⟩
      | true =>
          have reports := first.reports (first.enabled_eq.symm.trans isOn) asked finished
          rw [callsFor_cons_enabled isOn, Call.written_cons, reports.diagnostics,
            ← first.enabled_eq, isOn]
          exact ⟨List.forall_mem_cons.mpr ⟨reports.result, succeed⟩, rfl⟩

theorem callsForAll_shared (shared : ∀ stage ∈ stages, Shared stage)
    (asked : (configFor config reportingPass).settings = .ok settings)
    (finished : ∀ fn ∈ fns, (Numbering.ofFunction settings fn).fault = none) :
    (∀ call ∈ callsForAll config stages fns, call.visit.result = .ok .all) ∧
      Call.written (callsForAll config stages fns) = Text.unlines
        (fns.flatMap (Reporting.reports
          (configFor config reportingPass).isEnabled settings stages.length)) := by
  induction fns generalizing stages with
  | nil => exact ⟨by simp [callsForAll], rfl⟩
  | cons fn rest ih =>
      obtain ⟨here, later⟩ := List.forall_mem_cons.mp finished
      obtain ⟨succeed, written⟩ := callsFor_shared shared asked here
      have stay : ∀ stage ∈ stages.map (Manager.through config fn), Shared stage :=
        List.forall_mem_map.mpr fun stage member => (shared stage member).through asked here
      obtain ⟨others, more⟩ := ih stay later
      rw [List.length_map] at more
      rw [callsForAll, Call.written_append, written, more, List.flatMap_cons, Text.unlines_append]
      exact ⟨List.forall_mem_append.mpr ⟨succeed, others⟩, rfl⟩

end

/-- A run of stages of the pass over a module whose functions are all numbered in full. -/
structure Reported (m : Manager Reporting) (module : Module) (isOn : Bool)
    (settings : Numbering.Settings) (done : Execution Reporting) : Prop where
  result : done.result = .ok .all
  diagnostics : done.diagnostics = Text.unlines ((bodies module.functions).flatMap
    (Reporting.reports isOn settings m.stages.length))
  silent : m.printMetrics = false → done.printed = []
  encodable : (∀ text ∈ done.printed, text.IsEncodable) ↔
    (m.printMetrics = true → ∀ stage ∈ m.stages, (configFor m.config stage.pass).Printable)

section Run

variable {m : Manager Reporting} {module : Module} {isOn : Bool}
    {option : Text.CodePoints → Option Json}

theorem reported_of_calls {settings : Numbering.Settings}
    (succeed : ∀ call ∈ m.calls module, call.visit.result = .ok .all)
    (written : Call.written (m.calls module) =
      Text.unlines
        ((bodies module.functions).flatMap (Reporting.reports isOn settings m.stages.length)))
    (objects : OptionsAreObjects m.config m.stages) :
    Reported m module isOn settings (m.run module) := by
  have succeeds : ∀ call ∈ m.calls module, call.Succeeds :=
    fun call member => ⟨.all, succeed call member⟩
  obtain ⟨preserved, valid, -, diagnostics, result, printed⟩ := run_of_succeeds succeeds
  have all : preserved = .all := valid.mpr succeed
  constructor
  · exact all ▸ result fun _ => objects
  · exact diagnostics.trans written
  · intro off
    rw [printed, off]
    rfl
  · exact printed_isEncodable_iff succeeds fun _ => objects

/-- Stages of the pass report on each function as their configuration asks. Where there are none it
does not matter what it asks. -/
theorem run_shared (shared : ∀ stage ∈ m.stages, Shared stage)
    (asks : m.stages ≠ [] → Asks m.config isOn option)
    (width : ∀ value, option "column_width" = some value → ∃ n, value = .int n)
    (finished : ∀ fn ∈ bodies module.functions,
      (Numbering.ofFunction (settingsOf option) fn).fault = none) :
    Reported m module isOn (settingsOf option) (m.run module) := by
  by_cases none : m.stages = []
  · have noCalls : m.calls module = [] := by
      rw [calls, none]
      exact callsForAll_nil _ _
    have noReports : (bodies module.functions).flatMap
        (Reporting.reports isOn (settingsOf option) m.stages.length) = [] := by
      simp [none, Reporting.reports]
    refine reported_of_calls (by simp [noCalls]) ?_ (by simp [OptionsAreObjects, none])
    rw [noCalls, noReports]
    rfl
  · have asks := asks none
    have start : ∀ stage ∈ m.stages.map resetMetrics, Shared stage :=
      List.forall_mem_map.mpr fun stage member =>
        ⟨(shared stage member).pass, (shared stage member).stream⟩
    obtain ⟨succeed, written⟩ := callsForAll_shared start (asks.settings width) finished
    rw [List.length_map, asks.isOn] at written
    refine reported_of_calls succeed written fun stage member _ => ?_
    obtain ⟨own, isObject, -⟩ := asks.options
    rw [(shared stage member).pass]
    exact ⟨own, isObject⟩

end Run

end Manager

end ValueNumbering
