import ValueNumbering.Proofs.Pass.Totals

/-!
A run over a module visits and counts exactly: one call for each function with a body and each
enabled stage, in this order, and counts that are those of the module, whatever was counted before.
-/

namespace ValueNumbering

/-- A pass that does what another does, the state of that one put into a wider one. -/
structure Pass.Wraps {σ τ : Type} (inject : τ → σ) (inner : Pass τ) (outer : Pass σ) : Prop where
  name : outer.name = inner.name
  aliases : outer.aliases = inner.aliases
  visit : ∀ fn config own metrics, outer.visit fn config ⟨inject own, metrics⟩ =
    let visit := inner.visit fn config ⟨own, metrics⟩
    ⟨⟨inject visit.state.own, visit.state.metrics⟩, visit.diagnostics, visit.result⟩

namespace Reporting

theorem visit_succeeded {fn : Function} {config : PassConfig} {own : Reporting} {m : Metrics}
    {preserved : Preserved} (isEnabled : config.isEnabled = true)
    (succeeded : (visit fn config ⟨own, some m⟩).result = .ok preserved) :
    ∃ settings, config.settings = .ok settings ∧ (Numbering.ofFunction settings fn).fault = none ∧
      (visit fn config ⟨own, some m⟩).state.metrics =
        some (record m fn (Numbering.ofFunction settings fn).numbering) := by
  unfold visit at succeeded ⊢
  simp only [isEnabled, if_true] at succeeded ⊢
  cases asked : config.settings with
  | error fault => simp [asked] at succeeded
  | ok settings =>
      simp only [asked] at succeeded ⊢
      cases ended : (Numbering.ofFunction settings fn).fault with
      | some fault => simp [ended] at succeeded
      | none => exact ⟨settings, rfl, ended, by simp⟩

end Reporting

namespace Manager

variable {σ : Type} {config : Dictionary Text.CodePoints PassConfig} {stage : Stage σ}
    {stages : List (Stage σ)} {fn : Function}
  {fns : List Function} {inject : Reporting → σ} {own : Reporting} {m : Metrics}

theorem through_reporting (wraps : Pass.Wraps inject reportingPass stage.pass)
    (state : stage.state = ⟨inject own, some m⟩) (isEnabled : enabled config stage = true)
    (succeeds : (Call.mk stage (configFor config stage.pass) fn).Succeeds) :
    ∃ settings own', (configFor config stage.pass).settings = .ok settings ∧
      (Numbering.ofFunction settings fn).fault = none ∧
      (through config fn stage).state =
        ⟨inject own',
          some ((Reporting.record m fn (Numbering.ofFunction settings fn).numbering).addFunction
            fn)⟩ := by
  obtain ⟨preserved, ended⟩ := succeeds
  have visited : (Call.mk stage (configFor config stage.pass) fn).visit =
      let visit := Reporting.visit fn (configFor config stage.pass) ⟨own, some m⟩
      ⟨⟨inject visit.state.own, visit.state.metrics⟩, visit.diagnostics, visit.result⟩ := by
    rw [Call.visit, state]
    exact wraps.visit fn (configFor config stage.pass) own (some m)
  rw [visited] at ended
  obtain ⟨settings, asked, finished, recorded⟩ := Reporting.visit_succeeded isEnabled ended
  refine ⟨settings, (Reporting.visit fn (configFor config stage.pass) ⟨own, some m⟩).state.own,
    asked, finished, ?_⟩
  rw [state_through isEnabled, visited]
  simp only [recorded, Option.map_some]

theorem throughAll_reporting (wraps : Pass.Wraps inject reportingPass stage.pass)
    (state : stage.state = ⟨inject own, some m⟩) (isEnabled : enabled config stage = true)
    (member : stage ∈ stages) (succeed : ∀ call ∈ callsForAll config stages fns, call.Succeeds)
    {settings : Numbering.Settings}
    (asked : (configFor config stage.pass).settings = .ok settings) :
    (∀ fn ∈ fns, (Numbering.ofFunction settings fn).fault = none) ∧
      ∃ own', (throughAll config fns stage).state =
        ⟨inject own', some (Reporting.countAll settings m fns)⟩ := by
  induction fns generalizing stage stages own m with
  | nil => exact ⟨by simp, own, state⟩
  | cons fn rest ih =>
      obtain ⟨here, later⟩ := List.forall_mem_append.mp succeed
      obtain ⟨settings', own', asked', finished, after⟩ :=
        through_reporting wraps state isEnabled (here _ (mem_callsFor member isEnabled fn))
      obtain rfl : settings = settings' := Except.ok.inj (asked.symm.trans asked')
      have same : (through config fn stage).pass = stage.pass := pass_through fn stage
      obtain ⟨others, own'', last⟩ :=
        ih (same ▸ wraps) after ((enabled_eq_of_pass same).trans isEnabled)
        (List.mem_map_of_mem member) later (same ▸ asked)
      exact ⟨List.forall_mem_cons.mpr ⟨finished, others⟩, own'', last⟩

def Call.site (call : Call σ) : Pass σ × PassConfig × Function :=
  (call.stage.pass, call.config, call.fn)

def sitesFor (config : Dictionary Text.CodePoints PassConfig) (passes : List (Pass σ))
    (fn : Function) :
    List (Pass σ × PassConfig × Function) :=
  (passes.filter fun pass => (configFor config pass).isEnabled).map fun pass =>
    (pass, configFor config pass, fn)

theorem site_callsFor (config : Dictionary Text.CodePoints PassConfig) (stages : List (Stage σ))
    (fn : Function) :
    (callsFor config stages fn).map (·.site) = sitesFor config (stages.map (·.pass)) fn := by
  rw [callsFor, sitesFor, List.filter_map, List.map_map, List.map_map]
  rfl

theorem site_callsForAll (config : Dictionary Text.CodePoints PassConfig) (stages : List (Stage σ))
    (fns : List Function) :
    (callsForAll config stages fns).map (·.site) =
      fns.flatMap (sitesFor config (stages.map (·.pass))) := by
  induction fns generalizing stages with
  | nil => rfl
  | cons fn rest ih =>
      have same : (stages.map (through config fn)).map (·.pass) = stages.map (·.pass) := by
        rw [List.map_map]
        exact List.map_congr_left fun stage _ => pass_through fn stage
      rw [callsForAll, List.map_append, site_callsFor, ih, same, List.flatMap_cons]

/-- What a run over a module comes to: its calls in their order, what they write and leave valid
together, and the counts of each stage. The options of an entry have to be objects where the stages
are reported on. -/
structure Exact (m : Manager σ) (module : Module) (done : Execution σ) : Prop where
  order : (m.calls module).map (·.site) =
    (bodies module.functions).flatMap (sitesFor m.config (m.stages.map (·.pass)))
  diagnostics : done.diagnostics = Call.written (m.calls module)
  result : (m.printMetrics = true → OptionsAreObjects m.config m.stages) →
    ∃ preserved, done.result = .ok preserved ∧ Call.LeaveValid (m.calls module) preserved
  states : done.manager.stages = m.stages.map fun stage =>
    throughAll m.config (bodies module.functions) (resetMetrics stage)
  counts : List.Forall₂ (fun stage after => after.state.counts =
      some (if enabled m.config stage then
          ((bodies module.functions).length,
            ((bodies module.functions).map (·.instructionCount)).sum)
        else (0, 0)))
    m.stages done.manager.stages
  totals : ∀ inject own, List.Forall₂ (fun stage after =>
      Pass.Wraps inject reportingPass stage.pass → stage.state.own = inject own →
        enabled m.config stage = true →
        bodies module.functions ≠ [] →
          ∃ settings metrics, (configFor m.config stage.pass).settings = .ok settings ∧
            after.state.metrics = some metrics ∧
            Reporting.Totals metrics ((bodies module.functions).map fun fn =>
              (Numbering.ofFunction settings fn).numbering))
    m.stages done.manager.stages

/-- The host's counts for a stage of a run begin at zero, and an enabled stage has counted every
function with a body. -/
theorem counts_of_run {m : Manager σ} {module : Module}
    (settle : ∀ call ∈ m.calls module, call.Settles) {stage : Stage σ} (member : stage ∈ m.stages) :
    (throughAll m.config (bodies module.functions) (resetMetrics stage)).state.counts =
      some (if enabled m.config stage then
          ((bodies module.functions).length,
            ((bodies module.functions).map (·.instructionCount)).sum)
        else (0, 0)) := by
  have inside : resetMetrics stage ∈ m.stages.map resetMetrics := List.mem_map_of_mem member
  have start : (resetMetrics stage).state.counts = some (0, 0) := rfl
  cases isEnabled : enabled m.config stage with
  | false =>
      have stays : enabled m.config (resetMetrics stage) = false := isEnabled
      rw [throughAll_disabled stays, start]
      rfl
  | true =>
      have stays : enabled m.config (resetMetrics stage) = true := isEnabled
      rw [counts_throughAll stays inside settle, start]
      simp

theorem totals_of_run {m : Manager σ} {module : Module}
    (succeed : ∀ call ∈ m.calls module, call.Succeeds) {stage : Stage σ} (member : stage ∈ m.stages)
    {inject : Reporting → σ} {own : Reporting} (wraps : Pass.Wraps inject reportingPass stage.pass)
    (isOwn : stage.state.own = inject own) (isEnabled : enabled m.config stage = true)
    (nonempty : bodies module.functions ≠ []) :
    ∃ settings metrics, (configFor m.config stage.pass).settings = .ok settings ∧
      (throughAll m.config (bodies module.functions) (resetMetrics stage)).state.metrics =
        some metrics ∧
      Reporting.Totals metrics ((bodies module.functions).map fun fn =>
        (Numbering.ofFunction settings fn).numbering) := by
  have inside : resetMetrics stage ∈ m.stages.map resetMetrics := List.mem_map_of_mem member
  have state : (resetMetrics stage).state = ⟨inject own, some {}⟩ := isOwn ▸ rfl
  have stays : enabled m.config (resetMetrics stage) = true := isEnabled
  have numbers : Pass.Wraps inject reportingPass (resetMetrics stage).pass := wraps
  obtain ⟨fn, rest, split⟩ := List.exists_cons_of_ne_nil nonempty
  have first : ⟨resetMetrics stage, configFor m.config stage.pass, fn⟩ ∈ m.calls module := by
    rw [calls, split]
    exact List.mem_append_left _ (mem_callsFor inside stays fn)
  obtain ⟨settings, -, asked, -⟩ := through_reporting numbers state stays (succeed _ first)
  obtain ⟨finished, own', last⟩ := throughAll_reporting numbers state stays inside succeed asked
  exact ⟨settings, _, asked, by rw [last], Reporting.totals_countAll settings nonempty finished⟩

/-- A run in which every call succeeds visits and counts exactly, whatever an earlier run has
counted. -/
theorem module_visited_exactly (m : Manager σ) (module : Module)
    (settle : ∀ call ∈ m.calls module, call.Settles) :
    Exact m module (m.run module) := by
  have succeed : ∀ call ∈ m.calls module, call.Succeeds :=
    fun call member => (settle call member).succeeds
  obtain ⟨preserved, valid, stages, diagnostics, result, -⟩ := run_of_succeeds succeed
  have passes : (m.stages.map resetMetrics).map (·.pass) = m.stages.map (·.pass) := List.map_map
  refine ⟨?_, diagnostics, fun objects => ⟨preserved, result objects, valid⟩, stages, ?_, ?_⟩
  · rw [calls, site_callsForAll, passes]
  · rw [stages, List.forall₂_map_right_iff, List.forall₂_same]
    exact fun stage member => counts_of_run settle member
  · intro inject own
    rw [stages, List.forall₂_map_right_iff, List.forall₂_same]
    exact fun stage member => totals_of_run succeed member

def namingPass (name : String) : Pass Reporting :=
  { name := name, visit := fun fn _ state => { state := state, diagnostics := fn.name ++ "\n",
                                               result := .ok .none } }

/-- Three stages, the last of them switched off, with counts of an earlier run. -/
def threeStages : Manager Reporting :=
  { stages := [⟨reportingPass, { own := {},
                                 metrics := some { functions := 5, custom := ⟨[("loads", 3)]⟩ } }⟩,
      ⟨namingPass "names", { own := {} }⟩,
        ⟨namingPass "off", { own := {}, metrics := some { instructions := 8 } }⟩],
    config := ⟨[("off", { name := "off", enabled := .bool false })]⟩ }

def twoBodies : Module :=
  let x : Operand := ⟨"i32", ⟨0, .argument "x" "i32"⟩⟩
  let p : Operand := ⟨"ptr", ⟨1, .global "p" "ptr"⟩⟩
  let sum (id : Nat) : Instruction :=
    { id := id, opcode := .add, operands := [x, x], name := some "s" }
  let loaded : Instruction := { id := 4, opcode := .load, operands := [p], name := some "v" }
  let stored : Instruction := { id := 5, opcode := .store, operands := [loaded.operand, p] }
  { functions := [{ name := "f", blocks := [⟨"entry", [sum 2, sum 3]⟩] }, { name := "d" },
      { name := "g", blocks := [⟨"entry", [loaded]⟩, ⟨"next", [stored]⟩] }] }

theorem threeStages_exact :
    Exact threeStages twoBodies (threeStages.run twoBodies) ∧
      (threeStages.run twoBodies).manager.stages.map (·.state.counts) =
        [some (2, 4), some (2, 4), some (0, 0)] ∧
      (threeStages.run twoBodies).manager.stages.map
        (fun stage => stage.state.metrics.map (·.custom.entries)) =
        [some [("instructions_numbered", 4), ("stores", 1), ("loads", 1), ("binary_ops", 2),
          ("redundant", 1),
          ("values_numbered", 3)], some [], some []] :=
  ⟨module_visited_exactly threeStages twoBodies (by decide), by decide, by decide⟩

end Manager

end ValueNumbering
