import ValueNumbering.Proofs.Numbering.Completion
import ValueNumbering.Proofs.Pass.Effective
import ValueNumbering.Proofs.Pass.ModuleRun

/-!
When a run over a module succeeds: where each of its calls does and the options that it reports are
objects. Stages that number functions need an entry that serves the functions of the module, and no
more.
-/

namespace ValueNumbering

open Text (CodePoints)

namespace Manager

section

variable {σ : Type} {config : Dictionary CodePoints PassConfig} {stages : List (Stage σ)}
    {fn : Function} {preserved : Preserved}

theorem succeeds_of_runStages (succeeded : (runStages config fn stages).2.2 = .ok preserved) :
    ∀ call ∈ callsFor config stages fn, call.Succeeds := by
  induction stages generalizing preserved with
  | nil => simp [callsFor]
  | cons stage rest ih =>
      cases isEnabled : enabled config stage with
      | false =>
          rw [callsFor_cons_disabled isEnabled]
          rw [enabled] at isEnabled
          apply ih
          simpa [runStages, isEnabled] using succeeded
      | true =>
          rw [callsFor_cons_enabled isEnabled]
          rw [enabled] at isEnabled
          cases ended : (stage.pass.visit fn (configFor config stage.pass) stage.state).result with
          | error fault => simp [runStages, isEnabled, ended] at succeeded
          | ok first =>
              have here : (Call.mk stage (configFor config stage.pass) fn).Succeeds :=
                ⟨first, ended⟩
              cases others : (runStages config fn rest).2.2 with
              | error fault => simp [runStages, isEnabled, ended, others, Except.map] at succeeded
              | ok last => exact List.forall_mem_cons.mpr ⟨here, ih others⟩

theorem succeeds_of_runFunctions {m : Manager σ} {functions : List Function}
    (succeeded : (runFunctions m functions).result = .ok preserved) :
    ∀ call ∈ callsForAll m.config m.stages (bodies functions), call.Succeeds := by
  induction functions generalizing m preserved with
  | nil => simp [bodies, callsForAll]
  | cons fn rest ih =>
      cases declared : fn.isDeclaration with
      | true =>
          rw [bodies_cons_declaration declared]
          apply ih
          rwa [runFunctions, if_pos declared] at succeeded
      | false =>
          rw [bodies_cons_body declared, callsForAll]
          rw [runFunctions, if_neg (by simp [declared])] at succeeded
          cases ended : (runStages m.config fn m.stages).2.2 with
          | error fault => simp [runOnFunction, ended] at succeeded
          | ok first =>
              -- The calls for this function succeed, so it leaves the stages that the calls for the
              -- others begin with.
              have here := succeeds_of_runStages ended
              obtain ⟨_, -, ran⟩ := runStages_of_succeeds here
              have counted : (m.stages.map (called m.config fn)).map (countFunction m.config fn) =
                  m.stages.map (through m.config fn) := List.map_map
              simp only [runOnFunction, ran, counted] at succeeded
              have later : ∀ call ∈ callsForAll m.config (m.stages.map (through m.config fn))
                  (bodies rest), call.Succeeds := by
                cases others : (runFunctions { m with stages := m.stages.map (through m.config fn) }
                  rest).result with
                | error fault => simp [others, Except.map] at succeeded
                | ok last => exact ih others
              exact List.forall_mem_append.mpr ⟨here, later⟩

theorem report_complete_iff : (report config stages).2 = none ↔
    OptionsAreObjects config stages := by
  refine ⟨fun complete => ?_, report_complete⟩
  induction stages with
  | nil => simp [OptionsAreObjects]
  | cons stage rest ih =>
      rcases reported : stageReport config stage with ⟨text, fault⟩
      cases fault with
      | some fault => simp [report, reported] at complete
      | none =>
          refine List.forall_mem_cons.mpr
            ⟨fun isEnabled => ?_, ih (by simpa [report, reported] using complete)⟩
          rw [enabled] at isEnabled
          simp only [stageReport, isEnabled, if_true] at reported
          split at reported
          · cases reported
          · next members isObject => exact ⟨members, Json.membersFor_eq_ok.mp isObject⟩

/-- A run succeeds where its calls do and the options that it reports are objects. -/
theorem run_result_iff {m : Manager σ} {module : Module} :
    (∃ preserved, (m.run module).result = .ok preserved) ↔
      (∀ call ∈ m.calls module, call.Succeeds) ∧
        (m.printMetrics = true → OptionsAreObjects m.config m.stages) := by
  constructor
  · rintro ⟨preserved, succeeded⟩
    have succeed : ∀ call ∈ m.calls module, call.Succeeds := by
      cases ended :
        (runFunctions { m with stages := m.stages.map resetMetrics } module.functions).result with
      | error fault => simp [run, ended] at succeeded
      | ok whole => exact succeeds_of_runFunctions ended
    refine ⟨succeed, fun on => ?_⟩
    obtain ⟨whole, -, ran⟩ :=
      runFunctions_of_succeeds (m := { m with stages := m.stages.map resetMetrics }) succeed
    simp only [run, ran] at succeeded
    rcases reported : report m.config
      ((m.stages.map resetMetrics).map (throughAll m.config (bodies module.functions))) with
      ⟨text, fault⟩
    cases fault with
    | some fault =>
        rw [List.map_map] at reported
        simp [on, reported] at succeeded
    | none =>
        refine OptionsAreObjects.of_passes (report_complete_iff.mp (congrArg Prod.snd reported)) ?_
        rw [List.map_map, List.map_map]
        exact List.map_congr_left fun stage _ => (pass_throughAll _ (resetMetrics stage)).symm
  · rintro ⟨succeed, objects⟩
    obtain ⟨preserved, comes⟩ := run_of_succeeds succeed
    exact ⟨preserved, comes.result objects⟩

end

end Manager

namespace PassConfig

def column (entry : PassConfig) : Json := (entry.options.member? "column_width").getD (.int 40)

/-- An entry that functions can be numbered by, and reported on where that is asked for. Unless it
switches the pass off its options are an object and its column a number, which is in range where a
line is to be padded to it. -/
structure Serves (entry : PassConfig) (reported : Bool) (fns : List Function) : Prop where
  options : entry.isEnabled = true → fns ≠ [] ∨ reported = true → entry.options.IsObject
  column : entry.isEnabled = true → fns ≠ [] → ∃ n, columnOf entry.column = .ok n ∧
    ((∃ fn ∈ fns, ∃ inst ∈ fn.instructions, inst.isNumbered = true) → Line.columnInRange n = true)

theorem serves_congr {entry other : PassConfig} (isOn : entry.isEnabled = other.isEnabled)
    (options : entry.options.IsObject ↔ other.options.IsObject)
    (column : entry.column = other.column) {reported : Bool} {fns : List Function} :
    entry.Serves reported fns ↔ other.Serves reported fns := by
  constructor
  · rintro ⟨object, number⟩
    rw [isOn, options] at object
    rw [isOn, column] at number
    exact ⟨object, number⟩
  · rintro ⟨object, number⟩
    rw [← isOn, ← options] at object
    rw [← isOn, ← column] at number
    exact ⟨object, number⟩

variable {entry : PassConfig} {n : Int}

theorem exists_settings_iff :
    (∃ settings, entry.settings = .ok settings ∧ settings.column = n) ↔ entry.options.IsObject ∧
      columnOf entry.column = .ok n := by
  cases given : entry.options with
  | obj own =>
      have same : entry.column = (own.find? "column_width").getD (.int 40) := by
        rw [column, given]; rfl
      rw [same]
      cases read : columnOf ((own.find? "column_width").getD (.int 40)) <;>
        simp [settings, given, Json.membersFor, Json.IsObject, read, bind, Except.bind, pure,
          Except.pure]
  | _ => simp [settings, given, Json.membersFor, Json.IsObject, bind, Except.bind]

theorem serves_iff {reported : Bool} {fns : List Function}
    (complete : ∀ fn ∈ fns, ∀ inst ∈ fn.instructions, inst.Complete) :
    entry.Serves reported fns ↔
      (entry.isEnabled = true → ∀ fn ∈ fns, ∃ settings, entry.settings = .ok settings ∧
        (Numbering.ofFunction settings fn).fault = none) ∧
      (reported = true → entry.isEnabled = true → entry.options.IsObject) := by
  constructor
  · rintro ⟨options, column⟩
    refine ⟨fun isEnabled fn member => ?_, fun on isEnabled => options isEnabled (.inr on)⟩
    have nonempty : fns ≠ [] := List.ne_nil_of_mem member
    obtain ⟨n, isColumn, inRange⟩ := column isEnabled nonempty
    obtain ⟨settings, asked, rfl⟩ :=
      exists_settings_iff.mpr ⟨options isEnabled (.inl nonempty), isColumn⟩
    refine ⟨settings, asked, (Numbering.fault_eq_none_iff (complete fn member)).mpr ?_⟩
    rintro ⟨inst, inside, numbered⟩
    exact inRange ⟨fn, member, inst, inside, numbered⟩
  · rintro ⟨numbered, shown⟩
    constructor
    · rintro isEnabled (nonempty | on)
      · obtain ⟨fn, member⟩ := List.exists_mem_of_ne_nil fns nonempty
        obtain ⟨settings, asked, -⟩ := numbered isEnabled fn member
        exact (exists_settings_iff.mp ⟨settings, asked, rfl⟩).1
      · exact shown on isEnabled
    · intro isEnabled nonempty
      obtain ⟨fn, member⟩ := List.exists_mem_of_ne_nil fns nonempty
      obtain ⟨settings, asked, -⟩ := numbered isEnabled fn member
      refine ⟨settings.column, (exists_settings_iff.mp ⟨settings, asked, rfl⟩).2, ?_⟩
      rintro ⟨other, isOther, inst, inside, isNumbered⟩
      obtain ⟨same, again, finished⟩ := numbered isEnabled other isOther
      obtain rfl : settings = same := Except.ok.inj (asked.symm.trans again)
      exact (Numbering.fault_eq_none_iff (complete other isOther)).mp finished
        ⟨inst, inside, isNumbered⟩

end PassConfig

namespace Reporting

theorem visit_succeeds_iff {fn : Function} {config : PassConfig} {state : PassState Reporting}
    (isEnabled : config.isEnabled = true) :
    (∃ preserved, (visit fn config state).result = .ok preserved) ↔
      ∃ settings, config.settings = .ok settings ∧
        (Numbering.ofFunction settings fn).fault = none := by
  cases asked : config.settings with
  | error fault => simp [visit, isEnabled, asked]
  | ok settings =>
      cases ended : (Numbering.ofFunction settings fn).fault <;>
        simp [visit, isEnabled, asked, ended]

end Reporting

namespace Manager

variable {m : Manager Reporting} {module : Module}

theorem mem_sites_iff (passes : ∀ stage ∈ m.stages, stage.pass = reportingPass)
    (nonempty : m.stages ≠ []) {site : Pass Reporting × PassConfig × Function} :
    site ∈ (m.calls module).map (·.site) ↔ (configFor m.config reportingPass).isEnabled = true ∧
      ∃ fn ∈ bodies module.functions,
        site = (reportingPass, configFor m.config reportingPass, fn) := by
  have isPass : ∀ pass, pass ∈ (m.stages.map resetMetrics).map (·.pass) ↔ pass = reportingPass := by
    intro pass
    rw [List.map_map]
    constructor
    · intro member
      obtain ⟨stage, inside, rfl⟩ := List.mem_map.mp member
      exact passes stage inside
    · rintro rfl
      obtain ⟨stage, inside⟩ := List.exists_mem_of_ne_nil m.stages nonempty
      exact List.mem_map.mpr ⟨stage, inside, passes stage inside⟩
  rw [calls, site_callsForAll, List.mem_flatMap]
  constructor
  · rintro ⟨fn, isBody, isSite⟩
    obtain ⟨pass, member, rfl⟩ := List.mem_map.mp isSite
    obtain ⟨inside, isEnabled⟩ := List.mem_filter.mp member
    obtain rfl := (isPass pass).mp inside
    exact ⟨isEnabled, fn, isBody, rfl⟩
  · rintro ⟨isEnabled, fn, isBody, rfl⟩
    exact ⟨fn, isBody, List.mem_map.mpr
      ⟨reportingPass, List.mem_filter.mpr ⟨(isPass _).mpr rfl, isEnabled⟩, rfl⟩⟩

theorem visit_of_site {call : Call Reporting} {config : PassConfig} {fn : Function}
    (site : call.site = (reportingPass, config, fn)) :
    call.visit = Reporting.visit fn config call.stage.state := by
  simp only [Call.site, Prod.mk.injEq] at site
  obtain ⟨pass, config, fn⟩ := site
  rw [Call.visit, pass, config, fn]
  rfl

theorem calls_succeed_iff (passes : ∀ stage ∈ m.stages, stage.pass = reportingPass)
    (nonempty : m.stages ≠ []) :
    (∀ call ∈ m.calls module, call.Succeeds) ↔
      ((configFor m.config reportingPass).isEnabled = true →
        ∀ fn ∈ bodies module.functions, ∃ settings,
        (configFor m.config reportingPass).settings = .ok settings ∧
          (Numbering.ofFunction settings fn).fault = none) := by
  constructor
  · intro succeed isEnabled fn member
    obtain ⟨call, inside, site⟩ :=
  List.mem_map.mp ((mem_sites_iff passes nonempty).mpr ⟨isEnabled, fn, member, rfl⟩)
    have succeeds := succeed call inside
    rw [Call.Succeeds, visit_of_site site] at succeeds
    exact (Reporting.visit_succeeds_iff isEnabled).mp succeeds
  · intro numbered call inside
    obtain ⟨isEnabled, fn, member, site⟩ :=
      (mem_sites_iff passes nonempty).mp (List.mem_map_of_mem inside)
    rw [Call.Succeeds, visit_of_site site]
    exact (Reporting.visit_succeeds_iff isEnabled).mpr (numbered isEnabled fn member)

theorem optionsAreObjects_iff (passes : ∀ stage ∈ m.stages, stage.pass = reportingPass)
    (nonempty : m.stages ≠ []) :
    OptionsAreObjects m.config m.stages ↔
      ((configFor m.config reportingPass).isEnabled = true →
        (configFor m.config reportingPass).options.IsObject) := by
  constructor
  · intro objects isEnabled
    obtain ⟨stage, inside⟩ := List.exists_mem_of_ne_nil m.stages nonempty
    have here := objects stage inside
    rw [enabled, passes stage inside] at here
    exact here isEnabled
  · intro isObject stage inside isEnabled
    rw [enabled, passes stage inside] at isEnabled
    rw [passes stage inside]
    exact isObject isEnabled

/-- Stages that number functions run through a module exactly where their entry serves its
functions. -/
theorem run_succeeds_iff_serves (passes : ∀ stage ∈ m.stages, stage.pass = reportingPass)
    (nonempty : m.stages ≠ [])
    (complete : ∀ fn ∈ module.functions, ∀ inst ∈ fn.instructions, inst.Complete) :
    (∃ preserved, (m.run module).result = .ok preserved) ↔
      (configFor m.config reportingPass).Serves m.printMetrics (bodies module.functions) := by
  have bodiesComplete : ∀ fn ∈ bodies module.functions, ∀ inst ∈ fn.instructions, inst.Complete :=
    fun fn member => complete fn (List.mem_filter.mp member).1
  rw [run_result_iff, PassConfig.serves_iff bodiesComplete, calls_succeed_iff passes nonempty,
    optionsAreObjects_iff passes nonempty]

end Manager

end ValueNumbering
