import ValueNumbering.Proofs.CommandLine.Inputs
import ValueNumbering.Proofs.CommandLine.Output
import ValueNumbering.Proofs.CommandLine.Spellings
import ValueNumbering.Proofs.Pass.Diagnostics

/-!
A run from its arguments to its exit. For a request whose configuration is well-formed and whose
input is accepted it ends with code 0 and has written the lines of each function with a body, once
for each pass of the pipeline.
-/

namespace ValueNumbering.CommandLine

open Manager (Asks Reported Shared configFor entryFor switchedOn)
open Text (CodePoints)

/-- What a run prints for a request: nothing on its output unless it is asked for, and the reports
of the passes. It ends well where the options that it is asked to show can be written, else with
the fault of an encoding. -/
structure Prints (host : Host) (r : Request) (passes : Dictionary CodePoints Json)
    (functions : List Function) (outcome : Outcome) : Prop where
  exit : r.Writable host passes → outcome.exit = .code 0
  refused : ¬r.Writable host passes → ∃ fault, outcome.exit = .escaped (.encoding fault)
  output : r.printMetrics = false → r.printIR = false → outcome.output = ""
  diagnostics : outcome.diagnostics = Text.unlines ((bodies functions).flatMap
    (Reporting.reports (switchedOn (entryFor passes)) (r.settings passes) r.count))

section

variable {host : Host} {r : Request} {passes : Dictionary CodePoints Json} {text : String}
    {m : Module}

theorem shared_stages (r : Request) : ∀ stage ∈ r.stages, Shared stage := by
  intro stage member
  rw [Request.stages] at member
  rw [List.eq_of_mem_replicate member]
  exact ⟨rfl, rfl⟩

/-- What is prepared for a request: its stages, a configuration that asks for what the document and
the arguments say, and the module of the input. -/
theorem prepare_request (configured : r.Configured host passes) (isInput : r.IsInput host text)
    (accepted : Assembly.read text = .ok m) :
    ∃ config name, prepare host r.arguments =
        .ok ({ stages := r.stages, config := config, printMetrics := r.printMetrics },
          { m with name := name }) ∧
      (r.stages ≠ [] → Asks config (switchedOn (entryFor passes)) (r.option passes)) := by
  obtain ⟨config, loaded, asks⟩ :=
    configured.loadConfig (m := { stages := r.stages, printMetrics := r.printMetrics }) rfl
  have arePasses : ∀ stage ∈ r.stages, stage.pass = reportingPass :=
    fun stage member => (shared_stages r stage member).pass
  obtain ⟨after, overridden, last⟩ := applyOverrides_asks
    (m := { stages := r.stages, config := config, printMetrics := r.printMetrics })
      r.overrides_arguments.distinct arePasses asks
  obtain ⟨name, isRead⟩ := isInput.readInput accepted
  refine ⟨after, name, ?_, last⟩
  have named : r.arguments.input.getD "" = r.input := rfl
  have metrics : r.arguments.printMetrics = r.printMetrics := rfl
  rw [prepare, metrics, r.buildPipeline_arguments, named, isRead]
  simp only [bind, Except.bind, loaded, overridden]
  rfl

theorem taken_iff_writable {config : Dictionary CodePoints PassConfig} {printed : List CodePoints}
    (asks : r.stages ≠ [] → Asks config (switchedOn (entryFor passes)) (r.option passes))
    (encodable : (∀ text ∈ printed, text.IsEncodable) ↔
      (r.printMetrics = true → ∀ stage ∈ r.stages, (configFor config stage.pass).Printable)) :
    (∀ text ∈ printed, host.Takes text) ↔ r.Writable host passes := by
  have some_iff : r.stages ≠ [] ↔ r.count ≠ 0 := by simp [Request.stages]
  have arePasses := fun stage member => (shared_stages r stage member).pass
  rw [Host.takes_all_iff, encodable, Manager.printable_stages_iff arePasses]
  constructor
  · intro printable encodes on counted isOn
    have nonempty := some_iff.mpr counted
    exact (asks nonempty).printable_iff.mp (printable encodes on nonempty) isOn
  · intro writable encodes on nonempty
    exact (asks nonempty).printable_iff.mpr (writable encodes on (some_iff.mp nonempty))

/-- However a request is spelled: where its configuration is well-formed, its column in range and
its input accepted, the run prints the reports, and it ends with code 0 unless it has to show an
option that cannot be encoded. Its options may stand in any order before the input. Documents may be
nested to any depth here: a limit on the recursion of a host is not modelled. -/
theorem run_prints_reports (configured : r.Configured host passes)
    (inRange : ∀ width, r.column = some width → Line.columnInRange width = true)
    (isInput : r.IsInput host text) (accepted : Assembly.read text = .ok m) :
    (∀ switches, r.Spelled switches →
      Arguments.read (switches.flatMap Switch.arguments ++ [r.input]) = .ok r.arguments) ∧
    ∀ argv, Arguments.read argv = .ok r.arguments →
      Prints host r passes m.functions (run host argv) := by
  refine ⟨fun switches spelled => spelled.read, fun argv isRead => ?_⟩
  obtain ⟨config, name, prepared, asks⟩ := prepare_request configured isInput accepted
  let manager : Manager Reporting :=
    { stages := r.stages, config := config, printMetrics := r.printMetrics }
  let found : Module := { m with name := name }
  have set := r.overrides_arguments
  have complete : ∀ fn ∈ m.functions, ∀ inst ∈ fn.instructions, inst.Complete :=
    Assembly.complete_of_read accepted
  have finished : ∀ fn ∈ bodies found.functions,
      (Numbering.ofFunction (r.settings passes) fn).fault = none := by
    intro fn member
    have inRange := Request.columnInRange_settings configured.shaped inRange
    exact Numbering.fault_of_complete inRange (complete fn (List.mem_filter.mp member).1)
  have reported : Reported manager found (switchedOn (entryFor passes)) (r.settings passes)
      (manager.run found) := by
    rw [← set.settings] at finished ⊢
    exact Manager.run_shared (shared_stages r) asks
      (fun value given => set.column_eq configured.shaped given) finished
  have taken : (∀ text ∈ (manager.run found).printed, host.Takes text) ↔
      r.Writable host passes := taken_iff_writable asks reported.encodable
  have ended : Executed host r.arguments (manager.run found)
      (execute host r.arguments manager found) := executed host r.arguments manager complete
  have ran : run host argv = execute host r.arguments manager found := by
    rw [run, isRead]
    simp only [prepared, manager, found]
  have length : manager.stages.length = r.count := List.length_replicate
  rw [ran]
  constructor
  case exit => exact fun writable => ended.completed ⟨_, reported.result⟩ (taken.mpr writable)
  case refused => exact fun unwritable => ended.refused fun all => unwritable (taken.mp all)
  case output => exact fun noMetrics noIR => ended.silent noIR (reported.silent noMetrics)
  case diagnostics => rw [ended.diagnostics, reported.diagnostics, length]

end

def aliasDocument : String :=
  "\x7b\"passes\": \x7b\"lvn\": \x7b\"options\": \x7b\"intern_constants\": false\x7d\x7d\x7d\x7d"

def sumTwice : String :=
  "declare void @g()\r\n" ++
  "define i32 @f(i32 %x) \x7b\r\n" ++
  "  %a = add i32 %x, 1\r\n" ++
  "  %b = add i32 %x, 1\r\n" ++
  "  ret i32 %b\r\n" ++
  "\x7d\r\n"

def sumReport : List String :=
  ["ValueNumbering: f", "%a = add i32 %x, 1     3 = 1 add 2", "%b = add i32 %x, 1     5 = 1 add 4"]

def aliasHost : Host :=
  { read := fun path =>
      if path = "passes.json" then .ok (Text.utf8Bytes aliasDocument) else .error .notFound,
    input := Text.utf8Bytes sumTwice, encodes := true }

def aliasSwitches : List Switch :=
  [.column (-3), .configPath "passes.json",
    .pipeline [{ before := " ", name := "lvn" }, { name := "" },
      { before := "\t", name := "value-numbering", after := " " }],
    .column 22]

def aliasRequest : Request := aliasSwitches.foldl Switch.apply {}

theorem aliasRequest_prints_reports :
    ∃ m passes, Assembly.read sumTwice = .ok m ∧ aliasRequest.Configured aliasHost passes ∧
    (∀ width, aliasRequest.column = some width → Line.columnInRange width = true) ∧
      aliasRequest.IsInput aliasHost sumTwice ∧
    aliasRequest.Spelled aliasSwitches ∧
    let outcome := run aliasHost (aliasSwitches.flatMap Switch.arguments ++ [aliasRequest.input])
    outcome.exit = .code 0 ∧ outcome.output = "" ∧
      outcome.diagnostics = Text.unlines (sumReport ++ sumReport) := by
  have reported : ((Assembly.read sumTwice).toOption.map fun m => (bodies m.functions).flatMap
      (Reporting.reports true ⟨false, 22⟩ aliasRequest.count)) = some (sumReport ++ sumReport) := by
    decide +kernel
  have asked : ((readDocument aliasHost "passes.json").toOption.bind fun document =>
      (document.member? "passes").bind fun value =>
      (value.membersFor "items").toOption.map fun passes =>
        (decide (∀ entry ∈ passes.entries, PassConfig.IsEntry entry.2),
        switchedOn (entryFor passes),
          aliasRequest.settings passes)) = some (true, true, ⟨false, 22⟩) := by
    decide +kernel
  obtain ⟨m, isModule, reports⟩ := Option.map_eq_some_iff.mp reported
  obtain ⟨document, isDocument, inDocument⟩ := Option.bind_eq_some_iff.mp asked
  obtain ⟨value, inside, inValue⟩ := Option.bind_eq_some_iff.mp inDocument
  obtain ⟨passes, isObject, answers⟩ := Option.map_eq_some_iff.mp inValue
  obtain rfl : value = .obj passes := by
    cases value with
    | obj members =>
        cases isObject
        rfl
    | _ => cases isObject
  simp only [Prod.mk.injEq, decide_eq_true_eq] at answers
  obtain ⟨shaped, isOn, settings⟩ := answers
  have accepted := Assembly.ok_of_toOption isModule
  have configured : aliasRequest.Configured aliasHost passes :=
    .document rfl (by decide) (Assembly.ok_of_toOption isDocument) inside shaped
  have inRange : ∀ width, aliasRequest.column = some width → Line.columnInRange width = true := by
    intro width given
    cases given
    decide
  have isInput : aliasRequest.IsInput aliasHost sumTwice := rfl
  have spelled : aliasRequest.Spelled aliasSwitches := by
    refine ⟨?_, by decide, rfl⟩
    simp [aliasSwitches, Switch.IsReadable, IsPlain, Line.columnInRange]
  have writable : aliasRequest.Writable aliasHost passes :=
    fun _ printed => absurd printed (by decide)
  obtain ⟨areRead, prints⟩ := run_prints_reports configured inRange isInput accepted
  obtain ⟨exit, -, output, diagnostics⟩ := prints _ (areRead aliasSwitches spelled)
  rw [isOn, settings, reports] at diagnostics
  exact ⟨m, passes, accepted, configured, inRange, isInput, spelled,
    exit writable, output rfl rfl, diagnostics⟩

end ValueNumbering.CommandLine
