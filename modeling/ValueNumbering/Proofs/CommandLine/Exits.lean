import ValueNumbering.Proofs.CommandLine.Output
import ValueNumbering.Proofs.Pass.Success

/-!
How a run over an accepted input ends. It is done or reports an error exactly where its
configuration is usable or cannot be read at all; a configuration that is read but has not the shape
that some step of the run needs ends it with a fault that is not reported.
-/

namespace ValueNumbering

open Manager (Asks configFor)
open PassConfig (IsDocument mention? ofEntry passesOf)
open Text (CodePoints)

namespace PassConfig

/-- The entry that a document alone has for the pass that numbers functions. -/
def inDocument (document : Json) : PassConfig :=
  ((mention? "value-numbering" document).or (mention? "lvn" document)).getD
    { name := "value-numbering" }

def revised (entry : PassConfig) (given : Dictionary CodePoints Json) : PassConfig :=
  match entry.options with
  | .obj own => { entry with options := .obj (own.merge given) }
  | _ => entry

theorem distinct_inDocument {document : Json} (distinct : document.Distinct)
    {own : Dictionary CodePoints Json} (isObject : (inDocument document).options = .obj own) :
    own.keys.Nodup := by
  have inPasses : (passesOf document).Distinct := by
    unfold passesOf
    cases found : document.member? "passes" with
    | none => exact Json.Distinct.empty
    | some passes => exact distinct.member found
  have mentioned : ∀ {name entry}, mention? name document = some entry →
      entry.options.Distinct := by
    intro name entry isEntry
    obtain ⟨value, found, rfl⟩ := Option.map_eq_some_iff.mp isEntry
    unfold ofEntry
    cases options : value.member? "options" with
    | none => exact Json.Distinct.empty
    | some options' => exact (inPasses.member found).member options
  have inOptions : (inDocument document).options.Distinct := by
    unfold inDocument
    cases byName : mention? "value-numbering" document with
    | some entry => exact mentioned byName
    | none =>
        cases byAlias : mention? "lvn" document with
        | some entry => exact mentioned byAlias
        | none => exact Json.Distinct.empty
  rw [isObject] at inOptions
  exact inOptions.keys

theorem revised_empty (entry : PassConfig) : entry.revised ∅ = entry := by
  obtain ⟨name, enabled, options⟩ := entry
  cases options <;> rfl

end PassConfig

namespace CommandLine

/-- A run that ends well, or with the report of one error. -/
def Outcome.IsReported (outcome : Outcome) : Prop :=
  outcome.exit = .code 0 ∨ ∃ message : String,
    outcome = { diagnostics := s!"error: {message}\n", exit := .code 1 }

def Exit.code? : Exit → Option Nat
  | .code n => some n
  | .escaped _ => none

theorem not_isReported_of_code? {outcome : Outcome} (escaped : outcome.exit.code? = none) :
    ¬outcome.IsReported := by
  rintro (done | ⟨message, rfl⟩)
  · rw [done] at escaped
    cases escaped
  · cases escaped

def documentOf (host : Host) : Setting String → Except Fault Json
  | .unset | .emptied | .value "" => .ok (.obj ∅)
  | .value path => readDocument host path

/-- A document that suits the arguments, the stages of the pipeline and the module. Where there is a
stage, options are an object if the arguments set some of them. The entry of the pass, with the
options that the arguments set, serves the module, and can be printed where it has to be. -/
structure Suits (host : Host) (a : Arguments) (stages : List (Stage Reporting)) (module : Module)
    (document : Json) : Prop where
  isDocument : IsDocument document
  changed : stages ≠ [] → (overrides a).isEmpty = false →
    (PassConfig.inDocument document).options.IsObject
  serves : stages ≠ [] →
    ((PassConfig.inDocument document).revised (overrides a)).Serves a.printMetrics
      (bodies module.functions)
  printable : host.encodes = true → a.printMetrics = true → stages ≠ [] →
    ((PassConfig.inDocument document).revised (overrides a)).Printable

/-- A pipeline that is text, and a document that suits it where the passes are known and the
document can be read. -/
structure Usable (host : Host) (a : Arguments) (module : Module) : Prop where
  pipeline : a.pipeline ≠ .emptied
  document : ∀ m document, buildPipeline a.pipeline a.printMetrics = .ok m →
    documentOf host a.configPath = .ok document →
    Suits host a m.stages module document

section Faults

theorem isReported_of_documentOf {host : Host} {path : Setting String} {fault : Fault}
    (failed : documentOf host path = .error fault) : fault.isReported = true := by
  unfold documentOf at failed
  split at failed
  · cases failed
  · cases failed
  · cases failed
  · rcases Assembly.bind_eq_error.mp failed with unread | ⟨text, -, malformed⟩
    · rcases Assembly.bind_eq_error.mp unread with closed | ⟨bytes, -, undecoded⟩
      · obtain ⟨inner, rfl⟩ := error_of_liftFault closed
        rfl
      · rcases Assembly.bind_eq_error.mp undecoded with invalid | ⟨text, -, impossible⟩
        · obtain ⟨inner, rfl⟩ := error_of_liftFault invalid
          rfl
        · cases impossible
    · obtain ⟨inner, rfl⟩ := error_of_liftFault malformed
      rfl

theorem isReported_of_buildPipeline {a : Arguments} {fault : Fault}
    (failed : buildPipeline a.pipeline a.printMetrics = .error fault) :
    fault.isReported = true ↔ a.pipeline ≠ .emptied := by
  unfold buildPipeline at failed
  split at failed
  · next unset =>
      obtain ⟨inner, rfl⟩ := error_of_liftFault failed
      simp [Fault.isReported, unset]
  · next names given =>
      obtain ⟨inner, rfl⟩ := error_of_liftFault failed
      simp [Fault.isReported, given]
  · next emptied =>
      cases failed
      simp [Fault.isReported, emptied]

theorem not_isReported_config (fault : ConfigFault) : (Fault.config fault).isReported ≠ true := by
  simp [Fault.isReported]

end Faults

section Pipeline

theorem pass_of_stagesOf {names : List String} {stages : List (Stage Reporting)}
    (built : Manager.stagesOf registry names = .ok stages) :
    ∀ stage ∈ stages, stage.pass = reportingPass := by
  induction names generalizing stages with
  | nil =>
      cases built
      simp
  | cons name rest ih =>
      rw [Manager.stagesOf] at built
      split at built
      · cases built
      · next stage found =>
          obtain ⟨more, others, same⟩ := Assembly.bind_eq_ok.mp built
          cases same
          have known : name ∈ registry.keys := by
            rw [← Dictionary.contains_iff_mem_keys, Dictionary.contains, found]
            rfl
          obtain rfl : firstStage = stage :=
            Option.some.inj ((find?_registry known).symm.trans found)
          exact List.forall_mem_cons.mpr ⟨rfl, ih others⟩

structure Unconfigured (a : Arguments) (m : Manager Reporting) : Prop where
  config : m.config = ∅
  printMetrics : m.printMetrics = a.printMetrics
  passes : ∀ stage ∈ m.stages, stage.pass = reportingPass

theorem unconfigured_of_ofPipeline {a : Arguments} {names : String} {m : Manager Reporting}
    (built : Manager.ofPipeline registry names a.printMetrics = .ok m) : Unconfigured a m := by
  obtain ⟨stages, areStages, same⟩ := Assembly.bind_eq_ok.mp built
  cases same
  exact ⟨rfl, rfl, pass_of_stagesOf areStages⟩

theorem unconfigured_of_buildPipeline {a : Arguments} {m : Manager Reporting}
    (built : buildPipeline a.pipeline a.printMetrics = .ok m) :
    Unconfigured a m ∧ a.pipeline ≠ .emptied := by
  unfold buildPipeline at built
  split at built
  · next unset => exact ⟨unconfigured_of_ofPipeline (ok_of_liftFault built), by simp [unset]⟩
  · next names given => exact ⟨unconfigured_of_ofPipeline (ok_of_liftFault built), by simp [given]⟩
  · cases built

end Pipeline

section Configuration

variable {host : Host} {a : Arguments} {m : Manager Reporting} {document : Json}

theorem loadConfig_eq (host : Host) (path : Setting String) (bare : m.config = ∅) :
    loadConfig host m path = (do
      let document ← documentOf host path
      liftFault .config (m.setConfig document)) := by
  have nothing : liftFault .config (m.setConfig (.obj ∅)) = .ok m := by
    obtain ⟨stages, config, printMetrics⟩ := m
    cases bare
    rfl
  unfold loadConfig documentOf
  cases path with
  | unset => exact nothing.symm
  | emptied => exact nothing.symm
  | value path =>
      by_cases empty : path = ""
      · subst empty
        exact nothing.symm
      · simp

theorem distinct_of_documentOf {path : Setting String}
    (opened : documentOf host path = .ok document) : document.Distinct := by
  have distinct : (Json.obj ∅).Distinct := ⟨List.nodup_nil, trivial⟩
  unfold documentOf at opened
  split at opened
  · exact Except.ok.inj opened ▸ distinct
  · exact Except.ok.inj opened ▸ distinct
  · exact Except.ok.inj opened ▸ distinct
  · exact Request.distinct_of_readDocument opened

def Named (config : Dictionary CodePoints PassConfig) : Prop :=
  ∀ key entry, config.find? key = some entry → entry.name = key

theorem setConfig_inDocument (bare : m.config = ∅) (isDocument : IsDocument document)
    (distinct : document.Distinct) :
    ∃ config, m.setConfig document = .ok { m with config := config } ∧ Named config ∧
      configFor config reportingPass = PassConfig.inDocument document := by
  obtain ⟨config, taken, mentions⟩ :=
    m.setConfig_of_isDocument isDocument fun _ => Manager.nodup_keys_of_passesOf distinct
  have found : ∀ name, config.find? name = mention? name document := by
    intro name
    rw [mentions, bare, Dictionary.find?_empty, Option.or_none]
  refine ⟨config, taken, fun key entry isEntry => ?_, ?_⟩
  · rw [found] at isEntry
    obtain ⟨value, -, rfl⟩ := Option.map_eq_some_iff.mp isEntry
    rfl
  · rw [Manager.configFor_reportingPass, found, found]
    rfl

/-- What comes of the options that arguments set: a fault where there is no object to set them in,
or a configuration that serves what the revised entry serves. -/
inductive Overridden (a : Arguments) (m : Manager Reporting) :
    Except Fault (Manager Reporting) → Prop
  | refused (given : (overrides a).isEmpty = false)
      (malformed : ¬(configFor m.config reportingPass).options.IsObject)
      (fault : ConfigFault) : Overridden a m (.error (.config fault))
  | taken (settable : (overrides a).isEmpty = false →
      (configFor m.config reportingPass).options.IsObject)
      {config : Dictionary CodePoints PassConfig}
      (serves : ∀ reported fns, (configFor config reportingPass).Serves reported fns ↔
        ((configFor m.config reportingPass).revised (overrides a)).Serves reported fns)
      (printable : (configFor config reportingPass).Printable ↔
        ((configFor m.config reportingPass).revised (overrides a)).Printable) :
      Overridden a m (.ok { m with config := config })

theorem overridden (passes : ∀ stage ∈ m.stages, stage.pass = reportingPass)
    (nonempty : m.stages ≠ []) (named : Named m.config)
    (apart : ∀ own, (configFor m.config reportingPass).options = .obj own → own.keys.Nodup) :
    Overridden a m (applyOverrides a m) := by
  have distinct : (overrides a).keys.Nodup := Dictionary.nodup_keys_ofList _
  by_cases none : (overrides a).isEmpty = true
  · have empty : overrides a = ∅ := by
      rw [Dictionary.isEmpty, List.isEmpty_iff] at none
      exact congrArg Dictionary.mk none
    have same : applyOverrides a m = .ok { m with config := m.config } := if_pos none
    rw [same]
    rw [← PassConfig.revised_empty (configFor m.config reportingPass), ← empty] at apart
    refine .taken (fun given => absurd none (by simp [given])) (fun reported fns => ?_) ?_
    · rw [empty, PassConfig.revised_empty]
    · rw [empty, PassConfig.revised_empty]
  · by_cases isObject : (configFor m.config reportingPass).options.IsObject
    · obtain ⟨own, given⟩ := isObject
      have asks : Asks m.config (configFor m.config reportingPass).isEnabled own.find? :=
        ⟨named, rfl, own, given, apart own given, fun _ => rfl⟩
      obtain ⟨config, applied, last⟩ := applyOverrides_asks distinct passes asks
      obtain ⟨merged, isMerged, -, inside⟩ := (last nonempty).options
      rw [applied]
      have revised : (configFor m.config reportingPass).revised (overrides a) =
          { configFor m.config reportingPass with options := .obj (own.merge (overrides a)) } := by
        rw [PassConfig.revised, given]
      refine .taken (fun _ => ⟨own, given⟩) (fun reported fns => ?_) ?_
      · rw [revised]
        apply PassConfig.serves_congr
        · exact (last nonempty).isOn
        · exact ⟨fun _ => ⟨_, rfl⟩, fun _ => ⟨merged, isMerged⟩⟩
        · simp only [PassConfig.column, isMerged, Json.member?, inside,
            Dictionary.find?_merge _ distinct]
      · have distinctMerge := Dictionary.nodup_keys_merge (apart own given) (overrides a)
        rw [(last nonempty).printable_iff, revised, PassConfig.printable_iff rfl distinctMerge]
        simp only [Dictionary.find?_merge _ distinct]
        rfl
    · obtain ⟨stage, rest, stages⟩ := List.exists_cons_of_ne_nil nonempty
      have isPass : stage.pass = reportingPass := passes stage (stages ▸ List.mem_cons_self ..)
      have refused : applyOverrides a m =
          .error (.config (.lacks (configFor m.config reportingPass).options "update")) := by
        rw [applyOverrides, if_neg none, stages, Manager.overrideOptions, isPass,
          PassConfig.override, Json.membersFor_of_not_object isObject]
        rfl
      rw [refused]
      exact .refused (Bool.eq_false_iff.mpr none) isObject _

end Configuration

section Run

variable {host : Host} {argv : List String} {a : Arguments} {m : Manager Reporting}
    {module : Module} {document : Json}

theorem complete_of_readInput {path : String} (found : readInput host path = .ok module) :
    ∀ fn ∈ module.functions, ∀ inst ∈ fn.instructions, inst.Complete := by
  unfold readInput at found
  split at found
  · obtain ⟨text, -, isRead⟩ := Assembly.bind_eq_ok.mp found
    exact Assembly.complete_of_read (ok_of_liftFault isRead)
  · obtain ⟨text, -, isRead⟩ := Assembly.bind_eq_ok.mp found
    exact Assembly.complete_of_read (ok_of_liftFault isRead)

theorem isReported_of_fault (isRead : Arguments.read argv = .ok a) {fault : Fault}
    (failed : prepare host a = .error fault) :
    (run host argv).IsReported ↔ fault.isReported = true := by
  unfold run
  simp only [isRead, failed]
  cases fault.isReported with
  | true => exact ⟨fun _ => rfl, fun _ => .inr ⟨fault.message, rfl⟩⟩
  | false => simp [Outcome.IsReported]

/-- A run over a module that can be listed is reported where its passes succeed and what it has to
show of their configuration can be printed. -/
theorem isReported_of_prepared (isRead : Arguments.read argv = .ok a)
    (prepared : prepare host a = .ok (m, module))
    (complete : ∀ fn ∈ module.functions, ∀ inst ∈ fn.instructions, inst.Complete) :
    (run host argv).IsReported ↔ (∃ preserved, (m.run module).result = .ok preserved) ∧
      (host.encodes = true → m.printMetrics = true →
        ∀ stage ∈ m.stages, (configFor m.config stage.pass).Printable) := by
  have ran : run host argv = execute host a m module := by
    rw [run, isRead]
    simp only [prepared]
  have ended := executed host a m complete
  rw [← ran] at ended
  have taken_iff : (∃ preserved, (m.run module).result = .ok preserved) →
      ((∀ text ∈ (m.run module).printed, host.Takes text) ↔ (host.encodes = true →
        m.printMetrics = true → ∀ stage ∈ m.stages,
          (configFor m.config stage.pass).Printable)) := by
    intro succeeded
    obtain ⟨succeed, objects⟩ := Manager.run_result_iff.mp succeeded
    rw [Host.takes_all_iff, Manager.printed_isEncodable_iff succeed objects]
  constructor
  · intro reported
    have succeeded : ∃ preserved, (m.run module).result = .ok preserved := by
      by_contra failed
      obtain ⟨fault, escaped⟩ := ended.failed failed
      exact not_isReported_of_code? (by rw [escaped]; rfl) reported
    refine ⟨succeeded, (taken_iff succeeded).mp ?_⟩
    by_contra refused
    obtain ⟨fault, escaped⟩ := ended.refused refused
    exact not_isReported_of_code? (by rw [escaped]; rfl) reported
  · rintro ⟨succeeded, printable⟩
    exact .inl (ended.completed succeeded ((taken_iff succeeded).mpr printable))

theorem run_succeeds_of_no_stages (noStages : m.stages = []) (module : Module) :
    ∃ preserved, (m.run module).result = .ok preserved := by
  have noCalls : m.calls module = [] := by
    rw [Manager.calls, noStages]
    exact Manager.callsForAll_nil _ _
  exact Manager.run_result_iff.mpr
    ⟨by simp [noCalls], by simp [noStages, Manager.OptionsAreObjects]⟩

theorem applyOverrides_of_no_stages (noStages : m.stages = []) :
    ∃ config, applyOverrides a m = .ok { m with config := config } := by
  unfold applyOverrides
  by_cases none : (overrides a).isEmpty = true
  · exact ⟨m.config, if_pos none⟩
  · refine ⟨m.config, ?_⟩
    rw [if_neg none, noStages]
    rfl

def prepareWith (a : Arguments) (m : Manager Reporting) (module : Module) (document : Json) :
    Except Fault (Manager Reporting × Module) := do
  let m ← liftFault .config (m.setConfig document)
  let m ← applyOverrides a m
  return (m, module)

theorem isReported_iff_suits (isRead : Arguments.read argv = .ok a) (bare : Unconfigured a m)
    (distinct : document.Distinct) (prepared : prepare host a = prepareWith a m module document)
    (complete : ∀ fn ∈ module.functions, ∀ inst ∈ fn.instructions, inst.Complete) :
    (run host argv).IsReported ↔ Suits host a m.stages module document := by
  by_cases isDocument : IsDocument document
  · obtain ⟨config, taken, named, entry⟩ := setConfig_inDocument bare.config isDocument distinct
    rw [prepareWith, taken] at prepared
    by_cases noStages : m.stages = []
    · obtain ⟨after, applied⟩ :=
        applyOverrides_of_no_stages (a := a) (m := { m with config := config }) noStages
      have ready : prepare host a = .ok ({ m with config := after }, module) := by
        rw [prepared]
        simp only [liftFault, bind, Except.bind, applied]
        rfl
      rw [isReported_of_prepared isRead ready complete]
      have suits : Suits host a m.stages module document :=
        ⟨isDocument, fun nonempty => absurd noStages nonempty,
          fun nonempty => absurd noStages nonempty, fun _ _ nonempty => absurd noStages nonempty⟩
      have succeeds := run_succeeds_of_no_stages (m := { m with config := after }) noStages module
      exact ⟨fun _ => suits, fun _ => ⟨succeeds, by simp [noStages]⟩⟩
    · have comes : Overridden a { m with config := config }
          (applyOverrides a { m with config := config }) :=
        overridden bare.passes noStages named fun own isObject =>
          PassConfig.distinct_inDocument distinct (entry ▸ isObject)
      simp only [liftFault, bind, Except.bind] at prepared
      generalize applyOverrides a { m with config := config } = answer at comes prepared
      cases comes with
      | refused given malformed fault =>
          rw [isReported_of_fault isRead prepared]
          rw [entry] at malformed
          exact ⟨fun reported => absurd reported (not_isReported_config fault),
            fun suits => absurd (suits.changed noStages given) malformed⟩
      | @taken settable after serves printable =>
          have ready : prepare host a = .ok ({ m with config := after }, module) := prepared
          have succeeds : (∃ preserved,
              (Manager.run { m with config := after } module).result = .ok preserved) ↔
              (configFor after reportingPass).Serves m.printMetrics (bodies module.functions) :=
            Manager.run_succeeds_iff_serves bare.passes noStages complete
          rw [isReported_of_prepared isRead ready complete, succeeds, serves, entry,
            bare.printMetrics, Manager.printable_stages_iff bare.passes, printable, entry]
          rw [entry] at settable
          exact ⟨fun both => ⟨isDocument, fun _ => settable, fun _ => both.1, both.2⟩,
            fun suits => ⟨suits.serves noStages, suits.printable⟩⟩
  · cases answer : m.setConfig document with
    | ok after => exact absurd (Manager.isDocument_of_setConfig answer) isDocument
    | error fault =>
        have failed : prepare host a = .error (.config fault) := by
          rw [prepared, prepareWith, answer]
          rfl
        rw [isReported_of_fault isRead failed]
        exact ⟨fun reported => absurd reported (not_isReported_config fault), fun suits =>
          absurd suits.isDocument isDocument⟩

/-- A run over an input that is read to a module is done or reports one error exactly where its
configuration is usable. -/
theorem run_reported_iff_usable (isRead : Arguments.read argv = .ok a)
    (found : readInput host (a.input.getD "") = .ok module) :
    (run host argv).IsReported ↔ Usable host a module := by
  cases built : buildPipeline a.pipeline a.printMetrics with
  | error fault =>
      have failed : prepare host a = .error fault := by
        rw [prepare, built]
        rfl
      rw [isReported_of_fault isRead failed, isReported_of_buildPipeline built]
      exact ⟨fun named => ⟨named, fun m document same => nomatch built.symm.trans same⟩,
        fun usable => usable.pipeline⟩
  | ok m =>
      obtain ⟨bare, named⟩ := unconfigured_of_buildPipeline built
      have prepared : prepare host a = documentOf host a.configPath >>= prepareWith a m module := by
        rw [prepare, built, found]
        simp only [bind, Except.bind, loadConfig_eq host a.configPath bare.config]
        cases documentOf host a.configPath <;> rfl
      cases opened : documentOf host a.configPath with
      | error fault =>
          rw [opened] at prepared
          rw [isReported_of_fault isRead prepared]
          have unread : Usable host a module :=
            ⟨named, fun m document _ same => nomatch opened.symm.trans same⟩
          exact ⟨fun _ => unread, fun _ => isReported_of_documentOf opened⟩
      | ok document =>
          rw [opened] at prepared
          rw [isReported_iff_suits isRead bare (distinct_of_documentOf opened) prepared
            (complete_of_readInput found)]
          constructor
          · intro suits
            refine ⟨named, fun other found sameStages sameDocument => ?_⟩
            obtain rfl : m = other := Except.ok.inj (built.symm.trans sameStages)
            obtain rfl : document = found := Except.ok.inj (opened.symm.trans sameDocument)
            exact suits
          · intro usable
            exact usable.document m document built opened

end Run

theorem exit_of_code? {outcome : Outcome} {n : Nat} (code : outcome.exit.code? = some n) :
    outcome.exit = .code n := by
  cases exit : outcome.exit with
  | escaped fault =>
      rw [exit] at code
      cases code
  | code other =>
      rw [exit] at code
      exact congrArg Exit.code (Option.some.inj code)

def oneSum : String := "define i32 @f(i32 %x) \x7b\n  %a = add i32 %x, 1\n  ret i32 %a\n\x7d\n"

def configHost (document : String) : Host :=
  { read := fun path =>
      if path = "passes.json" then .ok (Text.utf8Bytes document) else .error .notFound,
    input := Text.utf8Bytes oneSum, encodes := true }

def configArguments : List String := ["--print-metrics", "--pass-config", "passes.json", "-"]

theorem configArguments_read : ∃ a module, Arguments.read configArguments = .ok a ∧
    ∀ document, readInput (configHost document) (a.input.getD "") = .ok module := by
  have isRead : Arguments.read configArguments =
      .ok { input := some "-", configPath := .value "passes.json", printMetrics := true } := by rfl
  have found : (readInput (configHost "") "-").toOption.isSome = true := by decide +kernel
  obtain ⟨module, found⟩ := Option.isSome_iff_exists.mp found
  exact ⟨_, module, isRead, fun _ => Assembly.ok_of_toOption found⟩

/-- An entry under the other name of the pass. A list switches the pass on, and the column is
text. -/
def textColumn : String :=
  "\x7b\"passes\": \x7b\"lvn\": \x7b\"enabled\": [0], \"options\": \x7b\"column_width\": \" +2_4 \"\x7d\x7d\x7d\x7d"

theorem textColumn_usable : ∃ a module, Arguments.read configArguments = .ok a ∧
    readInput (configHost textColumn) (a.input.getD "") = .ok module ∧
    (run (configHost textColumn) configArguments).exit = .code 0 ∧
      Usable (configHost textColumn) a module := by
  obtain ⟨a, module, isRead, found⟩ := configArguments_read
  have exit : (run (configHost textColumn) configArguments).exit = .code 0 :=
    exit_of_code? (by decide +kernel)
  exact ⟨a, module, isRead, found textColumn, exit,
    (run_reported_iff_usable isRead (found textColumn)).mp (.inl exit)⟩

/-- A document, its passes or the options of a pass that are no objects, columns that are no number
or out of range, and an option that cannot be printed. -/
def misshapen : List String :=
  ["[]", "\x7b\"passes\": [1]\x7d",
    "\x7b\"passes\": \x7b\"lvn\": \x7b\"options\": null\x7d\x7d\x7d",
    "\x7b\"passes\": \x7b\"lvn\": \x7b\"options\": \x7b\"column_width\": \"wide\"\x7d\x7d\x7d\x7d",
    "\x7b\"passes\": \x7b\"lvn\": \x7b\"options\": \x7b\"column_width\": 1e30\x7d\x7d\x7d\x7d",
    "\x7b\"passes\": \x7b\"lvn\": \x7b\"options\": \x7b\"note\": \"\\ud800\"\x7d\x7d\x7d\x7d"]

theorem misshapen_configurations_escape :
    (∃ a module, Arguments.read configArguments = .ok a ∧
      ∀ document ∈ misshapen, readInput (configHost document) (a.input.getD "") = .ok module) ∧
    ∀ document ∈ misshapen, ¬(run (configHost document) configArguments).IsReported := by
  have escaped : ∀ document ∈ misshapen,
      (run (configHost document) configArguments).exit.code? = none := by decide +kernel
  obtain ⟨a, module, isRead, found⟩ := configArguments_read
  exact ⟨⟨a, module, isRead, fun document _ => found document⟩,
    fun document member => not_isReported_of_code? (escaped document member)⟩

end CommandLine

end ValueNumbering
