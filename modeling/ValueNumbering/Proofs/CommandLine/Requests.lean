import ValueNumbering.Proofs.CommandLine.Pipelines
import ValueNumbering.Proofs.Pass.Effective

/-!
What a command line asks for, and the manager that is prepared for it: the stages of the pipeline,
and a configuration from the document that is named, with the options that the arguments set in
place of those of the document.
-/

namespace ValueNumbering

open Manager (Asks configFor entryFor optionOf settingsOf switchedOn)
open PassConfig (IsEntry ofEntry)
open Text (CodePoints)

namespace CommandLine

theorem error_of_liftFault {ε α : Type} {wrap : ε → Fault} {result : Except ε α} {fault : Fault}
    (failed : liftFault wrap result = .error fault) : ∃ inner, fault = wrap inner := by
  cases result with
  | ok a => cases failed
  | error inner =>
      cases failed
      exact ⟨inner, rfl⟩

theorem ok_of_liftFault {ε α : Type} {wrap : ε → Fault} {result : Except ε α} {a : α}
    (succeeded : liftFault wrap result = .ok a) : result = .ok a := by
  cases result with
  | ok b =>
      cases succeeded
      rfl
  | error inner => cases succeeded

def Setting.ofOption {α : Type} : Option α → Setting α
  | none => .unset
  | some a => .value a

/-- What a command line asks for. Without a pipeline it is the pass alone, and without a
configuration the defaults. -/
structure Request where
  pipeline : Option (List Item) := none
  configPath : Option String := none
  ownLiterals : Bool := false
  column : Option Int := none
  printMetrics : Bool := false
  printIR : Bool := false
  input : String := "-"

namespace Request

def arguments (r : Request) : Arguments :=
  { input := some r.input, pipeline := .ofOption (r.pipeline.map Item.line),
    configPath := .ofOption r.configPath,
    printMetrics := r.printMetrics, printIR := r.printIR, ownLiterals := r.ownLiterals, column :=
      .ofOption r.column }

def count (r : Request) : Nat := (r.pipeline.map Item.count).getD 1

def stages (r : Request) : List (Stage Reporting) := List.replicate r.count firstStage

/-- The entries that passes have by their names: those of the document that is named, or none. -/
inductive Configured (host : Host) (r : Request) : Dictionary CodePoints Json → Prop
  | absent (unnamed : r.configPath.getD "" = "") : Configured host r ∅
  | document {path : String} {document : Json} {passes : Dictionary CodePoints Json}
      (named : r.configPath = some path)
      (nonempty : path ≠ "") (found : readDocument host path = .ok document)
      (inside : document.member? "passes" = some (.obj passes))
      (shaped : ∀ entry ∈ passes.entries, IsEntry entry.2) :
      Configured host r passes

def settings (r : Request) (passes : Dictionary CodePoints Json) : Numbering.Settings :=
  let own := settingsOf (optionOf (entryFor passes))
  { shareLiterals := !r.ownLiterals && own.shareLiterals, column := r.column.getD own.column }

/-- The options in effect: those that arguments set come before those of the entry. -/
def option (r : Request) (passes : Dictionary CodePoints Json) (name : CodePoints) : Option Json :=
  ((overrides r.arguments).find? name).or (optionOf (entryFor passes) name)

/-- Where metrics are printed and what is printed is encoded, the options that a report shows have
no surrogates in their names and texts. -/
def Writable (host : Host) (r : Request) (passes : Dictionary CodePoints Json) : Prop :=
  host.encodes = true → r.printMetrics = true → r.count ≠ 0 →
    switchedOn (entryFor passes) = true →
      ∀ name value, r.option passes name = some value → IsPlainOption name value

variable {host : Host} {r : Request} {passes : Dictionary CodePoints Json}

theorem buildPipeline_arguments (r : Request) :
    buildPipeline r.arguments.pipeline r.printMetrics =
      .ok { stages := r.stages, printMetrics := r.printMetrics } := by
  simp only [arguments, stages, count]
  cases r.pipeline with
  | none => cases r.printMetrics <;> rfl
  | some items => exact congrArg (liftFault .pipeline) (ofPipeline_line items r.printMetrics)

theorem Configured.shaped (configured : Configured host r passes) :
    ∀ entry ∈ passes.entries, IsEntry entry.2 := by
  cases configured with
  | absent => exact fun _ member => nomatch member
  | document named nonempty found inside shaped => exact shaped

theorem distinct_of_readDocument {path : String} {document : Json}
    (found : readDocument host path = .ok document) :
    document.Distinct := by
  obtain ⟨text, -, isRead⟩ := Assembly.bind_eq_ok.mp found
  exact Json.distinct_of_read (ok_of_liftFault isRead)

theorem Configured.loadConfig (configured : Configured host r passes) {m : Manager Reporting}
    (bare : m.config = ∅) :
    ∃ config, loadConfig host m r.arguments.configPath = .ok { m with config := config } ∧
      Asks config (switchedOn (entryFor passes)) (optionOf (entryFor passes)) := by
  have shaped := configured.shaped
  cases configured with
  | absent unnamed =>
      refine ⟨m.config, ?_, ?_⟩
      case refine_2 =>
        exact Manager.asks_of_entries shaped Json.Distinct.empty fun name => by rw [bare]; rfl
      simp only [arguments]
      cases named : r.configPath with
      | none => rfl
      | some path =>
          obtain rfl : path = "" := by simpa [named] using unnamed
          rfl
  | @document path document passes named nonempty found inside =>
      have distinct := (distinct_of_readDocument found).member inside
      obtain ⟨config, taken, entries⟩ := m.setConfig_of_passes inside distinct.keys shaped
      refine ⟨config, ?_, Manager.asks_of_entries shaped distinct fun name => ?_⟩
      · simp only [arguments, named, Setting.ofOption]
        unfold CommandLine.loadConfig
        simp [found, taken, bind, Except.bind, liftFault]
      · rw [entries, bare, Dictionary.find?_empty, Option.or_none]

structure Overrides (r : Request) (options : Dictionary CodePoints Json) : Prop where
  distinct : options.keys.Nodup
  literals : options.find? "intern_constants" = if r.ownLiterals then some (.bool false) else none
  column : options.find? "column_width" = r.column.map .int

/-- The options that arguments set come before those of the entry, and these before the defaults. -/
theorem Overrides.settings {options : Dictionary CodePoints Json} (set : Overrides r options) :
    settingsOf (fun name => (options.find? name).or (optionOf (entryFor passes) name)) =
      r.settings passes := by
  rw [Request.settings, settingsOf, settingsOf, set.literals, set.column]
  congr 1
  · cases r.ownLiterals <;> simp [Json.truthy]
  · cases r.column <;> simp

theorem Overrides.column_eq {options : Dictionary CodePoints Json} (set : Overrides r options)
    (shaped : ∀ entry ∈ passes.entries, IsEntry entry.2) {value : Json}
    (given : (options.find? "column_width").or (optionOf (entryFor passes) "column_width") =
      some value) :
    ∃ n, value = .int n := by
  rw [set.column] at given
  rcases Option.or_eq_some_iff.mp given with flag | ⟨-, own⟩
  · obtain ⟨n, -, rfl⟩ := Option.map_eq_some_iff.mp flag
    exact ⟨n, rfl⟩
  · obtain ⟨n, rfl, -⟩ := Manager.column_of_entries shaped own
    exact ⟨n, rfl⟩

theorem columnInRange_settings (shaped : ∀ entry ∈ passes.entries, IsEntry entry.2)
    (inRange : ∀ width, r.column = some width → Line.columnInRange width = true) :
    Line.columnInRange (r.settings passes).column = true := by
  simp only [Request.settings]
  cases given : r.column with
  | some width => exact inRange width given
  | none =>
      simp only [Option.getD_none, settingsOf]
      cases own : optionOf (entryFor passes) "column_width" with
      | none => decide
      | some value =>
          obtain ⟨n, rfl, inside⟩ := Manager.column_of_entries shaped own
          exact inside

theorem overrides_arguments (r : Request) : Overrides r (overrides r.arguments) := by
  obtain ⟨-, -, ownLiterals, column, -, -, -⟩ := r
  cases ownLiterals <;> cases column <;> exact ⟨Dictionary.nodup_keys_ofList _, rfl, rfl⟩

end Request

theorem applyOverrides_asks {m : Manager Reporting} {isOn : Bool}
    {option : CodePoints → Option Json} {a : Arguments} (distinct : (overrides a).keys.Nodup)
    (passes : ∀ stage ∈ m.stages, stage.pass = reportingPass) (asks : Asks m.config isOn option) :
    ∃ config, applyOverrides a m = .ok { m with config := config } ∧
      (m.stages ≠ [] → Asks config isOn fun name =>
        ((overrides a).find? name).or (option name)) := by
  unfold applyOverrides
  by_cases empty : (overrides a).isEmpty = true
  · have none : ∀ name, (overrides a).find? name = none := by
      intro name
      rw [Dictionary.isEmpty, List.isEmpty_iff] at empty
      rw [Dictionary.find?, empty]
      rfl
    exact ⟨m.config, by rw [if_pos empty], fun _ => asks.congr fun name => by
      rw [none, Option.none_or]⟩
  · obtain ⟨config, taken, last⟩ := Manager.overrideOptions_asks distinct passes asks
    exact ⟨config, by rw [if_neg empty, taken]; rfl, last⟩

end CommandLine

end ValueNumbering
