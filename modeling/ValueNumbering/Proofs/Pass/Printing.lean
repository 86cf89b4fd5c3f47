import ValueNumbering.Proofs.Pass.Calls
import ValueNumbering.Proofs.Pass.Documents
import ValueNumbering.Proofs.Text.Encoding

/-!
What a run prints. A report shows the options of each enabled stage as they stand, so that a name or
a text among them may hold surrogates; everything else in it can be encoded.
-/

namespace ValueNumbering

open Text (CodePoints)

/-- An option without surrogates in what is shown unquoted: its name, and a value that is text. -/
def IsPlainOption (name : CodePoints) (value : Json) : Prop :=
  name.IsEncodable ∧ ∀ text, value = .str text → text.IsEncodable

/-- Unless an entry switches its pass off, its options can be encoded as they are reported. -/
def PassConfig.Printable (entry : PassConfig) : Prop :=
  entry.isEnabled = true → ∀ own, entry.options = .obj own →
    ∀ option ∈ own.entries, IsPlainOption option.1 option.2

theorem PassConfig.printable_iff {entry : PassConfig} {own : Dictionary CodePoints Json}
    (isObject : entry.options = .obj own) (distinct : own.keys.Nodup) :
    entry.Printable ↔ (entry.isEnabled = true → ∀ name value, own.find? name = some value →
      IsPlainOption name value) := by
  constructor
  · intro printable isEnabled name value found
    exact printable isEnabled own isObject _ (Dictionary.mem_entries_of_find? found)
  · intro each isEnabled other same option member
    obtain rfl : own = other := Json.obj.inj (isObject.symm.trans same)
    exact each isEnabled _ _ ((Dictionary.mem_entries_iff distinct).mp member)

namespace Manager

variable {σ : Type} {config : Dictionary CodePoints PassConfig}

theorem isEncodable_optionText (option : CodePoints × Json) :
    (optionText option).IsEncodable ↔ IsPlainOption option.1 option.2 := by
  obtain ⟨name, value⟩ := option
  have sign : CodePoints.IsEncodable "=" := by decide
  rw [optionText, Text.isEncodable_append, Text.isEncodable_append, and_iff_left sign]
  cases value <;> simp [IsPlainOption, Json.display]

theorem isEncodable_optionsText (options : List (CodePoints × Json)) :
    (optionsText options).IsEncodable ↔ ∀ option ∈ options, IsPlainOption option.1 option.2 := by
  unfold optionsText
  cases options with
  | nil => simp
  | cons option rest =>
      rw [List.isEmpty_cons, if_neg Bool.false_ne_true, Text.isEncodable_join (by decide),
        List.forall_mem_map]
      simp only [isEncodable_optionText]

theorem stageReport_isEncodable_iff {stage : Stage σ}
    (object : enabled config stage = true → (configFor config stage.pass).options.IsObject) :
    (∀ text ∈ (stageReport config stage).1, text.IsEncodable) ↔
      (configFor config stage.pass).Printable := by
  rw [enabled] at object
  cases isEnabled : (configFor config stage.pass).isEnabled with
  | false => simp [stageReport, PassConfig.Printable, isEnabled]
  | true =>
      obtain ⟨own, isObject⟩ := object isEnabled
      have plain : CodePoints.IsEncodable "Config: " := Text.isEncodable_ofString _
      simp [stageReport, PassConfig.Printable, isEnabled, isObject, Json.membersFor, plain,
        isEncodable_optionsText]

theorem report_isEncodable_iff {stages : List (Stage σ)}
    (objects : OptionsAreObjects config stages) :
    (∀ text ∈ (report config stages).1, text.IsEncodable) ↔
      ∀ stage ∈ stages, (configFor config stage.pass).Printable := by
  induction stages with
  | nil => simp [report]
  | cons stage rest ih =>
      obtain ⟨here, later⟩ := List.forall_mem_cons.mp objects
      have complete := report_complete (List.forall_mem_singleton.mpr here)
      rw [List.forall_mem_cons, ← stageReport_isEncodable_iff here, ← ih later]
      rcases reported : stageReport config stage with ⟨texts, fault⟩
      cases fault with
      | some fault => simp [report, reported] at complete
      | none => simp only [report, reported, List.forall_mem_append]

/-- What a run prints can be encoded where the options that it reports can. -/
theorem printed_isEncodable_iff {m : Manager σ} {module : Module}
    (succeed : ∀ call ∈ m.calls module, call.Succeeds)
    (objects : m.printMetrics = true → OptionsAreObjects m.config m.stages) :
    (∀ text ∈ (m.run module).printed, text.IsEncodable) ↔
      (m.printMetrics = true → ∀ stage ∈ m.stages, (configFor m.config stage.pass).Printable) := by
  obtain ⟨preserved, comes⟩ := run_of_succeeds succeed
  rw [comes.printed]
  cases on : m.printMetrics with
  | false => simp
  | true =>
      have passes : (m.run module).manager.stages.map (·.pass) = m.stages.map (·.pass) := by
        rw [comes.stages, List.map_map]
        exact List.map_congr_left fun stage _ => pass_throughAll _ (resetMetrics stage)
      have same : (∀ stage ∈ (m.run module).manager.stages,
            (configFor m.config stage.pass).Printable) ↔
          ∀ stage ∈ m.stages, (configFor m.config stage.pass).Printable := by
        simpa only [List.forall_mem_map] using
          iff_of_eq (congrArg (∀ pass ∈ ·, (configFor m.config pass).Printable) passes)
      rw [if_pos rfl, report_isEncodable_iff ((objects on).of_passes passes), same]
      exact ⟨fun printable _ => printable, fun printable => printable rfl⟩

end Manager

end ValueNumbering
