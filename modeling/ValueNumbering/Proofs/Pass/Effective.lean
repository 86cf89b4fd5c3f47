import ValueNumbering.Proofs.Pass.Printing

/-!
The configuration that counts for the pass that numbers functions: the entry of a document under the
name of the pass, else the one under its alias, else none, and the options that take precedence over
those of the entry.
-/

namespace ValueNumbering

open Text (CodePoints)

namespace PassConfig

/-- An entry is an object, and so are its options where it has any; a column among them is an
integer in range. -/
def IsEntry (entry : Json) : Prop :=
  ∃ members, entry = .obj members ∧ ∀ options, members.find? "options" = some options →
    ∃ own, options = .obj own ∧
    ∀ width, own.find? "column_width" = some width → ∃ n, width = .int n ∧
      Line.columnInRange n = true

def isColumn : Json → Bool
  | .int n => Line.columnInRange n
  | _ => false

def areOptions : Json → Bool
  | .obj own => (own.find? "column_width").all isColumn
  | _ => false

theorem isColumn_iff (width : Json) :
    isColumn width = true ↔ ∃ n, width = .int n ∧ Line.columnInRange n = true := by
  cases width <;> simp [isColumn]

theorem areOptions_iff (options : Json) : areOptions options = true ↔ ∃ own, options = .obj own ∧
    ∀ width, own.find? "column_width" = some width → ∃ n, width = .int n ∧
      Line.columnInRange n = true := by
  cases options <;> simp [areOptions, Option.all_eq_true, isColumn_iff]

instance : DecidablePred IsEntry
  | .obj members => decidable_of_iff ((members.find? "options").all areOptions = true) (by
      simp [IsEntry, Option.all_eq_true, areOptions_iff])
  | .null | .bool _ | .int _ | .float _ | .str _ | .arr _ => isFalse (by simp [IsEntry])

theorem isDocument_of_passes {document : Json} {passes : Dictionary CodePoints Json}
    (found : document.member? "passes" = some (.obj passes))
    (shaped : ∀ entry ∈ passes.entries, IsEntry entry.2) :
    passesOf document = .obj passes ∧ IsDocument document := by
  obtain ⟨members, isObject, -⟩ := Json.member?_eq_some.mp found
  have arePasses : passesOf document = .obj passes := by
    rw [passesOf, found]
    rfl
  refine ⟨arePasses, ⟨members, isObject⟩, ⟨passes, arePasses⟩, fun others same entry member => ?_⟩
  obtain rfl : passes = others := Json.obj.inj (arePasses.symm.trans same)
  obtain ⟨own, entryIsObject, -⟩ := shaped entry member
  exact ⟨own, entryIsObject⟩

end PassConfig

namespace Manager

open PassConfig (ofEntry IsEntry)

theorem setConfig_of_passes {σ : Type} (m : Manager σ) {document : Json}
    {passes : Dictionary CodePoints Json} (found : document.member? "passes" = some (.obj passes))
    (distinct : passes.keys.Nodup) (shaped : ∀ entry ∈ passes.entries, IsEntry entry.2) :
    ∃ config, m.setConfig document = .ok { m with config := config } ∧
      ∀ name, config.find? name = ((passes.find? name).map (ofEntry name)).or
        (m.config.find? name) := by
  obtain ⟨arePasses, isDocument⟩ := PassConfig.isDocument_of_passes found shaped
  obtain ⟨config, taken, mentions⟩ := m.setConfig_of_isDocument isDocument fun others same => by
    rwa [← Json.obj.inj (arePasses.symm.trans same)]
  refine ⟨config, taken, fun name => ?_⟩
  rw [mentions, PassConfig.mention?, arePasses]
  rfl

def entryFor (passes : Dictionary CodePoints Json) : Option Json :=
  (passes.find? "value-numbering").or (passes.find? "lvn")

def switchedOn (entry : Option Json) : Bool :=
  ((entry.bind (·.member? "enabled")).getD (.bool true)).truthy

def optionOf (entry : Option Json) (name : CodePoints) : Option Json :=
  (entry.bind (·.member? "options")).bind (·.member? name)

/-- What a configuration asks of the pass that numbers functions: whether it is on, and its options
by their names. -/
structure Asks (config : Dictionary CodePoints PassConfig) (isOn : Bool)
    (option : CodePoints → Option Json) : Prop where
  named : ∀ key entry, config.find? key = some entry → entry.name = key
  isOn : (configFor config reportingPass).isEnabled = isOn
  options : ∃ own, (configFor config reportingPass).options = .obj own ∧ own.keys.Nodup ∧
    ∀ name, own.find? name = option name

theorem configFor_reportingPass (config : Dictionary CodePoints PassConfig) :
    configFor config reportingPass =
      ((config.find? "value-numbering").or (config.find? "lvn")).getD
        { name := "value-numbering" } := by
  unfold configFor reportingPass
  cases first : config.find? "value-numbering" <;> cases second : config.find? "lvn" <;>
    simp [List.findSome?, first, second]

section Asks

variable {config : Dictionary CodePoints PassConfig} {isOn : Bool}
    {option : CodePoints → Option Json}

theorem options_ofEntry {entry : Json} (shaped : IsEntry entry) (distinct : entry.Distinct)
    (name : CodePoints) : ∃ own, (ofEntry name entry).options = .obj own ∧ own.keys.Nodup ∧
      ∀ key, own.find? key = optionOf (some entry) key := by
  obtain ⟨members, rfl, inside⟩ := shaped
  cases given : members.find? "options" with
  | none =>
      exact ⟨∅, by simp [ofEntry, Json.member?, given], List.nodup_nil,
        by simp [optionOf, Json.member?, given]⟩
  | some options =>
      obtain ⟨own, rfl, -⟩ := inside options given
      exact ⟨own, by simp [ofEntry, Json.member?, given], (distinct.member given).keys,
        by simp [optionOf, Json.member?, given]⟩

theorem column_of_entries {passes : Dictionary CodePoints Json}
    (shaped : ∀ entry ∈ passes.entries, IsEntry entry.2) {value : Json}
    (given : optionOf (entryFor passes) "column_width" = some value) :
    ∃ n, value = .int n ∧ Line.columnInRange n = true := by
  obtain ⟨options, isOptions, given⟩ := Option.bind_eq_some_iff.mp given
  obtain ⟨entry, isEntry, isOptions⟩ := Option.bind_eq_some_iff.mp isOptions
  have member : ∃ name, (name, entry) ∈ passes.entries := by
    rcases Option.or_eq_some_iff.mp isEntry with byName | ⟨-, byAlias⟩
    · exact ⟨_, Dictionary.mem_entries_of_find? byName⟩
    · exact ⟨_, Dictionary.mem_entries_of_find? byAlias⟩
  obtain ⟨name, inside⟩ := member
  obtain ⟨members, rfl, sound⟩ := shaped _ inside
  obtain ⟨own, rfl, column⟩ := sound options isOptions
  exact column value given

/-- What a configuration of the entries of a document asks for. -/
theorem asks_of_entries {passes : Dictionary CodePoints Json}
    (shaped : ∀ entry ∈ passes.entries, IsEntry entry.2) (distinct : (Json.obj passes).Distinct)
    (found : ∀ name, config.find? name = (passes.find? name).map (ofEntry name)) :
    Asks config (switchedOn (entryFor passes)) (optionOf (entryFor passes)) := by
  have optionsAt : ∀ name entry, passes.find? name = some entry → ∃ own,
      (ofEntry name entry).options = .obj own ∧ own.keys.Nodup ∧
        ∀ key, own.find? key = optionOf (some entry) key :=
    fun name entry isEntry => options_ofEntry (shaped _ (Dictionary.mem_entries_of_find? isEntry))
      (distinct.member isEntry) name
  have named : ∀ key entry, config.find? key = some entry → entry.name = key := by
    intro key entry isEntry
    rw [found] at isEntry
    obtain ⟨value, -, rfl⟩ := Option.map_eq_some_iff.mp isEntry
    rfl
  have effective := configFor_reportingPass config
  rw [found, found] at effective
  cases byName : passes.find? "value-numbering" with
  | some entry =>
      have chosen : entryFor passes = some entry := by simp [entryFor, byName]
      rw [byName] at effective
      rw [chosen]
      exact ⟨named, by rw [effective]; rfl, by rw [effective]; exact optionsAt _ _ byName⟩
  | none =>
      cases byAlias : passes.find? "lvn" with
      | some entry =>
          have chosen : entryFor passes = some entry := by simp [entryFor, byName, byAlias]
          rw [byName, byAlias] at effective
          rw [chosen]
          exact ⟨named, by rw [effective]; rfl, by rw [effective]; exact optionsAt _ _ byAlias⟩
      | none =>
          have chosen : entryFor passes = none := by simp [entryFor, byName, byAlias]
          rw [byName, byAlias] at effective
          rw [chosen]
          exact ⟨named, by rw [effective]; rfl, ∅, by rw [effective]; rfl, List.nodup_nil,
            fun _ => rfl⟩

theorem configFor_insert (named : ∀ key entry, config.find? key = some entry → entry.name = key)
    {entry : PassConfig} (name : entry.name = (configFor config reportingPass).name) :
    configFor (config.insert entry.name entry) reportingPass = entry := by
  have apart : CodePoints.ofString "lvn" ≠ CodePoints.ofString "value-numbering" :=
    fun same => absurd (CodePoints.ofString_injective same) (by decide)
  have effective := configFor_reportingPass config
  rw [configFor_reportingPass]
  cases byName : config.find? "value-numbering" with
  | some own =>
      rw [byName] at effective
      rw [effective] at name
      have key : entry.name = "value-numbering" := name.trans (named _ _ byName)
      rw [key, Dictionary.find?_insert_self]
      rfl
  | none =>
      cases byAlias : config.find? "lvn" with
      | some own =>
          rw [byName, byAlias] at effective
          rw [effective] at name
          have key : entry.name = "lvn" := name.trans (named _ _ byAlias)
          rw [key, Dictionary.find?_insert_of_ne _ _ apart, byName, Dictionary.find?_insert_self]
          rfl
      | none =>
          rw [byName, byAlias] at effective
          rw [effective] at name
          have key : entry.name = "value-numbering" := name
          rw [key, Dictionary.find?_insert_self]
          rfl

theorem Asks.override (asks : Asks config isOn option) {options : Dictionary CodePoints Json}
    (distinct : options.keys.Nodup) :
    ∃ entry, (configFor config reportingPass).override options = .ok entry ∧
      Asks (config.insert entry.name entry) isOn fun name =>
        (options.find? name).or (option name) := by
  obtain ⟨own, isObject, apart, inside⟩ := asks.options
  let entry : PassConfig :=
    { configFor config reportingPass with options := .obj (own.merge options) }
  have overridden : (configFor config reportingPass).override options = .ok entry := by
    simp [PassConfig.override, isObject, Json.membersFor, entry, bind, Except.bind, pure,
      Except.pure]
  refine ⟨entry, overridden, ?_⟩
  have chosen : configFor (config.insert entry.name entry) reportingPass = entry :=
    configFor_insert asks.named rfl
  refine ⟨?_, ?_, ?_⟩
  · intro key other found
    rw [Dictionary.find?_insert] at found
    split at found
    · next same =>
        cases found
        exact same
    · exact asks.named key other found
  · rw [chosen]
    exact asks.isOn
  · rw [chosen]
    refine ⟨own.merge options, rfl, Dictionary.nodup_keys_merge apart options, fun name => ?_⟩
    rw [Dictionary.find?_merge _ distinct, inside]

theorem Asks.congr (asks : Asks config isOn option) {other : CodePoints → Option Json}
    (same : ∀ name, option name = other name) :
    Asks config isOn other := by
  obtain ⟨own, isObject, apart, inside⟩ := asks.options
  exact ⟨asks.named, asks.isOn, own, isObject, apart, fun name => (inside name).trans (same name)⟩

/-- Stages of the pass after the first take the options over once more, which changes nothing. -/
theorem overrideOptions_again {options : Dictionary CodePoints Json} (distinct : options.keys.Nodup)
    {stages : List (Stage Reporting)} (passes : ∀ stage ∈ stages, stage.pass = reportingPass)
    (asks : Asks config isOn option)
    (taken : ∀ name, (options.find? name).or (option name) = option name) :
    ∃ after, overrideOptions options config stages = .ok after ∧ Asks after isOn option := by
  induction stages generalizing config with
  | nil => exact ⟨config, rfl, asks⟩
  | cons stage rest ih =>
      obtain ⟨isReporting, others⟩ := List.forall_mem_cons.mp passes
      obtain ⟨entry, overridden, next⟩ := asks.override distinct
      obtain ⟨after, done, last⟩ := ih others (next.congr taken)
      refine ⟨after, ?_, last⟩
      rw [overrideOptions, isReporting, overridden]
      exact done

theorem overrideOptions_asks {options : Dictionary CodePoints Json} (distinct : options.keys.Nodup)
    {stages : List (Stage Reporting)} (passes : ∀ stage ∈ stages, stage.pass = reportingPass)
    (asks : Asks config isOn option) :
    ∃ after, overrideOptions options config stages = .ok after ∧
      (stages ≠ [] → Asks after isOn fun name => (options.find? name).or (option name)) := by
  cases stages with
  | nil => exact ⟨config, rfl, fun nonempty => absurd rfl nonempty⟩
  | cons stage rest =>
      obtain ⟨isReporting, others⟩ := List.forall_mem_cons.mp passes
      obtain ⟨entry, overridden, next⟩ := asks.override distinct
      have taken : ∀ name, (options.find? name).or ((options.find? name).or (option name)) =
          (options.find? name).or (option name) := by
        intro name
        rw [← Option.or_assoc, Option.or_self]
      obtain ⟨after, done, last⟩ := overrideOptions_again distinct others next taken
      refine ⟨after, ?_, fun _ => last⟩
      rw [overrideOptions, isReporting, overridden]
      exact done

def settingsOf (option : CodePoints → Option Json) : Numbering.Settings :=
  { shareLiterals := ((option "intern_constants").getD (.bool true)).truthy,
    column := match option "column_width" with
      | some (.int n) => n
      | _ => 40 }

theorem Asks.settings (asks : Asks config isOn option)
    (width : ∀ value, option "column_width" = some value → ∃ n, value = .int n) :
    (configFor config reportingPass).settings = .ok (settingsOf option) := by
  obtain ⟨own, isObject, -, inside⟩ := asks.options
  have column : PassConfig.columnOf ((option "column_width").getD (.int 40)) =
      .ok (settingsOf option).column := by
    unfold settingsOf
    cases given : option "column_width" with
    | none => rfl
    | some value =>
        obtain ⟨n, rfl⟩ := width value given
        rfl
  simp [PassConfig.settings, isObject, Json.membersFor, inside, column, bind, Except.bind, pure,
    Except.pure, settingsOf]

theorem Asks.printable_iff (asks : Asks config isOn option) :
    (configFor config reportingPass).Printable ↔
      (isOn = true → ∀ name value, option name = some value → IsPlainOption name value) := by
  obtain ⟨own, isObject, apart, inside⟩ := asks.options
  rw [PassConfig.printable_iff isObject apart, asks.isOn]
  simp only [inside]

theorem printable_stages_iff {stages : List (Stage Reporting)}
    (passes : ∀ stage ∈ stages, stage.pass = reportingPass) :
    (∀ stage ∈ stages, (configFor config stage.pass).Printable) ↔
      (stages ≠ [] → (configFor config reportingPass).Printable) := by
  constructor
  · intro all nonempty
    obtain ⟨stage, member⟩ := List.exists_mem_of_ne_nil stages nonempty
    exact passes stage member ▸ all stage member
  · intro printable stage member
    rw [passes stage member]
    exact printable (List.ne_nil_of_mem member)

end Asks

end Manager

end ValueNumbering
