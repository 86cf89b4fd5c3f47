import Mathlib.Data.List.Induction
import ValueNumbering.Pass.Manager
import ValueNumbering.Pass.Reporting
import ValueNumbering.Proofs.Json.Distinct

/-!
Documents that a manager is offered one after the other. Each is taken over whole or leaves the
manager as it was. What counts for a pass in the end is one entry of one document: of the latest
that mentions the name of the pass, else of the latest that mentions the first of its aliases that
any document mentions.
-/

namespace ValueNumbering

open Text (CodePoints)

def Json.IsObject (value : Json) : Prop := ∃ members, value = .obj members

theorem Json.membersFor_eq_ok {wanted : String} {value : Json}
    {members : Dictionary CodePoints Json} :
    value.membersFor wanted = .ok members ↔ value = .obj members := by
  cases value <;> simp [membersFor]

theorem Json.membersFor_of_not_object {wanted : String} {value : Json} (other : ¬value.IsObject) :
    value.membersFor wanted = .error (.lacks value wanted) := by
  cases value with
  | obj members => exact absurd ⟨members, rfl⟩ other
  | _ => rfl

theorem Json.member?_eq_some {value member : Json} {name : CodePoints} :
    value.member? name = some member ↔ ∃ members, value = .obj members ∧
      members.find? name = some member := by
  cases value <;> simp [member?]

namespace PassConfig

def ofEntry (name : CodePoints) (entry : Json) : PassConfig :=
  { name := name, enabled := (entry.member? "enabled").getD (.bool true),
    options := (entry.member? "options").getD (.obj ∅) }

def passesOf (document : Json) : Json := (document.member? "passes").getD (.obj ∅)

/-- A document that can be taken over: an object whose passes are an object of objects. -/
structure IsDocument (document : Json) : Prop where
  isObject : document.IsObject
  passes : (passesOf document).IsObject
  entries : ∀ passes, passesOf document = .obj passes → ∀ entry ∈ passes.entries, entry.2.IsObject

def mention? (name : CodePoints) (document : Json) : Option PassConfig :=
  ((passesOf document).member? name).map (ofEntry name)

theorem readEntry_eq_ok {name : CodePoints} {entry : Json} {config : PassConfig} :
    readEntry name entry = .ok config ↔ entry.IsObject ∧ config = ofEntry name entry := by
  cases entry <;>
    simp [readEntry, Json.membersFor, Json.IsObject, ofEntry, Json.member?, bind, Except.bind, pure,
      Except.pure, eq_comm]

theorem readEntries_eq_ok {entries : List (CodePoints × Json)}
    {configs : List (CodePoints × PassConfig)} :
    readEntries entries = .ok configs ↔
      (∀ entry ∈ entries, entry.2.IsObject) ∧
        configs = entries.map fun entry => (entry.1, ofEntry entry.1 entry.2) := by
  induction entries generalizing configs with
  | nil => simp [readEntries, eq_comm]
  | cons entry rest ih =>
      obtain ⟨name, value⟩ := entry
      rw [readEntries, List.forall_mem_cons, List.map_cons]
      constructor
      · intro read
        obtain ⟨first, isFirst, read⟩ := Assembly.bind_eq_ok.mp read
        obtain ⟨more, isMore, read⟩ := Assembly.bind_eq_ok.mp read
        obtain ⟨isObject, rfl⟩ := readEntry_eq_ok.mp isFirst
        obtain ⟨areObjects, rfl⟩ := ih.mp isMore
        exact ⟨⟨isObject, areObjects⟩, (Except.ok.inj read).symm⟩
      · rintro ⟨⟨isObject, areObjects⟩, rfl⟩
        refine Assembly.bind_eq_ok.mpr ⟨_, readEntry_eq_ok.mpr ⟨isObject, rfl⟩, ?_⟩
        exact Assembly.bind_eq_ok.mpr ⟨_, ih.mpr ⟨areObjects, rfl⟩, rfl⟩

theorem readDocument_eq_ok {document : Json} {configs : Dictionary CodePoints PassConfig} :
    readDocument document = .ok configs ↔ IsDocument document ∧
      ∀ passes, passesOf document = .obj passes →
        configs = ⟨passes.entries.map fun entry => (entry.1, ofEntry entry.1 entry.2)⟩ := by
  have membersOf : ∀ {members}, document = .obj members →
      (members.find? "passes").getD (.obj ∅) = passesOf document := by
    rintro members rfl
    rfl
  constructor
  · intro read
    obtain ⟨members, isObject, read⟩ := Assembly.bind_eq_ok.mp read
    obtain ⟨passes, arePasses, read⟩ := Assembly.bind_eq_ok.mp read
    obtain ⟨entries, areEntries, read⟩ := Assembly.bind_eq_ok.mp read
    have isObject := Json.membersFor_eq_ok.mp isObject
    rw [membersOf isObject, Json.membersFor_eq_ok] at arePasses
    obtain ⟨areObjects, rfl⟩ := readEntries_eq_ok.mp areEntries
    have only : ∀ {others}, passesOf document = .obj others → others = passes := by
      intro others same
      rw [arePasses] at same
      exact (Json.obj.inj same).symm
    refine ⟨⟨⟨members, isObject⟩, ⟨passes, arePasses⟩, ?_⟩, ?_⟩
    · intro others same
      exact only same ▸ areObjects
    · intro others same
      rw [only same]
      exact (Except.ok.inj read).symm
  · rintro ⟨isDocument, same⟩
    obtain ⟨members, isObject⟩ := isDocument.isObject
    obtain ⟨passes, arePasses⟩ := isDocument.passes
    refine Assembly.bind_eq_ok.mpr ⟨members, Json.membersFor_eq_ok.mpr isObject, ?_⟩
    refine Assembly.bind_eq_ok.mpr
      ⟨passes, by rw [membersOf isObject, Json.membersFor_eq_ok, arePasses], ?_⟩
    refine Assembly.bind_eq_ok.mpr
      ⟨_, readEntries_eq_ok.mpr ⟨isDocument.entries passes arePasses, rfl⟩, ?_⟩
    rw [same passes arePasses]
    rfl

end PassConfig

namespace Manager

open PassConfig (IsDocument mention? ofEntry passesOf)

variable {σ : Type} {m : Manager σ} {document : Json} {documents : List Json} {name : CodePoints}

theorem nodup_keys_of_passesOf {passes : Dictionary CodePoints Json} (distinct : document.Distinct)
    (arePasses : passesOf document = .obj passes) : passes.keys.Nodup := by
  unfold PassConfig.passesOf at arePasses
  cases found : document.member? "passes" with
  | none =>
      rw [found] at arePasses
      cases arePasses
      exact List.nodup_nil
  | some value =>
      rw [found] at arePasses
      obtain rfl : value = .obj passes := arePasses
      exact (distinct.member found).keys

/-- The entries of a document are merged where they are read. A fault comes before that, so it
leaves the manager alone. -/
theorem run_mergeConfig (m : Manager σ) (document : Json) :
    (mergeConfig document).run m =
      match PassConfig.readDocument document with
      | .ok entries => .ok () { m with config := m.config.merge entries }
      | .error fault => .error fault m := by
  unfold mergeConfig
  cases PassConfig.readDocument document <;> rfl

theorem setConfig_eq (m : Manager σ) (document : Json) :
    m.setConfig document = (PassConfig.readDocument document).map fun entries =>
      { m with config := m.config.merge entries } := by
  rw [setConfig, run_mergeConfig]
  cases PassConfig.readDocument document <;> rfl

theorem setConfig_of_isDocument (m : Manager σ) (isDocument : IsDocument document)
    (distinct : ∀ passes, passesOf document = .obj passes → passes.keys.Nodup) :
    ∃ config, m.setConfig document = .ok { m with config := config } ∧
      ∀ name, config.find? name = (mention? name document).or (m.config.find? name) := by
  obtain ⟨passes, arePasses⟩ := isDocument.passes
  have read : PassConfig.readDocument document =
      .ok ⟨passes.entries.map fun entry => (entry.1, ofEntry entry.1 entry.2)⟩ := by
    refine PassConfig.readDocument_eq_ok.mpr ⟨isDocument, fun others same => ?_⟩
    rw [arePasses] at same
    cases same
    rfl
  have keys := distinct passes arePasses
  refine ⟨_, by rw [setConfig_eq, read]; rfl, fun name => ?_⟩
  rw [Dictionary.find?_merge _ (by rwa [Dictionary.keys_map_entries]), Dictionary.find?_map_entries,
    mention?, arePasses]
  rfl

theorem isDocument_of_setConfig {after : Manager σ} (taken : m.setConfig document = .ok after) :
    IsDocument document := by
  cases read : PassConfig.readDocument document with
  | ok configs => exact (PassConfig.readDocument_eq_ok.mp read).1
  | error fault =>
      rw [setConfig_eq, read] at taken
      cases taken

/-- The manager that a document leaves behind, and the fault where the document is not taken
over. -/
def offer (m : Manager σ) (document : Json) : Manager σ × Option ConfigFault :=
  match (mergeConfig document).run m with
  | .ok () after => (after, none)
  | .error fault after => (after, some fault)

def offerAll (m : Manager σ) (documents : List Json) : Manager σ :=
  documents.foldl (fun m document => (m.offer document).1) m

theorem offerAll_concat (m : Manager σ) (documents : List Json) (document : Json) :
    m.offerAll (documents ++ [document]) = ((m.offerAll documents).offer document).1 := by
  rw [offerAll, List.foldl_append, List.foldl_cons, List.foldl_nil, offerAll]

/-- What an offer comes to: the configuration with the mentions of the document, or everything as it
was. -/
inductive Offered (m : Manager σ) (document : Json) : Manager σ × Option ConfigFault → Prop
  | taken (isDocument : IsDocument document) {config : Dictionary CodePoints PassConfig}
      (mentions : ∀ name, config.find? name = (mention? name document).or (m.config.find? name)) :
      Offered m document ({ m with config := config }, none)
  | refused (malformed : ¬IsDocument document) (fault : ConfigFault) :
      Offered m document (m, some fault)

theorem offered (m : Manager σ) (distinct : document.Distinct) :
    Offered m document (m.offer document) := by
  rw [offer, run_mergeConfig]
  cases read : PassConfig.readDocument document with
  | ok entries =>
      have isDocument := (PassConfig.readDocument_eq_ok.mp read).1
      obtain ⟨config, taken, mentions⟩ :=
        m.setConfig_of_isDocument isDocument fun _ => nodup_keys_of_passesOf distinct
      rw [setConfig_eq, read] at taken
      obtain rfl : m.config.merge entries = config := congrArg Manager.config (Except.ok.inj taken)
      exact .taken isDocument mentions
  | error fault =>
      refine .refused (fun isDocument => ?_) fault
      obtain ⟨config, taken, -⟩ :=
        m.setConfig_of_isDocument isDocument fun _ => nodup_keys_of_passesOf distinct
      rw [setConfig_eq, read] at taken
      cases taken

def Unmentioned (documents : List Json) (name : CodePoints) : Prop :=
  ∀ document ∈ documents, IsDocument document → mention? name document = none

/-- What the latest document that is taken over and mentions a name says for it. -/
def LatestMention (documents : List Json) (name : CodePoints) (entry : PassConfig) : Prop :=
  ∃ before document after, documents = before ++ document :: after ∧ IsDocument document ∧
    mention? name document = some entry ∧
    Unmentioned after name

theorem LatestMention.concat {entry : PassConfig} (latest : LatestMention documents name entry)
    (silent : IsDocument document → mention? name document = none) :
    LatestMention (documents ++ [document]) name entry := by
  obtain ⟨before, chosen, after, rfl, isDocument, mentioned, unmentioned⟩ := latest
  refine ⟨before, chosen, after ++ [document], by simp, isDocument, mentioned, ?_⟩
  exact List.forall_mem_append.mpr ⟨unmentioned, List.forall_mem_singleton.mpr silent⟩

inductive Finds (documents : List Json) (name : CodePoints) : Option PassConfig → Prop
  | mentioned {entry : PassConfig} (latest : LatestMention documents name entry) :
      Finds documents name (some entry)
  | unmentioned (never : Unmentioned documents name) : Finds documents name none

theorem Finds.concat {found : Option PassConfig} (finds : Finds documents name found)
    (silent : IsDocument document → mention? name document = none) :
    Finds (documents ++ [document]) name found := by
  cases finds with
  | mentioned latest => exact .mentioned (latest.concat silent)
  | unmentioned never =>
    exact .unmentioned (List.forall_mem_append.mpr ⟨never, List.forall_mem_singleton.mpr silent⟩)

theorem finds_offerAll (bare : m.config = ∅) (distinct : ∀ document ∈ documents, document.Distinct)
    (name : CodePoints) :
    Finds documents name ((m.offerAll documents).config.find? name) := by
  -- From the end: the latest document to mention the name decides.
  induction documents using List.reverseRecOn with
  | nil =>
      rw [show m.offerAll [] = m from rfl, bare]
      exact .unmentioned (by simp [Unmentioned])
  | append_singleton documents document ih =>
      obtain ⟨earlier, last⟩ := List.forall_mem_append.mp distinct
      have finds := ih earlier
      have step := (m.offerAll documents).offered (List.forall_mem_singleton.mp last)
      rw [offerAll_concat]
      generalize (m.offerAll documents).offer document = answer at step ⊢
      cases step with
      | refused malformed fault => exact finds.concat fun isDocument => absurd isDocument malformed
      | taken isDocument mentions =>
          simp only [mentions]
          cases mentioned : mention? name document with
          | none => exact finds.concat fun _ => mentioned
          | some entry =>
              exact .mentioned ⟨documents, document, [], rfl, isDocument, mentioned, by
                simp [Unmentioned]⟩

inductive Counts (documents : List Json) (pass : Pass σ) : PassConfig → Prop
  | byName {entry : PassConfig} (latest : LatestMention documents pass.name entry) :
      Counts documents pass entry
  | byAlias {first rest : List String} {chosen : String} {entry : PassConfig}
      (unnamed : Unmentioned documents pass.name)
      (aliases : pass.aliases = first ++ chosen :: rest)
      (skipped : ∀ other ∈ first, Unmentioned documents other)
      (latest : LatestMention documents chosen entry) : Counts documents pass entry
  | byDefault (unnamed : Unmentioned documents pass.name)
      (skipped : ∀ other ∈ pass.aliases, Unmentioned documents other) :
      Counts documents pass { name := pass.name }

theorem unmentioned_of_finds {found : Option PassConfig} (finds : Finds documents name found)
    (missing : found = none) :
    Unmentioned documents name := by
  cases finds with
  | mentioned latest => cases missing
  | unmentioned never => exact never

theorem latestMention_of_finds {found : Option PassConfig} {entry : PassConfig}
    (finds : Finds documents name found) (present : found = some entry) :
    LatestMention documents name entry := by
  cases finds with
  | mentioned latest => exact Option.some.inj present ▸ latest
  | unmentioned never => cases present

theorem counts_configFor {config : Dictionary CodePoints PassConfig}
    (finds : ∀ name, Finds documents name (config.find? name)) (pass : Pass σ) :
    Counts documents pass (configFor config pass) := by
  unfold configFor
  rw [List.findSome?_cons]
  cases byName : config.find? pass.name with
  | some entry => exact .byName (latestMention_of_finds (finds _) byName)
  | none =>
      have unnamed := unmentioned_of_finds (finds _) byName
      simp only
      cases byAlias : pass.aliases.findSome? fun (other : String) => config.find? other with
      | none =>
          refine .byDefault unnamed fun other member => ?_
          exact unmentioned_of_finds (finds _) (List.findSome?_eq_none_iff.mp byAlias other member)
      | some entry =>
          obtain ⟨first, chosen, rest, aliases, present, missing⟩ :=
            List.findSome?_eq_some_iff.mp byAlias
          refine .byAlias unnamed aliases (fun other member => ?_)
            (latestMention_of_finds (finds _) present)
          exact unmentioned_of_finds (finds _) (missing other member)

/-- Documents are taken over whole or leave everything as it was, and the entry that counts for a
pass is that of the latest mention. -/
theorem latest_document_counts (bare : m.config = ∅)
    (distinct : ∀ document ∈ documents, document.Distinct) :
    (∀ before document after, documents = before ++ document :: after →
      Offered (m.offerAll before) document ((m.offerAll before).offer document)) ∧
    ∀ pass : Pass σ, Counts documents pass (configFor (m.offerAll documents).config pass) := by
  constructor
  · rintro before document after rfl
    exact offered _ (distinct document (by simp))
  · intro pass
    exact counts_configFor (finds_offerAll bare distinct) pass

def someDocuments : List Json :=
  let object (members : List (CodePoints × Json)) : Json := .obj ⟨members⟩
  let document (passes : List (CodePoints × Json)) : Json := object [("passes", object passes)]
  [document [("lvn", object [("enabled", .int 0)])],
    document [("value-numbering", object []), ("lvn", .null)],
    document [("lvn", object [("options", object [("column_width", .int 7)])])],
    .arr [],
    object []]

theorem someDocuments_count :
    ({} : Manager Reporting).config = ∅ ∧ (∀ document ∈ someDocuments, document.Distinct) ∧
    configFor (({} : Manager Reporting).offerAll someDocuments).config reportingPass =
      { name := "lvn", options := .obj ⟨[("column_width", .int 7)]⟩ } ∧
    Counts someDocuments reportingPass
      { name := "lvn", options := .obj ⟨[("column_width", .int 7)]⟩ } := by
  have bare : ({} : Manager Reporting).config = ∅ := rfl
  have distinct : ∀ document ∈ someDocuments, document.Distinct := by
    simp [someDocuments, Json.Distinct, Json.MembersDistinct, Json.AllDistinct]
    decide
  have found : configFor (({} : Manager Reporting).offerAll someDocuments).config reportingPass =
      { name := "lvn", options := .obj ⟨[("column_width", .int 7)]⟩ } := rfl
  obtain ⟨-, counts⟩ := latest_document_counts bare distinct
  exact ⟨bare, distinct, found, found ▸ counts reportingPass⟩

end Manager

end ValueNumbering
