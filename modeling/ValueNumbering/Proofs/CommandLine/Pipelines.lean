import ValueNumbering.CommandLine.Run
import ValueNumbering.Proofs.Text.Words

/-!
Pipelines as they are written: names of passes and empty items between commas, with blanks around
them. Each name gives a stage in its initial state, in the order of the names.
-/

namespace ValueNumbering

open Text (Blanks)

namespace CommandLine

def firstStage : Stage Reporting := ⟨reportingPass, { own := {} }⟩

/-- An item between the commas of a pipeline: the name of a pass, or nothing, with blanks around
it. -/
structure Item where
  before : String := ""
  name : String
  after : String := ""
  blankBefore : Blanks before.toList := by decide
  named : name = "" ∨ name ∈ registry.keys := by decide
  blankAfter : Blanks after.toList := by decide

namespace Item

def text (item : Item) : List Char := item.before.toList ++ (item.name.toList ++ item.after.toList)

def isNamed (item : Item) : Bool := item.name ≠ ""

def line (items : List Item) : String := String.ofList ([','].intercalate (items.map text))

def count (items : List Item) : Nat := items.countP isNamed

theorem isNamed_eq (item : Item) : item.isNamed = !item.name.toList.isEmpty := by
  by_cases empty : item.name = "" <;> simp [isNamed, empty]

theorem plain (item : Item) : ∀ c ∈ item.name.toList, Text.isBlank c = false ∧ c ≠ ',' := by
  have each : ∀ name ∈ registry.keys,
      (name.toList.all fun c => !Text.isBlank c && c != ',') = true := by decide
  rcases item.named with empty | known
  · simp [empty]
  · simpa using each _ known

theorem trim_text (item : Item) : Text.trim item.text = item.name.toList := by
  have solid : Text.Solid item.name.toList := fun c member => (item.plain c member).1
  exact solid.trimmed.trim_surrounded item.blankBefore item.blankAfter

theorem no_comma (item : Item) : ',' ∉ item.text := by
  have noBlank : ∀ {text : List Char}, Blanks text → ',' ∉ text := by
    intro text blanks member
    exact absurd (blanks _ member) (by decide)
  intro member
  rcases List.mem_append.mp member with before | member
  · exact noBlank item.blankBefore before
  · rcases List.mem_append.mp member with name | after
    · exact (item.plain _ name).2 rfl
    · exact noBlank item.blankAfter after

theorem pipelineNames_line (items : List Item) :
    Manager.pipelineNames (line items) = (items.filter isNamed).map (·.name) := by
  cases items with
  | nil => rfl
  | cons item more =>
      have cut : Text.separate ',' ([','].intercalate ((item :: more).map text)) =
          (item :: more).map text := by
        refine Text.separate_intercalate (by simp) fun part member => ?_
        obtain ⟨other, -, rfl⟩ := List.mem_map.mp member
        exact other.no_comma
      have trimmed : ((item :: more).map text).map Text.trim =
          (item :: more).map (·.name.toList) := by
        rw [List.map_map]
        exact List.map_congr_left fun other _ => other.trim_text
      rw [Manager.pipelineNames, line, String.toList_ofList, cut, trimmed, List.filter_map,
        List.map_map]
      have sameTest : ((fun name : List Char => !name.isEmpty) ∘ fun item : Item =>
          item.name.toList) = isNamed := by
        funext item
        exact item.isNamed_eq.symm
      have sameName : (String.ofList ∘ fun item : Item => item.name.toList) = fun item : Item =>
          item.name := by
        funext item
        simp
      rw [sameTest, sameName]

end Item

theorem find?_registry {name : String} (known : name ∈ registry.keys) :
    registry.find? name = some firstStage := by
  have names : registry.keys = ["value-numbering", "lvn"] := by decide
  rw [names] at known
  rcases List.mem_pair.mp known with rfl | rfl <;> rfl

theorem stagesOf_registry {names : List String} (known : ∀ name ∈ names, name ∈ registry.keys) :
    Manager.stagesOf registry names = .ok (List.replicate names.length firstStage) := by
  induction names with
  | nil => rfl
  | cons name rest ih =>
      obtain ⟨first, others⟩ := List.forall_mem_cons.mp known
      rw [Manager.stagesOf, find?_registry first, ih others]
      rfl

theorem ofPipeline_line (items : List Item) (printMetrics : Bool) :
    Manager.ofPipeline registry (Item.line items) printMetrics =
      .ok { stages := List.replicate (Item.count items) firstStage,
            printMetrics := printMetrics } := by
  have known : ∀ name ∈ (items.filter Item.isNamed).map (·.name), name ∈ registry.keys := by
    refine List.forall_mem_map.mpr fun item member => ?_
    have isNamed : item.name ≠ "" := by simpa [Item.isNamed] using (List.mem_filter.mp member).2
    exact item.named.resolve_left isNamed
  rw [Manager.ofPipeline, Item.pipelineNames_line, stagesOf_registry known, List.length_map,
    ← List.countP_eq_length_filter]
  rfl

end CommandLine

end ValueNumbering
