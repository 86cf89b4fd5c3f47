import ValueNumbering.Proofs.Text.Trimming
import ValueNumbering.Text.Lines

/-!
Text as lines and back. No line holds the end of one, and the lines of joined lines are these lines
again.
-/

namespace ValueNumbering.Text

/-- Text that no line ends in. -/
def Unbroken (text : List Char) : Prop := ∀ c ∈ text, isLineBoundary c = false

instance (text : List Char) : Decidable (Unbroken text) := List.decidableBAll _ text

theorem Unbroken.append {first second : List Char} (left : Unbroken first)
    (right : Unbroken second) :
    Unbroken (first ++ second) := by
  intro c member
  rcases List.mem_append.mp member with here | there
  · exact left c here
  · exact right c there

@[simp] theorem unbroken_nil : Unbroken [] := fun _ member => nomatch member

theorem Solid.unbroken {text : List Char} (solid : Solid text) : Unbroken text := by
  intro c member
  cases boundary : isLineBoundary c with
  | false => rfl
  | true => exact absurd (isBlank_of_isLineBoundary boundary) (by simp [solid c member])

theorem unbroken_of_mem_lines {text line : List Char} (member : line ∈ lines text) :
    Unbroken line := by
  induction text using lines.induct generalizing line with
  | case1 => simp [lines] at member
  | case2 rest ih =>
      rcases List.mem_cons.mp member with rfl | later
      · simp
      · exact ih later
  | case3 c rest plain boundary ih =>
      rw [lines.eq_3 c rest plain, if_pos boundary] at member
      rcases List.mem_cons.mp member with rfl | later
      · simp
      · exact ih later
  | case4 c rest plain inside ih =>
      rw [lines.eq_3 c rest plain, if_neg inside] at member
      cases more : lines rest with
      | nil =>
          rw [more, extendFirst, List.mem_singleton] at member
          simpa [Unbroken, member] using inside
      | cons first others =>
          rw [more, extendFirst] at member
          rcases List.mem_cons.mp member with rfl | later
          · intro d isIn
            rcases List.mem_cons.mp isIn with rfl | isIn
            · exact Bool.eq_false_iff.mpr inside
            · exact ih (more ▸ List.mem_cons_self ..) d isIn
          · exact ih (more ▸ List.mem_cons_of_mem _ later)

theorem lines_append {line : List Char} (within : Unbroken line) (rest : List Char) :
    lines (line ++ '\n' :: rest) = line :: lines rest := by
  induction line with
  | nil => rfl
  | cons c more ih =>
      rw [List.cons_append, lines_of_not_boundary (within c (List.mem_cons_self ..)),
        ih fun d member => within d (List.mem_cons_of_mem _ member)]
      rfl

theorem toList_unlines (ls : List String) :
    (unlines ls).toList = ls.flatMap fun line => line.toList ++ ['\n'] := by
  induction ls with
  | nil => rfl
  | cons line rest ih =>
      simp only [unlines, List.map_cons, String.join_cons] at ih ⊢
      simp [ih]

/-- Lines that are joined are found again. -/
theorem lines_unlines {ls : List String} (within : ∀ line ∈ ls, Unbroken line.toList) :
    lines (unlines ls).toList = ls.map (·.toList) := by
  rw [toList_unlines]
  induction ls with
  | nil => rfl
  | cons line rest ih =>
      rw [List.flatMap_cons, List.append_assoc, List.singleton_append,
        lines_append (within line (List.mem_cons_self ..)),
        ih fun other member => within other (List.mem_cons_of_mem _ member)]
      rfl

end ValueNumbering.Text
