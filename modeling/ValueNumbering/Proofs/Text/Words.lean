import Mathlib.Data.List.Induction
import ValueNumbering.Text.Pieces
import ValueNumbering.Proofs.Text.Trimming

/-! Words and comma lists, put together and cut again. -/

namespace ValueNumbering.Text

structure IsWordText (text : List Char) : Prop where
  nonempty : text ≠ []
  solid : Solid text

namespace IsWordText

variable {word : List Char}

theorem trimmed (isWord : IsWordText word) : Trimmed word := isWord.solid.trimmed

theorem tail {c : Char} {rest : List Char} (isWord : IsWordText (c :: rest))
    (nonempty : rest ≠ []) : IsWordText rest :=
  ⟨nonempty, fun d member => isWord.solid d (List.mem_cons_of_mem _ member)⟩

end IsWordText

theorem words_cons {c d : Char} (solid : isBlank c = false) (next : isBlank d = false)
    {rest word : List Char} {more : List (List Char)} (cut : words (d :: rest) = word :: more) :
    words (c :: d :: rest) = (c :: word) :: more := by
  rw [words.eq_def]
  simp only [solid, next, cut, Bool.false_eq_true, if_false]

theorem words_trimLeft (text : List Char) : words (trimLeft text) = words text := by
  induction text with
  | nil => rfl
  | cons c rest ih =>
      cases blank : isBlank c with
      | true => rw [trimLeft_of_blank blank, words_of_blank blank, ih]
      | false => rw [trimLeft_of_not_blank blank]

theorem words_append_blank {c : Char} (blank : isBlank c = true) (text rest : List Char) :
    words (text ++ c :: rest) = words text ++ words rest := by
  induction text with
  | nil => exact words_of_blank blank rest
  | cons d more ih =>
      cases first : isBlank d with
      | true => rw [List.cons_append, words_of_blank first, words_of_blank first, ih]
      | false =>
          cases more with
          | nil => simp [words, first, blank]
          | cons e others =>
              cases second : isBlank e with
              | true =>
                  have left : words (d :: e :: others) = [d] :: words (e :: others) := by
                    rw [words.eq_def]
                    simp [first, second]
                  have whole : words (d :: e :: (others ++ c :: rest)) =
                      [d] :: words (e :: (others ++ c :: rest)) := by
                    rw [words.eq_def]
                    simp [first, second]
                  rw [left, List.cons_append, List.cons_append, whole, ← List.cons_append, ih,
                    List.cons_append]
              | false =>
                  obtain ⟨word, later, cut⟩ :=
                    List.exists_cons_of_ne_nil (words_ne_nil_of_not_blank second others)
                  have whole : words (e :: (others ++ c :: rest)) =
                      word :: (later ++ words rest) := by
                    rw [← List.cons_append, ih, cut, List.cons_append]
                  rw [words_cons first second cut, List.cons_append, List.cons_append,
                    words_cons first second whole, List.cons_append]

namespace IsWordText

variable {word : List Char}

theorem words_eq (isWord : IsWordText word) : words word = [word] := by
  induction word with
  | nil => exact absurd rfl isWord.nonempty
  | cons c rest ih =>
      have solid := isWord.solid c (List.mem_cons_self ..)
      cases rest with
      | nil => simp [words, solid]
      | cons d more =>
        exact words_cons solid (isWord.solid d (by simp)) (ih (isWord.tail (by simp)))

theorem words_append (isWord : IsWordText word) (rest : List Char) :
    words (word ++ ' ' :: rest) = word :: words rest := by
  rw [words_append_blank (by decide), isWord.words_eq, List.singleton_append]

end IsWordText

theorem isWordText_of_mem_words {text word : List Char} (member : word ∈ words text) :
    IsWordText word := by
  refine ⟨word_ne_nil member, ?_⟩
  induction text generalizing word with
  | nil => simp [words] at member
  | cons c rest ih =>
      unfold words at member
      split at member
      · exact ih member
      · next solid =>
          have alone : Solid [c] := by simpa [Solid] using solid
          split at member
          · rw [List.mem_singleton.mp member]
            exact alone
          · split at member
            · rcases List.mem_cons.mp member with rfl | later
              · exact alone
              · exact ih later
            · split at member
              · rw [List.mem_singleton.mp member]
                exact alone
              · next first more cut =>
                  rcases List.mem_cons.mp member with rfl | later
                  · exact alone.append (ih (cut ▸ List.mem_cons_self ..))
                  · exact ih (cut ▸ List.mem_cons_of_mem _ later)

theorem words_trimRight (text : List Char) : words (trimRight text) = words text := by
  induction text using List.reverseRecOn with
  | nil => rfl
  | append_singleton front c ih =>
      cases blank : isBlank c with
      | true =>
          have blanks : Blanks [c] := by simpa [Blanks] using blank
          rw [trimRight_blanks blanks, ih, words_append_blank blank, words, List.append_nil]
      | false =>
          have last : ∀ d, (front ++ [c]).getLast? = some d → isBlank d = false := by
            simpa using blank
          rw [trimRight_eq_self last]

theorem words_trim (text : List Char) : words (trim text) = words text := by
  rw [trim, words_trimRight, words_trimLeft]

theorem words_of_not_blank {c : Char} (solid : isBlank c = false) (rest : List Char) :
    ∃ word more, words (c :: rest) = (c :: word) :: more ∧ ∀ other ∈ words rest, other ∈ more ∨
      other = word := by
  rw [words.eq_def (c :: rest)]
  simp only [solid, Bool.false_eq_true, if_false]
  split
  · exact ⟨[], [], rfl, by simp [words]⟩
  · split
    · exact ⟨[], words _, rfl, fun other member => Or.inl member⟩
    · split
      · next none => exact ⟨[], [], rfl, by simp [none]⟩
      · next word more cut =>
          refine ⟨word, more, rfl, fun other member => ?_⟩
          rw [cut] at member
          exact (List.mem_cons.mp member).symm

theorem exists_word_of_mem {text : List Char} {c : Char} (member : c ∈ text)
    (solid : isBlank c = false) :
    ∃ word ∈ words text, c ∈ word := by
  induction text with
  | nil => cases member
  | cons d rest ih =>
      cases first : isBlank d with
      | true =>
          have inRest : c ∈ rest := (List.mem_cons.mp member).resolve_left fun same => by
            simp [same, first] at solid
          rw [words_of_blank first]
          exact ih inRest
      | false =>
          obtain ⟨word, more, cut, later⟩ := words_of_not_blank first rest
          rw [cut]
          rcases List.mem_cons.mp member with rfl | inRest
          · exact ⟨_, List.mem_cons_self .., List.mem_cons_self ..⟩
          · obtain ⟨other, isWord, inside⟩ := ih inRest
            rcases later other isWord with isLater | rfl
            · exact ⟨other, List.mem_cons_of_mem _ isLater, inside⟩
            · exact ⟨_, List.mem_cons_self .., List.mem_cons_of_mem _ inside⟩

section Separate

variable {separator : Char} {part : List Char}

theorem separate_append (free : separator ∉ part) (rest : List Char) :
    separate separator (part ++ separator :: rest) = part :: separate separator rest := by
  induction part with
  | nil => simp [separate]
  | cons c more ih =>
      obtain ⟨here, later⟩ := not_or.mp (mt List.mem_cons.mpr free)
      rw [List.cons_append, separate, if_neg (Ne.symm here), ih later]

theorem separate_last (free : separator ∉ part) : separate separator part = [part] := by
  induction part with
  | nil => rfl
  | cons c more ih =>
      obtain ⟨here, later⟩ := not_or.mp (mt List.mem_cons.mpr free)
      rw [separate, if_neg (Ne.symm here), ih later]

theorem separate_intercalate {parts : List (List Char)} (nonempty : parts ≠ [])
    (free : ∀ part ∈ parts, separator ∉ part) :
    separate separator ([separator].intercalate parts) = parts := by
  induction parts with
  | nil => exact absurd rfl nonempty
  | cons part more ih =>
      obtain ⟨here, later⟩ := List.forall_mem_cons.mp free
      cases more with
      | nil => rw [List.intercalate_singleton, separate_last here]
      | cons next others =>
          rw [List.intercalate_cons_cons, List.append_assoc, List.singleton_append,
            separate_append here, ih (List.cons_ne_nil _ _) later]

end Separate

/-- The text takes the count of open brackets from one number to another, without a comma at count
zero. -/
def Passes : Int → List Char → Int → Prop
  | before, [], after => before = after
  | before, c :: rest, after => (c = ',' → before ≠ 0) ∧ Passes (depthAfter before c) rest after

/-- Text that a comma list is not cut in: every comma stands within brackets, and they are closed
again. -/
def Sealed (text : List Char) : Prop := Passes 0 text 0

namespace Passes

instance decidable :
    (before : Int) → (text : List Char) → (after : Int) → Decidable (Passes before text after)
  | before, [], after => inferInstanceAs (Decidable (before = after))
  | before, c :: rest, after =>
      have : Decidable (Passes (depthAfter before c) rest after) := decidable _ rest after
      inferInstanceAs (Decidable ((c = ',' → before ≠ 0) ∧ Passes (depthAfter before c) rest after))

variable {before middle after : Int} {text more : List Char}

theorem append (first : Passes before text middle) (second : Passes middle more after) :
    Passes before (text ++ more) after := by
  induction text generalizing before with
  | nil =>
      obtain rfl : before = middle := first
      exact second
  | cons c rest ih => exact ⟨first.1, ih first.2⟩

/-- The first piece begins with such text. -/
theorem cutAtCommas_append (passes : Passes before text after) {piece : List Char}
    {pieces : List (List Char)} (cut : cutAtCommas after more = piece :: pieces) :
    cutAtCommas before (text ++ more) = (text ++ piece) :: pieces := by
  induction text generalizing before with
  | nil =>
      obtain rfl : before = after := passes
      exact cut
  | cons c rest ih =>
      have notCut : ¬(c = ',' ∧ before = 0) := fun both => passes.1 both.1 both.2
      rw [List.cons_append, cutAtCommas, if_neg notCut, ih passes.2, List.cons_append]

end Passes

instance (text : List Char) : Decidable (Sealed text) :=
  inferInstanceAs (Decidable (Passes 0 text 0))

namespace Sealed

variable {text : List Char}

theorem append {more : List Char} (first : Sealed text) (second : Sealed more) :
    Sealed (text ++ more) :=
  Passes.append first second

theorem cutAtCommas_eq (closed : Sealed text) : cutAtCommas 0 text = [text] := by
  have cut : cutAtCommas 0 (text ++ []) = [text ++ []] := Passes.cutAtCommas_append closed rfl
  rwa [List.append_nil] at cut

theorem cutAtCommas_comma (closed : Sealed text) (rest : List Char) :
    cutAtCommas 0 (text ++ ',' :: rest) = text :: cutAtCommas 0 rest := by
  have next : cutAtCommas 0 (',' :: rest) = [] :: cutAtCommas 0 rest := by simp [cutAtCommas]
  rw [Passes.cutAtCommas_append closed next, List.append_nil]

end Sealed

/-- Text without commas and brackets. -/
def Uncut (text : List Char) : Prop :=
  ∀ c ∈ text, c ≠ ',' ∧ isOpening c = false ∧ isClosing c = false

instance (text : List Char) : Decidable (Uncut text) := List.decidableBAll _ text

theorem uncut_of_isBlank {c : Char} (blank : isBlank c = true) :
    c ≠ ',' ∧ isOpening c = false ∧ isClosing c = false := by
  refine ⟨?_, Bool.eq_false_iff.mpr fun opening => ?_, Bool.eq_false_iff.mpr fun closing => ?_⟩
  · rintro rfl
    exact absurd blank (by decide)
  · simp only [isOpening, Bool.or_eq_true, beq_iff_eq] at opening
    rcases opening with ((rfl | rfl) | rfl) | rfl <;> exact absurd blank (by decide)
  · simp only [isClosing, Bool.or_eq_true, beq_iff_eq] at closing
    rcases closing with ((rfl | rfl) | rfl) | rfl <;> exact absurd blank (by decide)

namespace Uncut

variable {text : List Char}

theorem append {more : List Char} (left : Uncut text)
    (right : Uncut more) : Uncut (text ++ more) := by
  intro c member
  rcases List.mem_append.mp member with here | there
  · exact left c here
  · exact right c there

theorem passes (uncut : Uncut text) (depth : Int) : Passes depth text depth := by
  induction text with
  | nil => rfl
  | cons c rest ih =>
      obtain ⟨noComma, notOpening, notClosing⟩ := uncut c (List.mem_cons_self ..)
      have same : depthAfter depth c = depth := by simp [depthAfter, notOpening, notClosing]
      refine ⟨fun isComma => absurd isComma noComma, ?_⟩
      rw [same]
      exact ih fun d member => uncut d (List.mem_cons_of_mem _ member)

end Uncut

structure IsSealedItem (text : List Char) : Prop where
  nonempty : text ≠ []
  trimmed : Trimmed text
  closed : Sealed text

structure IsItem (text : List Char) : Prop where
  nonempty : text ≠ []
  trimmed : Trimmed text
  uncut : Uncut text

theorem IsItem.isSealed {text : List Char} (item : IsItem text) : IsSealedItem text :=
  ⟨item.nonempty, item.trimmed, item.uncut.passes 0⟩

theorem dropEmptyLast_of_nonempty {items : List (List Char)}
    (nonempty : ∀ item ∈ items, item ≠ []) :
    dropEmptyLast items = items := by
  induction items with
  | nil => rfl
  | cons item more ih =>
      cases more with
      | nil => simp [dropEmptyLast, nonempty item (List.mem_singleton_self _)]
      | cons next others =>
        rw [dropEmptyLast, ih fun other member => nonempty other (List.mem_cons_of_mem _ member)]

theorem cutAtCommas_intercalate {items : List (List Char)} (nonempty : items ≠ [])
    (closed : ∀ item ∈ items, Sealed item) :
    cutAtCommas 0 ([','].intercalate items) = items := by
  induction items with
  | nil => exact absurd rfl nonempty
  | cons item more ih =>
      obtain ⟨here, later⟩ := List.forall_mem_cons.mp closed
      cases more with
      | nil => rw [List.intercalate_singleton, here.cutAtCommas_eq]
      | cons next others =>
          rw [List.intercalate_cons_cons, List.append_assoc, List.singleton_append,
            here.cutAtCommas_comma, ih (List.cons_ne_nil _ _) later]

theorem intercalate_comma_space (item : List Char) (items : List (List Char)) :
    [',', ' '].intercalate (item :: items) = [','].intercalate (item :: items.map (' ' :: ·)) := by
  induction items generalizing item with
  | nil => simp
  | cons next more ih =>
      rw [List.intercalate_cons_cons, ih next, List.map_cons, List.intercalate_cons_cons]
      cases more <;> simp

/-- The items of a comma list are found again, with the brackets in them. -/
theorem pieces_of_sealed {items : List (List Char)} (areItems : ∀ item ∈ items, IsSealedItem item) :
    pieces ([',', ' '].intercalate items) = items := by
  cases items with
  | nil => rfl
  | cons item more =>
      have space : Sealed [' '] := by decide
      obtain ⟨here, later⟩ := List.forall_mem_cons.mp areItems
      have closed : ∀ other ∈ item :: more.map (' ' :: ·), Sealed other := by
        apply List.forall_mem_cons.mpr ⟨here.closed, ?_⟩
        intro other member
        obtain ⟨next, isNext, rfl⟩ := List.mem_map.mp member
        exact space.append (later next isNext).closed
      have trimmed : (item :: more.map (' ' :: ·)).map trim = item :: more := by
        have each : more.map (trim ∘ (' ' :: ·)) = more.map id :=
          List.map_congr_left fun next isNext =>
          (trim_of_blank (by decide) next).trans (later next isNext).trimmed.trim_eq
        rw [List.map_cons, here.trimmed.trim_eq, List.map_map, each, List.map_id]
      rw [pieces, intercalate_comma_space, cutAtCommas_intercalate (List.cons_ne_nil _ _) closed,
        trimmed]
      exact dropEmptyLast_of_nonempty fun other member => (areItems other member).nonempty

theorem pieces_intercalate {items : List (List Char)} (areItems : ∀ item ∈ items, IsItem item) :
    pieces ([',', ' '].intercalate items) = items :=
  pieces_of_sealed fun item member => (areItems item member).isSealed

theorem trimmed_of_sealed {items : List (List Char)}
    (areItems : ∀ item ∈ items, IsSealedItem item) :
    Trimmed ([',', ' '].intercalate items) := by
  have several : ∀ (item : List Char) (more : List (List Char)),
      (∀ other ∈ item :: more, IsSealedItem other) →
      [',', ' '].intercalate (item :: more) ≠ [] ∧
        Trimmed ([',', ' '].intercalate (item :: more)) := by
    intro item more
    induction more generalizing item with
    | nil =>
        intro areItems
        have only := areItems item (List.mem_singleton_self _)
        rw [List.intercalate_singleton]
        exact ⟨only.nonempty, only.trimmed⟩
    | cons next others ih =>
        intro areItems
        have here := areItems item (List.mem_cons_self ..)
        obtain ⟨nonempty, trimmed⟩ :=
          ih next fun other member => areItems other (List.mem_cons_of_mem _ member)
        rw [List.intercalate_cons_cons]
        refine ⟨by simp [here.nonempty], ?_, ?_⟩
        · rw [List.append_assoc, List.head?_append_of_ne_nil _ here.nonempty]
          exact here.trimmed.first
        · rw [List.getLast?_append_of_ne_nil _ nonempty]
          exact trimmed.last
  cases items with
  | nil => exact ⟨by simp, by simp⟩
  | cons item more => exact (several item more areItems).2

theorem trimmed_intercalate {items : List (List Char)} (areItems : ∀ item ∈ items, IsItem item) :
    Trimmed ([',', ' '].intercalate items) :=
  trimmed_of_sealed fun item member => (areItems item member).isSealed

end ValueNumbering.Text
