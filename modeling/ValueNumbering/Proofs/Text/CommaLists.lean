import Mathlib.Data.List.Forall2
import ValueNumbering.Proofs.Lists
import ValueNumbering.Proofs.Text.Words

/-!
What a comma list is cut into. A comma separates where as many brackets are closed as opened before
it. The items of any text are what stands between these commas, without the blanks around it, and
items that are joined with commas are found again.
-/

namespace ValueNumbering.Text

def Level (text : List Char) : Prop := text.countP isOpening = text.countP isClosing

/-- No comma stands where as many brackets are closed as opened. -/
def CommasWithin (text : List Char) : Prop :=
  ∀ front rest, text = front ++ ',' :: rest → ¬ Level front

structure IsListItem (item : List Char) : Prop where
  trimmed : Trimmed item
  level : Level item
  within : CommasWithin item

def Padded (text padded : List Char) : Prop :=
  ∃ before after, padded = before ++ (text ++ after) ∧ Blanks before ∧ Blanks after

/-- What stands before a comma between two pieces, where the pieces are joined. -/
def Joint (raw : List (List Char)) (front : List Char) : Prop :=
  ∃ before after, raw = before ++ after ∧ before ≠ [] ∧ after ≠ [] ∧
    front = [','].intercalate before

/-- The pieces of a text. Of its commas, just those between two pieces have as many brackets closed
as opened before them. -/
structure IsCut (text : List Char) (raw : List (List Char)) : Prop where
  nonempty : raw ≠ []
  joined : [','].intercalate raw = text
  separators : ∀ front rest, text = front ++ ',' :: rest → (Level front ↔ Joint raw front)

def withoutBlankLast (raw : List (List Char)) : List (List Char) :=
  match raw.getLast? with
  | some last => if Blanks last then raw.dropLast else raw
  | none => raw

section Depth

/-- How many more brackets are opened than closed. -/
def depth (text : List Char) : Int := text.countP isOpening - text.countP isClosing

theorem level_iff {text : List Char} : Level text ↔ depth text = 0 := by
  unfold Level depth
  omega

theorem not_closing_of_opening {c : Char} (opening : isOpening c = true) : isClosing c = false := by
  simp only [isOpening, Bool.or_eq_true, beq_iff_eq] at opening
  rcases opening with ((rfl | rfl) | rfl) | rfl <;> decide

theorem depth_append (front rest : List Char) :
    depth (front ++ rest) = depth front + depth rest := by
  simp only [depth, List.countP_append]
  omega

theorem add_depth_cons (before : Int) (c : Char) (rest : List Char) :
    before + depth (c :: rest) = depthAfter before c + depth rest := by
  simp only [depth, depthAfter, List.countP_cons]
  by_cases opening : isOpening c = true
  · simp only [opening, not_closing_of_opening opening, if_true, Bool.false_eq_true, if_false]
    omega
  · by_cases closing : isClosing c = true
    · simp only [opening, closing, if_true, Bool.false_eq_true, if_false]
      omega
    · simp only [opening, closing, Bool.false_eq_true, if_false]
      omega

theorem depth_comma_cons (rest : List Char) : depth (',' :: rest) = depth rest := by
  have counted := add_depth_cons 0 ',' rest
  rwa [Int.zero_add, show depthAfter 0 ',' = 0 from rfl, Int.zero_add] at counted

theorem depth_blanks {blanks : List Char} (blank : Blanks blanks) : depth blanks = 0 := by
  have opening : blanks.countP isOpening = 0 := by
    apply List.countP_eq_zero.mpr
    intro c member
    simp [(uncut_of_isBlank (blank c member)).2.1]
  have closing : blanks.countP isClosing = 0 := by
    apply List.countP_eq_zero.mpr
    intro c member
    simp [(uncut_of_isBlank (blank c member)).2.2]
  simp [depth, opening, closing]

end Depth

theorem passes_iff {before after : Int} {text : List Char} : Passes before text after ↔
    after = before + depth text ∧ ∀ front rest, text = front ++ ',' :: rest →
      before + depth front ≠ 0 := by
  induction text generalizing before with
  | nil => simp [Passes, depth, eq_comm]
  | cons c more ih =>
      rw [Passes, ih, add_depth_cons]
      constructor
      · rintro ⟨first, counted, later⟩
        refine ⟨counted, fun front rest split => ?_⟩
        cases front with
        | nil => simpa [depth] using first (List.cons.inj split).1
        | cons d others =>
            obtain ⟨rfl, behind⟩ := List.cons.inj split
            rw [add_depth_cons]
            exact later others rest behind
      · rintro ⟨counted, all⟩
        refine ⟨?_, counted, fun front rest split => ?_⟩
        · rintro rfl
          simpa [depth] using all [] more rfl
        · rw [← add_depth_cons]
          exact all (c :: front) rest (by rw [split, List.cons_append])

theorem sealed_iff {text : List Char} : Sealed text ↔ Level text ∧ CommasWithin text := by
  rw [Sealed, passes_iff, level_iff, Int.zero_add, eq_comm]
  simp only [CommasWithin, level_iff, Int.zero_add]

instance (item : List Char) : Decidable (IsListItem item) :=
  decidable_of_iff (trim item = item ∧ Sealed item) (by
    rw [sealed_iff]
    exact ⟨fun ⟨same, level, within⟩ => ⟨same ▸ trimmed_trim item, level, within⟩,
      fun listed => ⟨listed.trimmed.trim_eq, listed.level, listed.within⟩⟩)

section Padded

variable {text padded : List Char}

theorem padded_trim (text : List Char) : Padded (trim text) text := by
  obtain ⟨after, split, blank⟩ := trimRight_split (trimLeft text)
  refine ⟨text.takeWhile isBlank, after, ?_, fun c member => List.mem_takeWhile_imp member, blank⟩
  rw [trim, ← split, trimLeft, List.takeWhile_append_dropWhile]

theorem blanks_iff : Blanks text ↔ trim text = [] := by
  constructor
  · intro blank
    exact trim_append_blanks blank []
  · intro nothing
    obtain ⟨before, after, whole, blank, blank'⟩ := padded_trim text
    rw [nothing, List.nil_append] at whole
    intro c member
    rw [whole] at member
    exact (List.mem_append.mp member).elim (blank c) (blank' c)

namespace Padded

theorem trim_eq (around : Padded text padded) (trimmed : Trimmed text) : trim padded = text := by
  obtain ⟨before, after, rfl, blank, blank'⟩ := around
  exact trimmed.trim_surrounded blank blank'

theorem isSealed (around : Padded text padded) (closed : Sealed text) : Sealed padded := by
  obtain ⟨before, after, rfl, blank, blank'⟩ := around
  have left : Uncut before := fun c member => uncut_of_isBlank (blank c member)
  have right : Uncut after := fun c member => uncut_of_isBlank (blank' c member)
  exact Sealed.append (left.passes 0) (closed.append (right.passes 0))

theorem commasWithin (around : Padded text padded) (within : CommasWithin padded) :
    CommasWithin text := by
  obtain ⟨before, after, rfl, blank, -⟩ := around
  rintro front rest rfl level
  apply within (before ++ front) (rest ++ after) (by simp)
  rw [level_iff] at level ⊢
  rw [depth_append, depth_blanks blank, level, Int.zero_add]

end Padded

end Padded

section Joint

variable {c : Char} {piece front : List Char} {more : List (List Char)}

theorem intercalate_extend (c : Char) (piece : List Char) (more : List (List Char)) :
    [','].intercalate ((c :: piece) :: more) = c :: [','].intercalate (piece :: more) := by
  cases more <;> simp

theorem intercalate_nil_cons (nonempty : more ≠ []) :
    [','].intercalate ([] :: more) = ',' :: [','].intercalate more := by
  obtain ⟨next, others, rfl⟩ := List.exists_cons_of_ne_nil nonempty
  rw [List.intercalate_cons_cons]
  rfl

theorem joint_empty_nil : Joint ([] :: more) [] ↔ more ≠ [] := by
  constructor
  · rintro ⟨before, after, whole, first, last, nothing⟩ rfl
    obtain ⟨piece, others, rfl⟩ := List.exists_cons_of_ne_nil first
    have none := (List.cons.inj whole).2
    exact last (List.append_eq_nil_iff.mp none.symm).2
  · intro nonempty
    exact ⟨[[]], more, rfl, List.cons_ne_nil _ _, nonempty, by simp⟩

theorem joint_empty_cons : Joint ([] :: more) (',' :: front) ↔ Joint more front := by
  constructor
  · rintro ⟨before, after, whole, first, last, isFront⟩
    obtain ⟨piece, others, rfl⟩ := List.exists_cons_of_ne_nil first
    obtain ⟨rfl, rest⟩ := List.cons.inj whole
    have nonempty : others ≠ [] := by
      rintro rfl
      simp at isFront
    rw [intercalate_nil_cons nonempty] at isFront
    exact ⟨others, after, rest, nonempty, last, (List.cons.inj isFront).2⟩
  · rintro ⟨before, after, rfl, first, last, rfl⟩
    exact ⟨[] :: before, after, rfl, List.cons_ne_nil _ _, last, (intercalate_nil_cons first).symm⟩

theorem not_joint_nil : ¬ Joint ((c :: piece) :: more) [] := by
  rintro ⟨before, after, whole, first, -, nothing⟩
  obtain ⟨other, others, rfl⟩ := List.exists_cons_of_ne_nil first
  obtain ⟨rfl, -⟩ := List.cons.inj whole
  rw [intercalate_extend] at nothing
  cases nothing

theorem joint_cons : Joint ((c :: piece) :: more) (c :: front) ↔ Joint (piece :: more) front := by
  constructor
  · rintro ⟨before, after, whole, first, last, isFront⟩
    obtain ⟨other, others, rfl⟩ := List.exists_cons_of_ne_nil first
    obtain ⟨rfl, rest⟩ := List.cons.inj whole
    rw [intercalate_extend] at isFront
    exact ⟨piece :: others, after, congrArg (piece :: ·) rest, List.cons_ne_nil _ _, last,
      (List.cons.inj isFront).2⟩
  · rintro ⟨before, after, whole, first, last, rfl⟩
    obtain ⟨other, others, rfl⟩ := List.exists_cons_of_ne_nil first
    obtain ⟨rfl, rest⟩ := List.cons.inj whole
    exact ⟨(c :: piece) :: others, after, congrArg ((c :: piece) :: ·) rest,
      List.cons_ne_nil _ _, last, (intercalate_extend c piece others).symm⟩

end Joint

section Cut

variable {text : List Char} {raw : List (List Char)}

theorem intercalate_cutAtCommas (before : Int) (text : List Char) :
    [','].intercalate (cutAtCommas before text) = text := by
  induction text generalizing before with
  | nil => rfl
  | cons c rest ih =>
      rw [cutAtCommas]
      split
      · next both => rw [intercalate_nil_cons (cutAtCommas_ne_nil _ _), ih, both.1]
      · obtain ⟨piece, more, cut⟩ :=
          List.exists_cons_of_ne_nil (cutAtCommas_ne_nil (depthAfter before c) rest)
        rw [cut, intercalate_extend, ← cut, ih]

theorem joint_cutAtCommas (before : Int) {front rest : List Char}
    (split : text = front ++ ',' :: rest) :
    before + depth front = 0 ↔ Joint (cutAtCommas before text) front := by
  induction text generalizing before front with
  | nil => simp at split
  | cons c others ih =>
      rw [cutAtCommas]
      split
      · next both =>
          obtain ⟨rfl, rfl⟩ := both
          cases front with
          | nil => simpa [depth] using joint_empty_nil.mpr (cutAtCommas_ne_nil 0 others)
          | cons d front =>
              obtain ⟨rfl, behind⟩ := List.cons.inj split
              rw [depth_comma_cons, joint_empty_cons]
              exact ih 0 behind
      · next notCut =>
          obtain ⟨piece, more, cut⟩ :=
            List.exists_cons_of_ne_nil (cutAtCommas_ne_nil (depthAfter before c) others)
          rw [cut]
          cases front with
          | nil =>
              have isComma : c = ',' := (List.cons.inj split).1
              have notZero : before ≠ 0 := fun zero => notCut ⟨isComma, zero⟩
              simpa [depth, not_joint_nil] using notZero
          | cons d front =>
              obtain ⟨rfl, behind⟩ := List.cons.inj split
              rw [add_depth_cons, joint_cons, ← cut]
              exact ih (depthAfter before c) behind

theorem isCut_cutAtCommas (text : List Char) : IsCut text (cutAtCommas 0 text) where
  nonempty := cutAtCommas_ne_nil 0 text
  joined := intercalate_cutAtCommas 0 text
  separators := by
    intro front rest split
    rw [level_iff, ← joint_cutAtCommas 0 split, Int.zero_add]

/-- A text and where it is cut say what its pieces are. -/
theorem eq_cutAtCommas {before : Int} (nonempty : raw ≠ []) (joined : [','].intercalate raw = text)
    (separators : ∀ front rest, text = front ++ ',' :: rest →
      (before + depth front = 0 ↔ Joint raw front)) :
    raw = cutAtCommas before text := by
  -- A cut starts the count afresh, so the induction is over every depth to start from.
  induction text generalizing before raw with
  | nil =>
      obtain ⟨piece, more, rfl⟩ := List.exists_cons_of_ne_nil nonempty
      cases more with
      | nil => rw [show piece = [] by simpa using joined, cutAtCommas]
      | cons next others => simp [List.intercalate_cons_cons] at joined
  | cons c rest ih =>
      obtain ⟨piece, more, rfl⟩ := List.exists_cons_of_ne_nil nonempty
      cases piece with
      | nil =>
          have several : more ≠ [] := by
            rintro rfl
            simp at joined
          rw [intercalate_nil_cons several] at joined
          obtain ⟨rfl, behind⟩ := List.cons.inj joined
          obtain rfl : before = 0 := by
            simpa [depth] using (separators [] rest rfl).mpr (joint_empty_nil.mpr several)
          rw [cutAtCommas, if_pos ⟨rfl, rfl⟩]
          apply congrArg ([] :: ·)
          apply ih several behind
          intro front last split
          have here := separators (',' :: front) last (by rw [split, List.cons_append])
          rwa [depth_comma_cons, joint_empty_cons] at here
      | cons d piece =>
          rw [intercalate_extend] at joined
          obtain ⟨rfl, behind⟩ := List.cons.inj joined
          have notCut : ¬(d = ',' ∧ before = 0) := by
            rintro ⟨rfl, rfl⟩
            exact not_joint_nil ((separators [] rest rfl).mp (by simp [depth]))
          have cut : piece :: more = cutAtCommas (depthAfter before d) rest := by
            apply ih (List.cons_ne_nil _ _) behind
            intro front last split
            have here := separators (d :: front) last (by rw [split, List.cons_append])
            rwa [add_depth_cons, joint_cons] at here
          rw [cutAtCommas, if_neg notCut, ← cut]

theorem IsCut.eq (cut : IsCut text raw) : raw = cutAtCommas 0 text := by
  apply eq_cutAtCommas cut.nonempty cut.joined
  intro front rest split
  rw [Int.zero_add, ← level_iff]
  exact cut.separators front rest split

theorem commasWithin_of_cut {before : Int} {piece : List Char} {more : List (List Char)}
    (cut : cutAtCommas before text = piece :: more) :
    (∀ front rest, piece = front ++ ',' :: rest → before + depth front ≠ 0) ∧
      ∀ other ∈ more, CommasWithin other := by
  induction text generalizing before piece more with
  | nil =>
      obtain ⟨rfl, rfl⟩ := List.cons.inj cut
      simp
  | cons c others ih =>
      rw [cutAtCommas] at cut
      split at cut
      · next both =>
          obtain ⟨rfl, rfl⟩ := List.cons.inj cut
          obtain ⟨next, later, isNext⟩ :=
            List.exists_cons_of_ne_nil (cutAtCommas_ne_nil before others)
          obtain ⟨first, rest⟩ := ih isNext
          refine ⟨by simp, ?_⟩
          rw [isNext]
          apply List.forall_mem_cons.mpr ⟨?_, rest⟩
          intro front last split
          simpa [both.2, level_iff] using first front last split
      · next notCut =>
          obtain ⟨next, later, isNext⟩ :=
            List.exists_cons_of_ne_nil (cutAtCommas_ne_nil (depthAfter before c) others)
          obtain ⟨first, rest⟩ := ih isNext
          rw [isNext] at cut
          obtain ⟨rfl, rfl⟩ := List.cons.inj cut
          refine ⟨fun front last split => ?_, rest⟩
          cases front with
          | nil =>
              have isComma : c = ',' := (List.cons.inj split).1
              have notZero : before ≠ 0 := fun zero => notCut ⟨isComma, zero⟩
              simpa [depth] using notZero
          | cons d front =>
              obtain ⟨rfl, behind⟩ := List.cons.inj split
              rw [add_depth_cons]
              exact first front last behind

theorem commasWithin_of_mem_cut {piece : List Char} (member : piece ∈ cutAtCommas 0 text) :
    CommasWithin piece := by
  obtain ⟨first, more, cut⟩ := List.exists_cons_of_ne_nil (cutAtCommas_ne_nil 0 text)
  obtain ⟨here, later⟩ := commasWithin_of_cut cut
  rw [cut] at member
  rcases List.mem_cons.mp member with rfl | other
  · intro front rest split
    simpa [level_iff] using here front rest split
  · exact later piece other

end Cut

section Last

theorem mem_of_mem_withoutBlankLast {raw : List (List Char)} {piece : List Char}
    (member : piece ∈ withoutBlankLast raw) :
    piece ∈ raw := by
  unfold withoutBlankLast at member
  split at member
  · split at member
    · exact List.dropLast_subset _ member
    · exact member
  · exact member

theorem dropEmptyLast_concat (items : List (List Char)) (last : List Char) :
    dropEmptyLast (items ++ [last]) = if last = [] then items else items ++ [last] := by
  induction items with
  | nil => cases last <;> rfl
  | cons item more ih =>
      obtain ⟨next, others, isNext⟩ :=
        List.exists_cons_of_ne_nil (List.append_ne_nil_of_right_ne_nil more
          (List.cons_ne_nil last []))
      rw [List.cons_append, isNext, dropEmptyLast, ← isNext, ih]
      split <;> rfl

theorem pieces_eq_map (text : List Char) :
    pieces text = (withoutBlankLast (cutAtCommas 0 text)).map trim := by
  obtain ⟨front, last, cut⟩ := (List.eq_nil_or_concat' (cutAtCommas 0 text)).resolve_left
    (cutAtCommas_ne_nil 0 text)
  rw [pieces, cut, List.map_append, List.map_singleton, dropEmptyLast_concat, withoutBlankLast,
    List.getLast?_concat]
  simp only [blanks_iff, List.dropLast_concat]
  split <;> simp

end Last

section Joined

variable {items padded : List (List Char)}

theorem map_trim_padded (around : List.Forall₂ Padded items padded)
    (areItems : ∀ item ∈ items, IsListItem item) :
    padded.map trim = items := by
  induction around with
  | nil => rfl
  | cons here _ ih =>
      obtain ⟨first, later⟩ := List.forall_mem_cons.mp areItems
      rw [List.map_cons, here.trim_eq first.trimmed, ih later]

theorem isSealed_of_padded (around : List.Forall₂ Padded items padded)
    (areItems : ∀ item ∈ items, IsListItem item) :
    ∀ piece ∈ padded, Sealed piece := by
  intro piece member
  obtain ⟨item, isItem, here⟩ := exists_of_mem_right around member
  have listed := areItems item isItem
  exact here.isSealed (sealed_iff.mpr ⟨listed.level, listed.within⟩)

theorem pieces_intercalate_padded (around : List.Forall₂ Padded items padded)
    (areItems : ∀ item ∈ items, IsListItem item) (filled : ∀ last ∈ items.getLast?, last ≠ []) :
    pieces ([','].intercalate padded) = items := by
  have trimmed := map_trim_padded around areItems
  have closed := isSealed_of_padded around areItems
  by_cases none : padded = []
  · rw [none] at trimmed ⊢
    rw [← trimmed]
    rfl
  · rw [pieces, cutAtCommas_intercalate none closed, trimmed]
    rcases List.eq_nil_or_concat' items with rfl | ⟨front, last, rfl⟩
    · rfl
    · rw [dropEmptyLast_concat, if_neg (filled last (by simp))]

end Joined

/-- Items with blanks around them, joined with commas, are found again where the last one is not
empty. Any text is cut in one way at the commas before which as many brackets are closed as opened;
its items are the pieces, but for a last one of blanks, without the blanks around them, and none of
them can be cut further. -/
theorem pieces_between_level_commas :
    (∀ items padded, List.Forall₂ Padded items padded → (∀ item ∈ items, IsListItem item) →
      (∀ last ∈ items.getLast?, last ≠ []) → pieces ([','].intercalate padded) = items) ∧
    ∀ text, (∀ item ∈ pieces text, CommasWithin item) ∧ (∃! raw, IsCut text raw) ∧
      ∀ raw, IsCut text raw →
        List.Forall₂ (fun item piece => Trimmed item ∧ Padded item piece) (pieces text)
          (withoutBlankLast raw) := by
  constructor
  · intro items padded around areItems filled
    exact pieces_intercalate_padded around areItems filled
  · intro text
    have cut := isCut_cutAtCommas text
    refine ⟨?_, ⟨_, cut, fun raw other => other.eq⟩, ?_⟩
    · intro item member
      rw [pieces_eq_map] at member
      obtain ⟨piece, isPiece, rfl⟩ := List.mem_map.mp member
      exact (padded_trim piece).commasWithin
        (commasWithin_of_mem_cut (mem_of_mem_withoutBlankLast isPiece))
    · intro raw other
      rw [pieces_eq_map, ← other.eq]
      exact List.forall₂_map_left_iff.mpr
        (List.forall₂_same.mpr fun piece _ => ⟨trimmed_trim piece, padded_trim piece⟩)

def nestedItems : List (List Char) :=
  ["[2 x \x7b i32, float \x7d] %a", "", "<2 x i32> <i32 1, i32 2>"].map (·.toList)

def nestedPadded : List (List Char) :=
  ["[2 x \x7b i32, float \x7d] %a\t", "  ", "\u00A0 <2 x i32> <i32 1, i32 2> "].map (·.toList)

def closedTooOften : List Char := "%a , i32), %b, (ptr, ".toList

theorem nestedItems_found :
    List.Forall₂ Padded nestedItems nestedPadded ∧ (∀ item ∈ nestedItems, IsListItem item) ∧
      (∀ last ∈ nestedItems.getLast?, last ≠ []) ∧
        pieces ([','].intercalate nestedPadded) = nestedItems ∧
      IsCut closedTooOften (["%a ", " i32), %b, (ptr", " "].map (·.toList)) ∧
      List.Forall₂ (fun item piece => Trimmed item ∧ Padded item piece) (pieces closedTooOften)
        (["%a ", " i32), %b, (ptr"].map (·.toList)) := by
  have trimmed : nestedPadded.map trim = nestedItems := by decide
  have around : List.Forall₂ Padded nestedItems nestedPadded := by
    rw [← trimmed]
    exact List.forall₂_map_left_iff.mpr (List.forall₂_same.mpr fun piece _ => padded_trim piece)
  have areItems : ∀ item ∈ nestedItems, IsListItem item := by decide
  have filled : ∀ last ∈ nestedItems.getLast?, last ≠ [] := by decide
  have raw : cutAtCommas 0 closedTooOften = ["%a ", " i32), %b, (ptr", " "].map (·.toList) := by
    decide
  have cut := isCut_cutAtCommas closedTooOften
  rw [raw] at cut
  exact ⟨around, areItems, filled, pieces_between_level_commas.1 _ _ around areItems filled, cut,
    (pieces_between_level_commas.2 closedTooOften).2.2 _ cut⟩

end ValueNumbering.Text
