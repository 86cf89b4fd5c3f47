import ValueNumbering.IR.Listing
import ValueNumbering.Proofs.Assembly.Definitions
import ValueNumbering.Proofs.Assembly.Content
import ValueNumbering.Proofs.Text.Words

/-! The parameters of a listing. Each one is a type and a name, and the list is read as the
arguments that it was made from. -/

namespace ValueNumbering.Assembly

open Text

def argumentText (arg : Argument) : List Char := arg.type.toList ++ ' ' :: '%' :: arg.name.toList

/-- The type of an argument is a word that no comma list is cut in and no comment begins in, and a
name of digits is a number. -/
structure Listable (arg : Argument) : Prop where
  type : IsWordText arg.type.toList
  uncut : Uncut arg.type.toList
  quiet : Quiet arg.type.toList
  name : IsName arg.name.toList
  slot : ∀ slot, ∃ next, slotAfter slot arg.name.toList = .ok next

theorem toList_listing (arg : Argument) : arg.listing.toList = argumentText arg := by
  simp [Argument.listing, argumentText, toString]

theorem toList_parameterText (fn : Function) :
    fn.parameterText.toList = [',', ' '].intercalate (fn.arguments.map argumentText) := by
  have each : fn.arguments.map (fun arg => arg.listing.toList) = fn.arguments.map argumentText :=
    List.map_congr_left fun arg _ => toList_listing arg
  rw [Function.parameterText, String.toList_intercalate, List.map_map, ← each]
  rfl

theorem uncut_of_isNameChar {c : Char} (inName : isNameChar c = true) :
    c ≠ ',' ∧ isOpening c = false ∧ isClosing c = false := by
  have apart : isNameChar ',' = false := by decide
  refine ⟨ne_of_isNameChar inName apart, ?_, ?_⟩
  · apply Bool.eq_false_iff.mpr
    intro opening
    simp only [isOpening, Bool.or_eq_true, beq_iff_eq] at opening
    rcases opening with ((rfl | rfl) | rfl) | rfl <;> exact absurd inName (by decide)
  · apply Bool.eq_false_iff.mpr
    intro closing
    simp only [isClosing, Bool.or_eq_true, beq_iff_eq] at closing
    rcases closing with ((rfl | rfl) | rfl) | rfl <;> exact absurd inName (by decide)

theorem IsName.uncut {text : List Char} (name : IsName text) : Uncut text :=
  fun c member => uncut_of_isNameChar (name.within c member)

namespace Listable

variable {arg : Argument}

theorem marked (listable : Listable arg) : IsWordText ('%' :: arg.name.toList) := by
  refine ⟨by simp, ?_⟩
  intro c member
  rcases List.mem_cons.mp member with rfl | inName
  · decide
  · exact listable.name.solid c inName

theorem isItem (listable : Listable arg) : IsItem (argumentText arg) where
  nonempty := by simp [argumentText]
  trimmed := by
    have first := listable.type.trimmed
    refine ⟨?_, ?_⟩
    · rw [argumentText, List.head?_append_of_ne_nil _ listable.type.nonempty]
      exact first.first
    · have last : argumentText arg = (arg.type.toList ++ [' ']) ++ '%' :: arg.name.toList := by
        simp [argumentText]
      rw [last, List.getLast?_append_of_ne_nil _ (by simp)]
      exact listable.marked.trimmed.last
  uncut := by
    have between : Uncut [' ', '%'] := by
      intro c member
      rcases List.mem_pair.mp member with rfl | rfl <;> decide
    have whole : argumentText arg = arg.type.toList ++ ([' ', '%'] ++ arg.name.toList) := by
      simp [argumentText]
    rw [whole]
    exact listable.uncut.append (between.append listable.name.uncut)

theorem plain (listable : Listable arg) : Plain (argumentText arg) := by
  have type : Plain arg.type.toList := .of_solid listable.type.solid listable.quiet
  have between : Plain [' ', '%'] := by decide
  simpa [argumentText] using type.append (between.append listable.name.plain)

theorem read (listable : Listable arg) :
    Parameter.read (argumentText arg) = .ok (.named arg.type.toList arg.name.toList) := by
  have cut : words (argumentText arg) = [arg.type.toList, '%' :: arg.name.toList] := by
    rw [argumentText, listable.type.words_append, listable.marked.words_eq]
  have notDots : argumentText arg ≠ "...".toList := by
    intro same
    have inside : '%' ∈ argumentText arg := by simp [argumentText]
    rw [same] at inside
    simp at inside
  rw [Parameter.read, if_neg notDots]
  simp [cut]

end Listable

theorem plain_parameterText {fn : Function} (listable : ∀ arg ∈ fn.arguments, Listable arg) :
    Plain fn.parameterText.toList := by
  rw [toList_parameterText]
  have between : Plain [',', ' '] := by decide
  refine between.intercalate fun item member => ?_
  obtain ⟨arg, isArgument, rfl⟩ := List.mem_map.mp member
  exact (listable arg isArgument).plain

theorem trimmed_parameterText {fn : Function} (listable : ∀ arg ∈ fn.arguments, Listable arg) :
    Trimmed fn.parameterText.toList := by
  rw [toList_parameterText]
  refine trimmed_intercalate fun item member => ?_
  obtain ⟨arg, isArgument, rfl⟩ := List.mem_map.mp member
  exact (listable arg isArgument).isItem

def argumentsShown (args : List Argument) : List (String × String) :=
  args.map fun arg => (arg.type, arg.name)

theorem parameterText_congr {fn fn' : Function}
    (same : argumentsShown fn.arguments = argumentsShown fn'.arguments) :
    fn.parameterText = fn'.parameterText := by
  have each : ∀ args : List Argument, args.map (·.listing) = (argumentsShown args).map fun arg =>
      s!"{arg.1} %{arg.2}" := by
    intro args
    simp [argumentsShown, Argument.listing]
  rw [Function.parameterText, Function.parameterText, each, each, same]

theorem addPieces_named {names : Names} {defined : List String} {pieces : List (List Char)}
    {args : List Argument} (accounted : Accounted names defined) (settled : names.pending = ∅)
    (reads : List.Forall₂ (fun piece arg =>
      Parameter.read piece = .ok (.named arg.type.toList arg.name.toList)) pieces args)
    (readable : ∀ arg ∈ args, ∀ slot, ∃ next, slotAfter slot arg.name.toList = .ok next)
    (distinct : (defined ++ args.map (·.name)).Nodup) (line : Nat) (signature : Signature) :
    ∃ signature' after, addPieces line signature names pieces = .ok (signature', after) ∧
      argumentsShown signature'.arguments =
        argumentsShown signature.arguments ++ argumentsShown args ∧
      Accounted after (defined ++ args.map (·.name)) ∧ after.globals = names.globals ∧
        after.pending = ∅ := by
  induction reads generalizing names defined signature with
  | nil =>
    exact ⟨signature, names, rfl, by simp [argumentsShown], by simpa using accounted, rfl, settled⟩
  | @cons piece arg pieces rest here _ ih =>
      obtain ⟨slot, isSlot⟩ := readable arg (List.mem_cons_self ..) signature.slot
      have new : arg.name ∉ defined := by
        rw [List.map_cons, List.nodup_append] at distinct
        exact fun member => distinct.2.2 _ member _ (List.mem_cons_self ..) rfl
      obtain ⟨added, after, made, isName, isType, accounted', globals, settled'⟩ :=
        accounted.addArgument settled new line { signature with slot := slot } arg.type
      have one : addParameter line signature names (.named arg.type.toList arg.name.toList) =
          .ok ({ arguments := signature.arguments ++ [added], slot := slot }, after) := by
        rw [addParameter, isSlot, String.ofList_toList, String.ofList_toList]
        exact made
      obtain ⟨last, final, more, shown, kept, globals', pending⟩ := ih accounted' settled'
        (fun other member => readable other (List.mem_cons_of_mem _ member))
          (by simpa using distinct)
        { arguments := signature.arguments ++ [added], slot := slot }
      refine ⟨last, final, ?_, ?_, ?_, globals'.trans globals, pending⟩
      · rw [addPieces]
        exact bind_eq_ok.mpr ⟨_, here, bind_eq_ok.mpr ⟨_, one, more⟩⟩
      · simpa [argumentsShown, isName, isType] using shown
      · simpa using kept

/-- A listed parameter list is read as arguments of the same types and names. -/
theorem readParameters_parameterText (names : Names) {fn : Function}
    (listable : ∀ arg ∈ fn.arguments, Listable arg) (distinct : (fn.arguments.map (·.name)).Nodup)
    (line : Nat) :
    ∃ signature after, readParameters line names.newFunction fn.parameterText.toList =
      .ok (signature, after) ∧
      argumentsShown signature.arguments = argumentsShown fn.arguments ∧
      Accounted after (fn.arguments.map (·.name)) ∧ after.globals = names.globals ∧
        after.pending = ∅ := by
  have items : ∀ item ∈ fn.arguments.map argumentText, IsItem item := by
    intro item member
    obtain ⟨arg, isArgument, rfl⟩ := List.mem_map.mp member
    exact (listable arg isArgument).isItem
  have reads : List.Forall₂ (fun piece arg =>
      Parameter.read piece = .ok (.named arg.type.toList arg.name.toList))
      (fn.arguments.map argumentText) fn.arguments :=
    List.forall₂_map_left_iff.mpr
      (List.forall₂_same.mpr fun arg member => (listable arg member).read)
  obtain ⟨signature, after, added, shown, accounted, globals, pending⟩ :=
    addPieces_named (Accounted.newFunction names) rfl reads
    (fun arg member => (listable arg member).slot) (by simpa using distinct) line {}
  refine ⟨signature, after, ?_, by simpa [argumentsShown] using shown, by simpa using accounted,
    globals, pending⟩
  rw [readParameters, toList_parameterText, pieces_intercalate items]
  exact added

end ValueNumbering.Assembly
