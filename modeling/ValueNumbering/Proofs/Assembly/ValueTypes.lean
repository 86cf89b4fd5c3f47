import ValueNumbering.Proofs.Assembly.PrintedParameters

/-!
The types of values, from scalars to aggregates nested to any depth, and how they are written. A
type stands whole in a comma list, since its commas are within brackets, but it is one word only
where it has no elements or fields.
-/

namespace ValueNumbering.Assembly

open Text

mutual

inductive ValueType
  | integer (width : Nat)
  | float
  | double
  | pointer
  | named (name : List Char) (isName : IsName name)
  | array (size : Nat) (element : ValueType)
  | vector (size : Nat) (element : ValueType)
  | struct (fields : FieldTypes)

inductive FieldTypes
  | last (field : ValueType)
  | more (field : ValueType) (rest : FieldTypes)

end

mutual

def ValueType.spelling : ValueType → List Char
  | .integer width => 'i' :: width.repr.toList
  | .float => "float".toList
  | .double => "double".toList
  | .pointer => "ptr".toList
  | .named name _ => '%' :: name
  | .array size element => '[' :: ((size.repr.toList ++ " x ".toList ++ element.spelling) ++ [']'])
  | .vector size element => '<' :: ((size.repr.toList ++ " x ".toList ++ element.spelling) ++ ['>'])
  | .struct fields => '{' :: ((' ' :: (fields.spelling ++ [' '])) ++ ['}'])

def FieldTypes.spelling : FieldTypes → List Char
  | .last field => field.spelling
  | .more field rest => field.spelling ++ ", ".toList ++ rest.spelling

end

/-- Types without elements and fields. -/
def ValueType.isScalar : ValueType → Bool
  | .array _ _ | .vector _ _ | .struct _ => false
  | _ => true

section Characters

def isTypeChar (c : Char) : Bool :=
  isNameChar c || ['%', '[', ']', '<', '>', '{', '}', ',', ' '].contains c

theorem IsName.all_isTypeChar {text : List Char} (name : IsName text) :
    text.all isTypeChar = true := by
  apply List.all_eq_true.mpr
  intro c member
  simp [isTypeChar, name.within c member]

theorem isName_repr (n : Nat) : IsName n.repr.toList :=
  isName_of_allDigits (Integer.allDigits_repr n) (Integer.repr_ne_nil n)

theorem isName_integer (width : Nat) : IsName ('i' :: width.repr.toList) := by
  refine ⟨by simp, ?_⟩
  intro c member
  rcases List.mem_cons.mp member with rfl | inNumber
  · decide
  · exact (isName_repr width).within c inNumber

mutual

theorem ValueType.all_isTypeChar (type : ValueType) : type.spelling.all isTypeChar = true := by
  cases type with
  | integer width => exact (isName_integer width).all_isTypeChar
  | float | double | pointer => decide
  | named name isName =>
      have percent : isTypeChar '%' = true := by decide
      change ('%' :: name).all isTypeChar = true
      simp only [List.all_cons, percent, isName.all_isTypeChar, Bool.and_true]
  | array size element =>
      have marks : isTypeChar '[' = true ∧ isTypeChar ']' = true ∧
          " x ".toList.all isTypeChar = true := by decide
      change ('[' :: ((size.repr.toList ++ " x ".toList ++ element.spelling) ++ [']'])).all
        isTypeChar = true
      simp only [List.all_cons, List.all_append, List.all_nil, element.all_isTypeChar,
        (isName_repr size).all_isTypeChar, marks, Bool.and_true]
  | vector size element =>
      have marks : isTypeChar '<' = true ∧ isTypeChar '>' = true ∧
          " x ".toList.all isTypeChar = true := by decide
      change ('<' :: ((size.repr.toList ++ " x ".toList ++ element.spelling) ++ ['>'])).all
        isTypeChar = true
      simp only [List.all_cons, List.all_append, List.all_nil, element.all_isTypeChar,
        (isName_repr size).all_isTypeChar, marks, Bool.and_true]
  | struct fields =>
      have marks : isTypeChar '{' = true ∧ isTypeChar '}' = true ∧
          isTypeChar ' ' = true := by decide
      change ('{' :: ((' ' :: (fields.spelling ++ [' '])) ++ ['}'])).all isTypeChar = true
      simp only [List.all_cons, List.all_append, List.all_nil, fields.all_isTypeChar, marks,
        Bool.and_true]

theorem FieldTypes.all_isTypeChar
    (fields : FieldTypes) : fields.spelling.all isTypeChar = true := by
  cases fields with
  | last field => exact field.all_isTypeChar
  | more field rest =>
      have comma : ", ".toList.all isTypeChar = true := by decide
      change (field.spelling ++ ", ".toList ++ rest.spelling).all isTypeChar = true
      simp only [List.all_append, field.all_isTypeChar, rest.all_isTypeChar, comma, Bool.and_true]

end

end Characters

section Brackets

theorem passes_bracketed {depth : Int} {opening closing : Char} (opens : isOpening opening = true)
    (closes : isClosing closing = true) (apart : isOpening closing = false) {text : List Char}
    (within : Passes (depth + 1) text (depth + 1)) :
    Passes depth (opening :: (text ++ [closing])) depth := by
  have notComma : opening ≠ ',' ∧ closing ≠ ',' := by
    constructor <;> rintro rfl
    · exact absurd opens (by decide)
    · exact absurd closes (by decide)
  have deeper : depthAfter depth opening = depth + 1 := by simp [depthAfter, opens]
  have back : depthAfter (depth + 1) closing = depth := by simp [depthAfter, closes, apart]
  refine ⟨fun isComma => absurd isComma notComma.1, ?_⟩
  rw [deeper]
  exact within.append ⟨fun isComma => absurd isComma notComma.2, back⟩

theorem passes_sized {depth : Int} (size : Nat) {element : List Char}
    (passes : Passes depth element depth) :
    Passes depth (size.repr.toList ++ " x ".toList ++ element) depth := by
  have between : Uncut " x ".toList := by decide
  exact (((isName_repr size).uncut.append between).passes depth).append passes

mutual

theorem ValueType.passes (type : ValueType) {depth : Int} (inside : 0 ≤ depth) :
    Passes depth type.spelling depth := by
  cases type with
  | integer width => exact (isName_integer width).uncut.passes depth
  | float | double | pointer => exact (IsName.of_all (by decide) (by decide)).uncut.passes depth
  | named name isName =>
      have percent : Uncut ['%'] := by decide
      exact (percent.append isName.uncut).passes depth
  | array size element =>
      exact passes_bracketed (by decide) (by decide) (by decide)
        (passes_sized size (element.passes (by omega)))
  | vector size element =>
      exact passes_bracketed (by decide) (by decide) (by decide)
        (passes_sized size (element.passes (by omega)))
  | struct fields =>
      have space : Uncut [' '] := by decide
      have within : Passes (depth + 1) ([' '] ++ (fields.spelling ++ [' '])) (depth + 1) :=
        (space.passes _).append ((fields.passes (by omega)).append (space.passes _))
      exact passes_bracketed (by decide) (by decide) (by decide) within

theorem FieldTypes.passes (fields : FieldTypes) {depth : Int} (inside : 0 < depth) :
    Passes depth fields.spelling depth := by
  cases fields with
  | last field => exact field.passes (by omega)
  | more field rest =>
      have comma : Passes depth ", ".toList depth := by
        refine ⟨fun _ => by omega, ?_⟩
        have space : Uncut [' '] := by decide
        exact space.passes depth
      exact ((field.passes (by omega)).append comma).append (rest.passes inside)

end

end Brackets

namespace ValueType

variable (type : ValueType)

theorem closed : Sealed type.spelling := type.passes (by omega)

theorem isWordText_of_isScalar (scalar : type.isScalar = true) : IsWordText type.spelling := by
  cases type with
  | integer width => exact ⟨(isName_integer width).nonempty, (isName_integer width).solid⟩
  | float | double | pointer => exact ⟨by decide, (IsName.of_all (by decide) (by decide)).solid⟩
  | named name isName =>
      have percent : Solid ['%'] := by decide
      exact ⟨List.cons_ne_nil _ _, percent.append isName.solid⟩
  | array size element => cases scalar
  | vector size element => cases scalar
  | struct fields => cases scalar

theorem space_mem_of_not_scalar (compound : type.isScalar = false) : ' ' ∈ type.spelling := by
  have sized : ∀ (size : Nat) (element : List Char),
      ' ' ∈ size.repr.toList ++ " x ".toList ++ element := by
    intro size element
    have cross : ' ' ∈ " x ".toList := by decide
    exact List.mem_append_left _ (List.mem_append_right _ cross)
  cases type with
  | array size element =>
    exact List.mem_cons_of_mem _ (List.mem_append_left _ (sized size element.spelling))
  | vector size element =>
    exact List.mem_cons_of_mem _ (List.mem_append_left _ (sized size element.spelling))
  | struct fields => exact List.mem_cons_of_mem _ (List.mem_append_left _ (List.mem_cons_self ..))
  | _ => cases compound

theorem space_mem_iff : ' ' ∈ type.spelling ↔ type.isScalar = false := by
  constructor
  · intro member
    apply Bool.eq_false_iff.mpr
    intro scalar
    have solid := (type.isWordText_of_isScalar scalar).solid ' ' member
    exact absurd solid (by decide)
  · exact type.space_mem_of_not_scalar

theorem nonempty : type.spelling ≠ [] := by
  cases scalar : type.isScalar with
  | true => exact (type.isWordText_of_isScalar scalar).nonempty
  | false => exact List.ne_nil_of_mem (type.space_mem_of_not_scalar scalar)

theorem trimmed : Trimmed type.spelling := by
  have bracketed : ∀ opening closing text, isBlank opening = false → isBlank closing = false →
      Trimmed (opening :: (text ++ [closing])) := by
    intro opening closing text first last
    constructor
    · intro c isFirst
      cases isFirst
      exact first
    · intro c isLast
      rw [← List.cons_append, List.getLast?_concat] at isLast
      cases isLast
      exact last
  cases type with
  | array size element => exact bracketed '[' ']' _ (by decide) (by decide)
  | vector size element => exact bracketed '<' '>' _ (by decide) (by decide)
  | struct fields => exact bracketed '{' '}' _ (by decide) (by decide)
  | integer | float | double | pointer | named => exact (isWordText_of_isScalar _ rfl).trimmed

theorem not_mem {c : Char} (other : isTypeChar c = false) : c ∉ type.spelling := by
  intro member
  have within := List.all_eq_true.mp type.all_isTypeChar c member
  rw [other] at within
  cases within

theorem plain : Plain type.spelling where
  quiet := by
    intro c member
    constructor <;> rintro rfl
    · exact type.not_mem (by decide) member
    · exact type.not_mem (by decide) member
  unbroken := by
    intro c member
    have within := List.all_eq_true.mp type.all_isTypeChar c member
    rcases Bool.or_eq_true_iff.mp within with inName | mark
    · apply Bool.eq_false_iff.mpr
      intro boundary
      have solid := isBlank_of_isNameChar inName
      rw [isBlank_of_isLineBoundary boundary] at solid
      cases solid
    · have marks : ['%', '[', ']', '<', '>', '{', '}', ',', ' '].all (!isLineBoundary ·) =
          true := by decide
      simpa using List.all_eq_true.mp marks c (List.contains_iff_mem.mp mark)

/-- One of the words of a type is the whole type just where the type is a scalar. -/
theorem word_eq_iff {word : List Char} (member : word ∈ words type.spelling) :
    word = type.spelling ↔ type.isScalar = true := by
  constructor
  · rintro rfl
    have isWord := isWordText_of_mem_words member
    apply Bool.not_eq_false _ |>.mp
    intro compound
    exact absurd (isWord.solid ' ' (type.space_mem_of_not_scalar compound)) (by decide)
  · intro scalar
    rw [(type.isWordText_of_isScalar scalar).words_eq] at member
    exact List.mem_singleton.mp member

theorem words_ne_nil : words type.spelling ≠ [] := by
  obtain ⟨c, rest, whole⟩ := List.exists_cons_of_ne_nil type.nonempty
  have solid : isBlank c = false := type.trimmed.first c (by rw [whole]; rfl)
  rw [whole]
  exact words_ne_nil_of_not_blank solid rest

end ValueType

end ValueNumbering.Assembly
