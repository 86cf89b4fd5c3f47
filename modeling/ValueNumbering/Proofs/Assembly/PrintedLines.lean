import ValueNumbering.Proofs.Assembly.Content
import ValueNumbering.Proofs.Text.Words

/-!
The lines outside and around the instructions of a listing, and what they are read as: module-level
definitions and declarations, globals, labels and the closing brace.
-/

namespace ValueNumbering.Assembly

open Text

theorem isPrefixOf?_append (front rest : List Char) :
    front.isPrefixOf? (front ++ rest) = some rest := by
  induction front with
  | nil => rfl
  | cons c more ih => simp [List.isPrefixOf?, ih]

theorem after?_cons (c : Char) (rest : List Char) : after? c (c :: rest) = some rest := by
  simp [after?]

theorem cutAtLast?_append {c : Char} {after : List Char} (last : c ∉ after) (before : List Char) :
    cutAtLast? c (before ++ c :: after) = some (before, after) := by
  have passes : ∀ d ∈ after.reverse, (d != c) = true := by
    intro d member
    have isIn := List.mem_reverse.mp member
    exact bne_iff_ne.mpr fun same => last (same ▸ isIn)
  have cut : (before ++ c :: after).reverse.span (· != c) =
      (after.reverse, c :: before.reverse) := by
    rw [List.reverse_append, List.reverse_cons, List.append_assoc, List.singleton_append]
    exact span_append passes (by simp)
  unfold cutAtLast?
  rw [cut]
  simp

theorem cutAtLast?_of_absent {c : Char} {text : List Char} (absent : c ∉ text) :
    cutAtLast? c text = none := by
  have passes : ∀ d ∈ text.reverse, (d != c) = true := by
    intro d member
    apply bne_iff_ne.mpr
    rintro rfl
    exact absent (List.mem_reverse.mp member)
  have cut : text.reverse.span (· != c) = (text.reverse, []) := by
    simpa using @span_append _ _ text.reverse [] passes (by simp)
  rw [cutAtLast?, cut]

/-- A function as it is listed: the keyword, one word for the type of its result, the name and the
parameters. -/
def signatureLine (keyword : String) (returnType name rest : List Char) : List Char :=
  keyword.toList ++ ' ' :: (returnType ++ ' ' :: '@' :: (name ++ '(' :: rest))

structure IsHead (head name : List Char) : Prop where
  noAt : '@' ∉ head
  isName : IsName name

theorem not_isSkipped (c : Char) (rest : List Char) (letter : c = 'd' ∨ c = '@') :
    isSkipped (c :: rest) = false := by
  rcases letter with rfl | rfl <;> rfl

theorem returnType_surrounded (head : List Char) :
    returnType (trimLeft (head ++ [' '])) = returnType head := by
  rw [returnType, words_trimLeft, words_append_blank (by decide)]
  simp [returnType, words]

section Head

variable {head name : List Char}

theorem signature?_signatureLine (isHead : IsHead head name) (keyword : String) (rest : List Char) :
    signature? keyword (signatureLine keyword head name rest) =
      some (trimLeft (head ++ [' ']), name, rest) := by
  have blank : isBlank ' ' = true := by decide
  have solid : isBlank '@' = false := by decide
  have left : trimLeft (' ' :: (head ++ ' ' :: '@' :: (name ++ '(' :: rest))) =
      trimLeft (head ++ [' ']) ++ '@' :: (name ++ '(' :: rest) := by
    have whole : head ++ ' ' :: '@' :: (name ++ '(' :: rest) =
        (head ++ [' ']) ++ '@' :: (name ++ '(' :: rest) := by simp
    rw [trimLeft_of_blank blank, whole, trimLeft_append_solid solid]
  have passes : ∀ c ∈ trimLeft (head ++ [' ']), (c != '@') = true := by
    intro c member
    apply bne_iff_ne.mpr
    rintro rfl
    have inside := (List.dropWhile_suffix isBlank).subset member
    simp [isHead.noAt] at inside
  have cut : (trimLeft (head ++ [' ']) ++ '@' :: (name ++ '(' :: rest)).span (· != '@') =
      (trimLeft (head ++ [' ']), '@' :: (name ++ '(' :: rest)) := span_append passes (by simp)
  have isCut : name? (name ++ '(' :: rest) = some (name, '(' :: rest) :=
    isHead.isName.name?_append (by simp; decide)
  simp only [signature?, signatureLine, isPrefixOf?_append, Option.bind_eq_bind, Option.bind_some,
    List.head?_cons, blank, if_true, left, cut, after?_cons, isCut]
  rfl

/-- The parameters of a definition end at the last closing parenthesis. -/
theorem read_definitionLine (isHead : IsHead head name) (params : List Char) {tail : List Char}
    (last : ')' ∉ tail) (noBrace : '{' ∉ tail) :
    TopLine.read (signatureLine "define" head name (params ++ ')' :: (tail ++ ['{']))) =
      .ok (.definition (returnType head) name params) := by
  have whole : params ++ ')' :: (tail ++ ['{']) = (params ++ ')' :: tail) ++ ['{'] := by simp
  have ends : (params ++ ')' :: (tail ++ ['{'])).getLast? = some '{' := by
    rw [whole, List.getLast?_concat]
  have front : (params ++ ')' :: (tail ++ ['{'])).dropLast = params ++ ')' :: tail := by
    rw [whole, List.dropLast_concat]
  have found : definition? (signatureLine "define" head name (params ++ ')' :: (tail ++ ['{']))) =
      some (.definition (returnType head) name params) := by
    simp only [definition?, signature?_signatureLine isHead, Option.bind_eq_bind, Option.bind_some,
      ends, if_true, front, cutAtLast?_append last, returnType_surrounded]
    simp [noBrace]
  have notSkipped :
      isSkipped (signatureLine "define" head name (params ++ ')' :: (tail ++ ['{']))) = false :=
    not_isSkipped 'd' _ (Or.inl rfl)
  simp only [TopLine.read, notSkipped, Bool.false_eq_true, if_false, found]

theorem read_declarationLine (isHead : IsHead head name) (params : List Char) {tail : List Char}
    (last : ')' ∉ tail) :
    TopLine.read (signatureLine "declare" head name (params ++ ')' :: tail)) =
      .ok (.declaration (returnType head) name (trim params)) := by
  have found : declaration? (signatureLine "declare" head name (params ++ ')' :: tail)) =
      some (.declaration (returnType head) name (trim params)) := by
    simp only [declaration?, signature?_signatureLine isHead, Option.bind_eq_bind, Option.bind_some,
      cutAtLast?_append last, returnType_surrounded]
    rfl
  have notSkipped : isSkipped (signatureLine "declare" head name (params ++ ')' :: tail)) = false :=
    not_isSkipped 'd' _ (Or.inl rfl)
  have notDefinition : definition? (signatureLine "declare" head name (params ++ ')' :: tail)) =
      none := by
    simp [definition?, signature?, signatureLine, List.isPrefixOf?]
  have notDefine : startsWith "define" (signatureLine "declare" head name (params ++ ')' :: tail)) =
      false := by
    simp [startsWith, signatureLine, List.isPrefixOf]
  simp only [TopLine.read, notSkipped, notDefinition, notDefine, Bool.false_eq_true,
    if_false, found]

end Head

structure IsSignature (returnType name : List Char) : Prop where
  isType : IsWordText returnType
  noAt : '@' ∉ returnType
  isName : IsName name

section Signature

variable {returnType name : List Char}

theorem IsSignature.isHead (signature : IsSignature returnType name) : IsHead returnType name :=
  ⟨signature.noAt, signature.isName⟩

theorem returnType_word (isType : IsWordText returnType) :
    Assembly.returnType returnType = returnType := by
  rw [Assembly.returnType, isType.words_eq]
  rfl

theorem read_definition (signature : IsSignature returnType name) (params : List Char) :
    TopLine.read (signatureLine "define" returnType name (params ++ [')', ' ', '{'])) =
      .ok (.definition returnType name params) := by
  have noMark : ')' ∉ [' '] ∧ '{' ∉ [' '] := by decide
  have read := read_definitionLine signature.isHead params noMark.1 noMark.2
  rwa [returnType_word signature.isType] at read

theorem read_declaration (signature : IsSignature returnType name) {params : List Char}
    (trimmed : Trimmed params) :
    TopLine.read (signatureLine "declare" returnType name (params ++ [')'])) =
      .ok (.declaration returnType name params) := by
  have read := read_declarationLine signature.isHead params List.not_mem_nil
  rwa [returnType_word signature.isType, trimmed.trim_eq] at read

end Signature

def globalLine (name initializer : List Char) : List Char :=
  '@' :: (name ++ ' ' :: '=' :: ' ' :: initializer)

theorem read_global {name : List Char} (isName : IsName name) (rest : List Char) :
    TopLine.read ('@' :: (name ++ ' ' :: '=' :: rest)) = .ok (.global name (trimLeft rest)) := by
  have isCut : name? (name ++ ' ' :: '=' :: rest) = some (name, ' ' :: '=' :: rest) :=
    isName.name?_append (by simp; decide)
  have sign : trimLeft (' ' :: '=' :: rest) = '=' :: rest := by
    rw [trimLeft_of_blank (by decide), trimLeft_of_not_blank (by decide)]
  have found : global? ('@' :: (name ++ ' ' :: '=' :: rest)) =
      some (.global name (trimLeft rest)) := by
    simp only [global?, bound?, after?_cons, isCut, sign, Option.bind_eq_bind, Option.bind_some]
    rfl
  have notSkipped := not_isSkipped '@' (name ++ ' ' :: '=' :: rest) (Or.inr rfl)
  have notFunction : definition? ('@' :: (name ++ ' ' :: '=' :: rest)) = none ∧
      declaration? ('@' :: (name ++ ' ' :: '=' :: rest)) = none := by
    simp [definition?, declaration?, signature?, List.isPrefixOf?]
  have noKeyword : startsWith "define" ('@' :: (name ++ ' ' :: '=' :: rest)) = false ∧
      startsWith "declare" ('@' :: (name ++ ' ' :: '=' :: rest)) = false := by
    simp [startsWith, List.isPrefixOf]
  simp only [TopLine.read, notSkipped, notFunction, noKeyword, found, Bool.false_eq_true, if_false]

theorem read_globalLine {name initializer : List Char} (isName : IsName name)
    (bare : Bare initializer) :
    TopLine.read (content (globalLine name initializer)) = .ok (.global name initializer) := by
  have quiet : Quiet ('@' :: (name ++ [' ', '=', ' '])) := by
    have ends : Quiet ['@'] ∧ Quiet [' ', '=', ' '] := by simp [Quiet]
    exact ends.1.append (isName.quiet.append ends.2)
  have whole : globalLine name initializer = ('@' :: (name ++ [' ', '=', ' '])) ++ initializer := by
    simp [globalLine]
  have uncommented : stripComment false (globalLine name initializer) =
      globalLine name initializer := by
    rw [whole, stripComment_append quiet, bare.uncommented]
  have firstSolid : ∀ (rest : List Char) c, ('@' :: rest).head? = some c → isBlank c = false := by
    intro rest c isFirst
    cases isFirst
    decide
  rw [content, uncommented]
  cases initializer with
  | nil =>
      have ends : globalLine name [] = ('@' :: (name ++ [' ', '='])) ++ [' '] := by
        simp [globalLine]
      have trimmed : Trimmed ('@' :: (name ++ [' ', '='])) := by
        refine ⟨firstSolid _, fun c isLast => ?_⟩
        rw [← List.cons_append, List.getLast?_append_of_ne_nil _ (by simp)] at isLast
        cases isLast
        decide
      rw [ends, trimmed.trim_append_blank (by decide)]
      exact read_global isName []
  | cons c rest =>
      have trimmed : Trimmed (('@' :: (name ++ [' ', '=', ' '])) ++ c :: rest) := by
        refine ⟨firstSolid _, ?_⟩
        rw [List.getLast?_append_of_ne_nil _ (by simp)]
        exact bare.trimmed.last
      rw [whole, trimmed.trim_eq, ← whole]
      have left : trimLeft (' ' :: c :: rest) = c :: rest := by
        rw [trimLeft_of_blank (by decide), trimLeft_eq_self bare.trimmed.first]
      have read := read_global isName (' ' :: c :: rest)
      rwa [left] at read

theorem read_label {name : List Char} (isName : IsName name) :
    BodyLine.read (name ++ [':']) = .ok (.label name) := by
  have isCut : name? (name ++ [':']) = some (name, [':']) := isName.name?_append (by simp; decide)
  have notClosing : name ++ [':'] ≠ ['}'] := by
    intro same
    have last := congrArg List.getLast? same
    simp at last
  simp [BodyLine.read, notClosing, label?, isCut]

theorem read_close : BodyLine.read ['}'] = .ok .close := by
  simp [BodyLine.read]

end ValueNumbering.Assembly
