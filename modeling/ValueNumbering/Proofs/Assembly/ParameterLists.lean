import Mathlib.Data.List.Infix
import ValueNumbering.Proofs.Assembly.PrintedLines

/-!
Parameter lists and what follows them on the line of a function. The list is taken to run to the
last closing parenthesis, so what follows is ignored exactly as long as it has no parentheses
itself.
-/

namespace ValueNumbering.Assembly

open Text

/-- As many parentheses are closed as opened, and never more so far. -/
structure Balanced (text : List Char) : Prop where
  nested : ∀ front ∈ text.inits, front.count ')' ≤ front.count '('
  even : text.count '(' = text.count ')'

theorem Balanced.mem_iff {text : List Char}
    (balanced : Balanced text) : ')' ∈ text ↔ '(' ∈ text := by
  rw [← List.count_pos_iff, ← List.count_pos_iff, balanced.even]

def definedWith (head name params tail : List Char) : List Char :=
  signatureLine "define" head name (params ++ ')' :: (tail ++ ['{']))

def declaredWith (head name params tail : List Char) : List Char :=
  signatureLine "declare" head name (params ++ ')' :: tail)

/-- The text of a parameter list that runs on to the last closing parenthesis behind it. -/
def runOn (params tail : List Char) : List Char :=
  match cutAtLast? ')' tail with
  | some (more, _) => params ++ ')' :: more
  | none => params

theorem exists_last_of_mem {c : Char} {text : List Char} (member : c ∈ text) :
    ∃ front after, text = front ++ c :: after ∧ c ∉ after := by
  obtain ⟨after, front, whole, first⟩ := List.eq_append_cons_of_mem (List.mem_reverse.mpr member)
  refine ⟨front.reverse, after.reverse, ?_, by simpa using first⟩
  rw [← List.reverse_reverse text, whole]
  simp

section RunOn

variable {params tail : List Char}

theorem runOn_of_absent (absent : ')' ∉ tail) : runOn params tail = params := by
  rw [runOn, cutAtLast?_of_absent absent]

theorem runOn_append {after : List Char} (last : ')' ∉ after) (more : List Char) :
    runOn params (more ++ ')' :: after) = params ++ ')' :: more := by
  rw [runOn, cutAtLast?_append last]

theorem exists_split (params tail : List Char) :
    ∃ after, params ++ ')' :: tail = runOn params tail ++ ')' :: after ∧ ')' ∉ after ∧
      after ⊆ tail := by
  by_cases closes : ')' ∈ tail
  · obtain ⟨more, after, rfl, last⟩ := exists_last_of_mem closes
    refine ⟨after, by simp [runOn_append last], last, ?_⟩
    intro c member
    exact List.mem_append_right _ (List.mem_cons_of_mem _ member)
  · exact ⟨tail, by rw [runOn_of_absent closes], closes, List.Subset.refl _⟩

theorem count_runOn (closes : ')' ∈ tail) : params.count ')' < (runOn params tail).count ')' := by
  obtain ⟨more, after, rfl, last⟩ := exists_last_of_mem closes
  rw [runOn_append last, List.count_append, List.count_cons_self]
  omega

theorem runOn_eq_iff : runOn params tail = params ↔ ')' ∉ tail := by
  constructor
  · intro same closes
    have longer : params.count ')' < (runOn params tail).count ')' := count_runOn closes
    rw [same] at longer
    omega
  · exact runOn_of_absent

end RunOn

/-- The parts of the line of a function, without quotes, comments or another brace. -/
structure IsSignatureText (head name params tail : List Char) : Prop where
  isHead : IsHead head name
  quietHead : Quiet head
  quietParams : Quiet params
  quietTail : Quiet tail
  noBrace : '{' ∉ tail

namespace IsSignatureText

variable {head name params tail : List Char}

theorem quiet_signatureLine (parts : IsSignatureText head name params tail) {keyword : String}
    (quiet : Quiet keyword.toList) {rest : List Char} (quietRest : Quiet rest) :
    Quiet (signatureLine keyword head name (params ++ ')' :: rest)) := by
  have marks : Quiet [' '] ∧ Quiet [' ', '@'] ∧ Quiet ['('] ∧ Quiet [')'] := by decide
  obtain ⟨space, sign, opens, closes⟩ := marks
  have whole : signatureLine keyword head name (params ++ ')' :: rest) =
      keyword.toList ++
        ([' '] ++ (head ++ ([' ', '@'] ++ (name ++ (['('] ++ (params ++ ([')'] ++ rest))))))) := by
    simp [signatureLine]
  rw [whole]
  exact quiet.append (space.append (parts.quietHead.append (sign.append
    (parts.isHead.isName.quiet.append
      (opens.append (parts.quietParams.append (closes.append quietRest)))))))

theorem content_definedWith (parts : IsSignatureText head name params tail) :
    content (definedWith head name params tail) = definedWith head name params tail := by
  have brace : Quiet ['{'] := by decide
  have quiet : Quiet (definedWith head name params tail) :=
    parts.quiet_signatureLine (by decide) (parts.quietTail.append brace)
  have uncommented := stripComment_append quiet false []
  rw [List.append_nil] at uncommented
  have whole : definedWith head name params tail =
      ('d' :: (signatureLine "define" head name (params ++ ')' :: tail)).tail) ++ ['{'] := by
    simp [definedWith, signatureLine]
  have trimmed : Trimmed (definedWith head name params tail) := by
    rw [whole]
    constructor
    · intro c isFirst
      cases isFirst
      decide
    · intro c isLast
      rw [List.getLast?_concat] at isLast
      cases isLast
      decide
  rw [content, uncommented, stripComment, List.append_nil, trimmed.trim_eq]

theorem content_declaredWith (parts : IsSignatureText head name params tail) :
    content (declaredWith head name params tail) =
      declaredWith head name params (trimRight tail) := by
  have quiet : Quiet (declaredWith head name params tail) :=
    parts.quiet_signatureLine (by decide) parts.quietTail
  have uncommented := stripComment_append quiet false []
  rw [List.append_nil] at uncommented
  have whole : ∀ rest, declaredWith head name params rest =
      ('d' :: (signatureLine "declare" head name params).tail) ++ ')' :: rest := by
    intro rest
    simp [declaredWith, signatureLine]
  have left : trimLeft (declaredWith head name params tail) =
      declaredWith head name params tail := by
    apply trimLeft_eq_self
    intro c isFirst
    cases isFirst
    decide
  rw [content, uncommented, stripComment, List.append_nil, trim, left, whole,
    trimRight_append_solid (by decide), whole]

theorem read_definedWith (parts : IsSignatureText head name params tail) :
    TopLine.read (content (definedWith head name params tail)) =
      .ok (.definition (returnType head) name (runOn params tail)) := by
  obtain ⟨after, split, last, within⟩ := exists_split params tail
  have noBrace : '{' ∉ after := fun inside => parts.noBrace (within inside)
  have line : params ++ ')' :: (tail ++ ['{']) = runOn params tail ++ ')' :: (after ++ ['{']) := by
    rw [← List.cons_append, ← List.append_assoc, split, List.append_assoc, List.cons_append]
  rw [parts.content_definedWith, definedWith, line, read_definitionLine parts.isHead _ last noBrace]

theorem read_declaredWith (parts : IsSignatureText head name params tail) :
    TopLine.read (content (declaredWith head name params tail)) =
      .ok (.declaration (returnType head) name (trim (runOn params (trimRight tail)))) := by
  obtain ⟨after, split, last, -⟩ := exists_split params (trimRight tail)
  rw [parts.content_declaredWith, declaredWith, split, read_declarationLine parts.isHead _ last]

/-- The parameters of a definition are those of the list exactly where no closing parenthesis
follows. -/
theorem definition_iff (parts : IsSignatureText head name params tail) :
    TopLine.read (content (definedWith head name params tail)) =
      .ok (.definition (returnType head) name params) ↔ ')' ∉ tail := by
  have alone : runOn params tail = params ↔ ')' ∉ tail := runOn_eq_iff
  rw [parts.read_definedWith, ← alone]
  simp

theorem declaration_iff (parts : IsSignatureText head name params tail) :
    TopLine.read (content (declaredWith head name params tail)) =
      .ok (.declaration (returnType head) name (trim params)) ↔ ')' ∉ tail := by
  have solid : isBlank ')' = false := by decide
  have inTail : ')' ∉ trimRight tail ↔ ')' ∉ tail := by
    rw [← List.count_eq_zero, ← List.count_eq_zero, count_trimRight solid]
  rw [parts.read_declaredWith, ← inTail]
  constructor
  · intro same closes
    have longer : params.count ')' < (runOn params (trimRight tail)).count ')' := count_runOn closes
    simp only [Except.ok.injEq, TopLine.declaration.injEq, true_and] at same
    rw [← count_trim solid params, ← count_trim solid (runOn params _), same] at longer
    omega
  · intro absent
    rw [runOn_of_absent absent]

theorem withTail (parts : IsSignatureText head name params tail) {other : List Char}
    (within : ∀ c ∈ other, c = ' ' ∨ c ∈ tail) :
    IsSignatureText head name params other := by
  refine ⟨parts.isHead, parts.quietHead, parts.quietParams, ?_, ?_⟩
  · intro c member
    rcases within c member with rfl | inside
    · decide
    · exact parts.quietTail c inside
  · intro member
    rcases within _ member with isSpace | inside
    · cases isSpace
    · exact parts.noBrace inside

end IsSignatureText

/-- What follows the parameters on the line of a function is ignored exactly where it has no
parentheses. There the line opens, or declares, the function with these parameters. -/
theorem tail_ignored_iff {head name params tail : List Char}
    (parts : IsSignatureText head name params tail) (balanced : Balanced tail) :
    (TopLine.read (content (definedWith head name params (' ' :: (tail ++ [' '])))) =
        TopLine.read (content (definedWith head name params [' '])) ↔ '(' ∉ tail) ∧
      (TopLine.read (content (declaredWith head name params (' ' :: tail))) =
        TopLine.read (content (declaredWith head name params [])) ↔ '(' ∉ tail) ∧
      ('(' ∉ tail → ∀ (r : Reader) (line : Nat), r.draft = none →
        r.readLine line (content (definedWith head name params (' ' :: (tail ++ [' '])))) =
            r.beginFunction line (returnType head) name params ∧
          r.readLine line (content (declaredWith head name params (' ' :: tail))) =
            .ok { r with functions := r.functions ++ [{
              name := String.ofList name, returnType := String.ofList (returnType head),
              params := some (String.ofList (trim params)) }] }) := by
  have noClosing : ')' ∉ tail ↔ '(' ∉ tail := not_congr balanced.mem_iff
  have spaced : IsSignatureText head name params (' ' :: (tail ++ [' '])) :=
    parts.withTail (by simp [or_comm])
  have behind : IsSignatureText head name params (' ' :: tail) := parts.withTail (by simp)
  have space : IsSignatureText head name params [' '] := parts.withTail (by simp)
  have nothing : IsSignatureText head name params [] := parts.withTail (by simp)
  have defined := spaced.definition_iff
  have declared := behind.declaration_iff
  rw [show ')' ∉ ' ' :: (tail ++ [' ']) ↔ '(' ∉ tail by simp [← noClosing]] at defined
  rw [show ')' ∉ ' ' :: tail ↔ '(' ∉ tail by simp [← noClosing]] at declared
  refine ⟨?_, ?_, ?_⟩
  · rwa [space.definition_iff.mpr (by decide)]
  · rwa [nothing.declaration_iff.mpr List.not_mem_nil]
  · intro absent r line outside
    constructor
    · simp only [Reader.readLine, outside, Reader.topLine, defined.mpr absent]
      rfl
    · simp only [Reader.readLine, outside, Reader.topLine, declared.mpr absent]
      rfl

def nestedParams : List Char :=
  "ptr sret(\x7b i32, [4 x i32] \x7d) align 4 %r, i32 range(i32 0, 9) %n".toList

def plainAttributes : List Char := "local_unnamed_addr #0 align 16".toList

theorem plainAttributes_ignored : '(' ∉ plainAttributes ∧
    TopLine.read
      (content (declaredWith "dso_local void".toList "fill.2".toList nestedParams
        (' ' :: plainAttributes))) =
      TopLine.read
        (content (declaredWith "dso_local void".toList "fill.2".toList nestedParams [])) ∧
    Reader.readLine {} 1 (content (definedWith "dso_local void".toList "fill.2".toList nestedParams
        (' ' :: (plainAttributes ++ [' '])))) =
      Reader.beginFunction {} 1 "void".toList "fill.2".toList nestedParams := by
  have parts : IsSignatureText "dso_local void".toList "fill.2".toList nestedParams
      plainAttributes := {
    isHead := ⟨by decide, .of_all (by decide) (by decide +kernel)⟩
    quietHead := by decide
    quietParams := by decide +kernel
    quietTail := by decide +kernel
    noBrace := by decide }
  have balanced : Balanced plainAttributes := ⟨by decide +kernel, by decide +kernel⟩
  have absent : '(' ∉ plainAttributes := by decide
  obtain ⟨-, declared, opened⟩ := tail_ignored_iff parts balanced
  exact ⟨absent, declared.mpr absent, (opened absent {} 1 rfl).1⟩

def argumentsOpened (line : List Char) : Option (List (String × String)) :=
  (Reader.readLine {} 1 (content line)).toOption.bind fun r =>
    r.draft.map fun draft => draft.arguments.map fun arg => (arg.name, arg.type)

/-- The group of a function joins its parameters, which lose the name of the last one. -/
theorem comdat_joins_parameters :
    IsSignatureText "i32".toList "f".toList "i32 %a".toList "comdat($f)".toList ∧
    Balanced "i32 %a".toList ∧ Balanced "comdat($f)".toList ∧
    argumentsOpened (definedWith "i32".toList "f".toList "i32 %a".toList [' ']) =
      some [("a", "i32")] ∧
    argumentsOpened (definedWith "i32".toList "f".toList "i32 %a".toList
      (' ' :: ("comdat($f)".toList ++ [' ']))) =
      some [("0", "i32")] ∧
    TopLine.read (content (declaredWith "i32".toList "f".toList "i32 %a".toList [])) =
      .ok (.declaration "i32".toList "f".toList "i32 %a".toList) ∧
    TopLine.read
      (content (declaredWith "i32".toList "f".toList "i32 %a".toList
        (' ' :: "comdat($f)".toList))) =
      .ok (.declaration "i32".toList "f".toList "i32 %a) comdat($f".toList) := by
  have parts : IsSignatureText "i32".toList "f".toList "i32 %a".toList "comdat($f)".toList := {
    isHead := ⟨by decide, .of_all (by decide) (by decide)⟩
    quietHead := by decide
    quietParams := by decide
    quietTail := by decide
    noBrace := by decide }
  have balanced : Balanced "i32 %a".toList := ⟨by decide +kernel, by decide⟩
  have balanced' : Balanced "comdat($f)".toList := ⟨by decide +kernel, by decide⟩
  exact ⟨parts, balanced, balanced', by decide +kernel, by decide +kernel,
    ok_of_toOption (by decide +kernel), ok_of_toOption (by decide +kernel)⟩

end ValueNumbering.Assembly
