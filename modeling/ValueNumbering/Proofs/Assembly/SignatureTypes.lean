import Mathlib.Data.List.Nodup
import ValueNumbering.Proofs.Assembly.FunctionAlone
import ValueNumbering.Proofs.Assembly.ParameterLists
import ValueNumbering.Proofs.Assembly.ValueTypes
import ValueNumbering.Proofs.CommandLine.Inputs

/-!
The types in the first line of a function. Of the type of the result the last word is taken, and of
that of a parameter the first one. So a signature is read as it is written, and its line printed
again, exactly where all its types are scalars.
-/

namespace ValueNumbering.Assembly

open Text

def firstWord (text : List Char) : List Char := (words text).head?.getD []

section Words

variable (type : ValueType)

theorem firstWord_mem : firstWord type.spelling ∈ words type.spelling := by
  obtain ⟨first, more, isFirst⟩ := List.exists_cons_of_ne_nil type.words_ne_nil
  simp [firstWord, isFirst]

theorem returnType_mem : returnType type.spelling ∈ words type.spelling := by
  rw [returnType, List.getLast?_eq_getLast_of_ne_nil type.words_ne_nil]
  exact List.getLast_mem type.words_ne_nil

end Words

structure WrittenParameter where
  type : ValueType
  name : List Char
  isName : IsName name

structure WrittenSignature where
  result : Option ValueType
  name : List Char
  isName : IsName name
  parameters : List WrittenParameter

def parameterPiece (param : List Char × List Char) : List Char := param.1 ++ ' ' :: '%' :: param.2

/-- The first line of a function with the texts of its types and names. -/
def headerLine (result name : List Char) (params : List (List Char × List Char)) : List Char :=
  definedWith result name ([',', ' '].intercalate (params.map parameterPiece)) [' ']

namespace WrittenParameter

variable (param : WrittenParameter)

def texts : List Char × List Char := (param.type.spelling, param.name)

theorem isWordText_marked : IsWordText ('%' :: param.name) := by
  have percent : Solid ['%'] := by decide
  exact ⟨by simp, percent.append param.isName.solid⟩

theorem read :
    Parameter.read (parameterPiece param.texts) =
      .ok (.named (firstWord param.type.spelling) param.name) := by
  have cut : words (parameterPiece param.texts) =
      words param.type.spelling ++ ['%' :: param.name] := by
    rw [parameterPiece, texts, words_append_blank (by decide), param.isWordText_marked.words_eq]
  obtain ⟨first, more, isFirst⟩ := List.exists_cons_of_ne_nil param.type.words_ne_nil
  have notDots : parameterPiece param.texts ≠ "...".toList := by
    intro same
    have inside : '%' ∈ parameterPiece param.texts := by simp [parameterPiece]
    rw [same] at inside
    simp at inside
  have begins : (words (parameterPiece param.texts)).head? = some first := by
    rw [cut, isFirst, List.cons_append, List.head?_cons]
  have ends : (words (parameterPiece param.texts)).getLast? = some ('%' :: param.name) := by
    rw [cut, List.getLast?_concat]
  rw [Parameter.read, if_neg notDots]
  simp [begins, ends, firstWord, isFirst]

theorem isSealedItem : IsSealedItem (parameterPiece param.texts) where
  nonempty := by simp [parameterPiece]
  trimmed := by
    have whole : parameterPiece param.texts = param.type.spelling ++ (' ' :: '%' :: param.name) :=
      rfl
    constructor
    · rw [whole, List.head?_append_of_ne_nil _ param.type.nonempty]
      exact param.type.trimmed.first
    · rw [whole, ← List.singleton_append, ← List.append_assoc,
        List.getLast?_append_of_ne_nil _ (by simp)]
      exact param.isWordText_marked.trimmed.last
  closed := by
    have mark : Uncut [' ', '%'] := by simp [Uncut]; decide
    exact param.type.closed.append ((mark.append param.isName.uncut).passes 0)

theorem plain : Plain (parameterPiece param.texts) := by
  have mark : Plain [' ', '%'] := by decide
  exact param.type.plain.append (mark.append param.isName.plain)

end WrittenParameter

namespace WrittenSignature

variable (s : WrittenSignature)

def resultText : List Char :=
  match s.result with
  | none => "void".toList
  | some type => type.spelling

def paramsText : List Char :=
  [',', ' '].intercalate ((s.parameters.map (·.texts)).map parameterPiece)

def line : List Char := headerLine s.resultText s.name (s.parameters.map (·.texts))

/-- No type of the signature has elements or fields. -/
def isScalar : Bool := s.result.all (·.isScalar) && s.parameters.all (·.type.isScalar)

theorem plain_paramsText : Plain s.paramsText := by
  have between : Plain [',', ' '] := by decide
  apply between.intercalate
  intro item member
  simp only [List.map_map, List.mem_map] at member
  obtain ⟨param, -, rfl⟩ := member
  exact param.plain

theorem quiet_resultText : Quiet s.resultText := by
  cases result : s.result with
  | none => simp [resultText, result, Quiet]
  | some type => simpa [resultText, result] using type.plain.quiet

theorem isHead : IsHead s.resultText s.name := by
  refine ⟨?_, s.isName⟩
  cases result : s.result with
  | none => simp [resultText, result]
  | some type => simpa [resultText, result] using type.not_mem (by decide : isTypeChar '@' = false)

theorem parts : IsSignatureText s.resultText s.name s.paramsText [' '] :=
  ⟨s.isHead, s.quiet_resultText, s.plain_paramsText.quiet, by decide, by decide⟩

/-- The last word of the result counts, and the parameters are those of the list. -/
theorem read_line :
    TopLine.read s.line = .ok (.definition (returnType s.resultText) s.name s.paramsText) := by
  have read := s.parts.definition_iff.mpr (by decide)
  rwa [s.parts.content_definedWith] at read

theorem isHeader : IsHeader s.line := ⟨_, _, _, s.read_line⟩

theorem pieces_paramsText : pieces s.paramsText =
    (s.parameters.map (·.texts)).map parameterPiece := by
  apply pieces_of_sealed
  intro item member
  simp only [List.map_map, List.mem_map] at member
  obtain ⟨param, -, rfl⟩ := member
  exact param.isSealedItem

end WrittenSignature

theorem addPieces_shown {line : Nat} {pieces : List (List Char)}
    {params : List (List Char × List Char)} {signature signature' : Signature} {names after : Names}
    (reads : List.Forall₂ (fun piece param => Parameter.read piece = .ok (.named param.1 param.2))
      pieces params)
    (added : addPieces line signature names pieces = .ok (signature', after)) :
    argumentsShown signature'.arguments = argumentsShown signature.arguments ++
      params.map fun param => (String.ofList param.1, String.ofList param.2) := by
  induction reads generalizing signature names with
  | nil =>
      cases added
      simp
  | @cons piece param pieces params here _ ih =>
      obtain ⟨parameter, read, more⟩ := bind_eq_ok.mp added
      obtain ⟨⟨middle, between⟩, one, last⟩ := bind_eq_ok.mp more
      cases here.symm.trans read
      obtain ⟨slot, -, argument⟩ := bind_eq_ok.mp one
      obtain ⟨-, arguments, -⟩ := addArgument_ok argument
      rw [ih last, argumentsShown, arguments]
      simp [argumentsShown]

namespace WrittenSignature

variable (s : WrittenSignature)

def argumentsRead : List (String × String) := s.parameters.map fun param =>
  (String.ofList (firstWord param.type.spelling), String.ofList param.name)

theorem forall₂_read :
    List.Forall₂ (fun piece param => Parameter.read piece = .ok (.named param.1 param.2))
    ((s.parameters.map (·.texts)).map parameterPiece)
    (s.parameters.map fun param => (firstWord param.type.spelling, param.name)) := by
  rw [List.map_map]
  exact List.forall₂_map_left_iff.mpr
    (List.forall₂_map_right_iff.mpr (List.forall₂_same.mpr fun param _ => param.read))

theorem opened_of_step {r next : Reader} {number : Nat} (step : Reader.Step r number s.line next) :
    ∃ draft, next.draft = some draft ∧ draft.name = String.ofList s.name ∧
      draft.returnType = String.ofList (returnType s.resultText) ∧
        argumentsShown draft.arguments = s.argumentsRead := by
  obtain ⟨-, signature, names, parameters, rfl⟩ := step.begins s.read_line
  rw [readParameters, pieces_paramsText] at parameters
  have shown := addPieces_shown s.forall₂_read parameters
  rw [List.map_map] at shown
  exact ⟨_, rfl, rfl, rfl, shown⟩

theorem function_read {text name : String} {m : Module} (accepted : read text name = .ok m)
    {before rest : List (List Char)} {line : List Char}
    (isText : lines text.toList = before ++ line :: rest) (isLine : content line = s.line) :
    ∃ fn, m.functions[functionsIn before]? = some fn ∧ fn.name = String.ofList s.name ∧
      fn.returnType = String.ofList (returnType s.resultText) ∧
        argumentsShown fn.arguments = s.argumentsRead := by
  have header : IsHeader (content line) := isLine ▸ s.isHeader
  obtain ⟨fn, r, opened, number, function⟩ := exists_bodyRead accepted isText header
  have first := Reader.step_of_readLine function.header
  rw [isLine] at first
  obtain ⟨draft, inside, isName, result, arguments⟩ := s.opened_of_step first
  obtain ⟨entries, next, -, more, added⟩ := function.body
  obtain ⟨last, extended, rfl⟩ := Reader.extends_of_readLines inside more added
  refine ⟨_, function.isFunction, extended.name.trans isName, extended.returnType.trans result, ?_⟩
  rw [Draft.function, extended.arguments]
  exact arguments

theorem accepted_outside {r : Reader} (outside : r.draft = none)
    (distinct : (s.parameters.map (·.name)).Nodup)
    (readable : ∀ param ∈ s.parameters, ∀ slot, ∃ next, slotAfter slot param.name = .ok next)
    (number : Nat) :
    ∃ next, r.readLine number s.line = .ok next := by
  let args : List Argument := s.parameters.map fun param =>
    ⟨0, String.ofList param.name, String.ofList (firstWord param.type.spelling)⟩
  have reads : List.Forall₂ (fun piece (arg : Argument) =>
      Parameter.read piece = .ok (.named arg.type.toList arg.name.toList))
      ((s.parameters.map (·.texts)).map parameterPiece) args := by
    rw [List.map_map]
    apply List.forall₂_map_left_iff.mpr (List.forall₂_map_right_iff.mpr (List.forall₂_same.mpr _))
    intro param _
    simpa using param.read
  have slots : ∀ arg ∈ args, ∀ slot, ∃ next, slotAfter slot arg.name.toList = .ok next := by
    intro arg member
    obtain ⟨param, isParam, rfl⟩ := List.mem_map.mp member
    simpa using readable param isParam
  have apart : ([] ++ args.map Argument.name).Nodup := by
    have names : args.map Argument.name =
        (s.parameters.map WrittenParameter.name).map String.ofList := by simp [args]
    rw [List.nil_append, names]
    exact distinct.map fun first second same => String.ofList_injective same
  obtain ⟨signature, names, added, -⟩ :=
    addPieces_named (Accounted.newFunction r.names) rfl reads slots apart number {}
  rw [← s.pieces_paramsText] at added
  have begins : r.readLine number s.line =
      r.beginFunction number (returnType s.resultText) s.name s.paramsText := by
    simp only [Reader.readLine, outside, Reader.topLine, s.read_line]
    rfl
  rw [begins]
  exact ⟨_, bind_eq_ok.mpr ⟨(signature, names), added, rfl⟩⟩

def textsRead : List (List Char × List Char) :=
  s.parameters.map fun param => (firstWord param.type.spelling, param.name)

theorem returnType_eq_iff :
    returnType s.resultText = s.resultText ↔ s.result.all (·.isScalar) = true := by
  cases result : s.result with
  | none =>
      have void : returnType "void".toList = "void".toList := by decide
      simpa [resultText, result] using void
  | some type => simpa [resultText, result] using type.word_eq_iff (returnType_mem type)

theorem textsRead_eq_iff :
    s.textsRead = s.parameters.map (·.texts) ↔ s.parameters.all (·.type.isScalar) = true := by
  rw [textsRead, List.map_inj_left, List.all_eq_true]
  apply forall₂_congr
  intro param _
  rw [WrittenParameter.texts, ← param.type.word_eq_iff (firstWord_mem param.type)]
  simp

theorem kept_iff :
    returnType s.resultText = s.resultText ∧ s.textsRead = s.parameters.map (·.texts) ↔
      s.isScalar = true := by
  rw [s.returnType_eq_iff, s.textsRead_eq_iff, isScalar, Bool.and_eq_true]

end WrittenSignature

section Spaces

def spaces (result : List Char) (params : List (List Char × List Char)) : Nat :=
  result.count ' ' + (params.map fun param => param.1.count ' ').sum

theorem count_intercalate (items : List (List Char)) :
    ([',', ' '].intercalate items).count ' ' =
      (items.map (·.count ' ')).sum + (items.length - 1) := by
  induction items with
  | nil => rfl
  | cons item more ih =>
      cases more with
      | nil => simp
      | cons next others =>
          rw [List.intercalate_cons_cons, List.count_append, List.count_append, ih]
          simp
          omega

theorem count_pieces (params : List (List Char × List Char)) :
    ((params.map parameterPiece).map (·.count ' ')).sum =
    (params.map fun param => param.1.count ' ').sum +
      ((params.map (·.2)).map fun name => name.count ' ' + 1).sum := by
  induction params with
  | nil => rfl
  | cons param more ih =>
      have here : (parameterPiece param).count ' ' =
          param.1.count ' ' + (param.2.count ' ' + 1) := by
        simp [parameterPiece]
      simp only [List.map_cons, List.sum_cons, ih, here]
      omega

theorem count_headerLine (result name : List Char) (params : List (List Char × List Char)) :
    (headerLine result name params).count ' ' = spaces result params + (name.count ' ' + 3 +
      ((params.map (·.2)).map fun name => name.count ' ' + 1).sum +
        ((params.map (·.2)).length - 1)) := by
  have marks : "define".toList.count ' ' = 0 := by decide
  simp only [headerLine, definedWith, signatureLine, List.count_append, List.count_cons,
    count_intercalate, count_pieces, marks, spaces, List.length_map]
  simp
  omega

theorem spaces_eq_of_headerLine_eq {result result' name : List Char}
    {params params' : List (List Char × List Char)}
    (same : headerLine result name params = headerLine result' name params')
    (names : params.map (·.2) = params'.map (·.2)) :
    spaces result params = spaces result' params' := by
  have counts := congrArg (List.count ' ') same
  rw [count_headerLine, count_headerLine, names] at counts
  omega

theorem spaces_eq_zero_iff {result : List Char} {params : List (List Char × List Char)} :
    spaces result params = 0 ↔ ' ' ∉ result ∧ ∀ param ∈ params, ' ' ∉ param.1 := by
  rw [spaces, Nat.add_eq_zero_iff, List.count_eq_zero, List.sum_eq_zero_iff_forall_eq_nat]
  simp only [List.forall_mem_map, List.count_eq_zero]

end Spaces

theorem listing_begins {fn : Function} (blocks : fn.blocks ≠ []) {listed : List String}
    (isListed : fn.listing = .ok listed) :
    ∃ more, listed = definitionLine fn :: more := by
  have notDeclaration : fn.isDeclaration = false := by simpa [Function.isDeclaration] using blocks
  rw [Function.listing, notDeclaration, if_neg (by simp)] at isListed
  obtain ⟨body, -, made⟩ := bind_eq_ok.mp isListed
  exact ⟨body ++ ["\x7d"], (Except.ok.inj made).symm⟩

namespace WrittenSignature

variable (s : WrittenSignature)

/-- The line that the types are printed back to. -/
def printed : List Char := headerLine (returnType s.resultText) s.name s.textsRead

theorem printed_eq_iff : s.printed = s.line ↔ s.isScalar = true := by
  constructor
  · intro same
    have names : s.textsRead.map (·.2) = (s.parameters.map (·.texts)).map (·.2) := by
      simp [textsRead, WrittenParameter.texts]
    have wordSolid : ∀ {word : List Char} {type : ValueType}, word ∈ words type.spelling →
        ' ' ∉ word := by
      intro word type member inside
      exact absurd ((isWordText_of_mem_words member).solid ' ' inside) (by decide)
    have nothing : spaces (returnType s.resultText) s.textsRead = 0 := by
      apply spaces_eq_zero_iff.mpr
      constructor
      · cases result : s.result with
        | none =>
            have void : ' ' ∉ returnType "void".toList := by decide
            simpa [resultText, result] using void
        | some type => simpa [resultText, result] using wordSolid (returnType_mem type)
      · intro param member
        obtain ⟨written, -, rfl⟩ := List.mem_map.mp member
        exact wordSolid (firstWord_mem written.type)
    rw [spaces_eq_of_headerLine_eq same names] at nothing
    obtain ⟨inResult, inParams⟩ := spaces_eq_zero_iff.mp nothing
    rw [isScalar, Bool.and_eq_true]
    constructor
    · cases result : s.result with
      | none => rfl
      | some type =>
          rw [resultText, result] at inResult
          simpa [type.space_mem_iff] using inResult
    · apply List.all_eq_true.mpr
      intro param member
      have noSpace := inParams param.texts (List.mem_map_of_mem member)
      simpa [WrittenParameter.texts, param.type.space_mem_iff] using noSpace
  · intro scalar
    obtain ⟨result, params⟩ := s.kept_iff.mpr scalar
    rw [printed, line, result, params]

/-- The function has the types of the signature as they are written. -/
def KeptBy (fn : Function) : Prop :=
  fn.returnType = String.ofList s.resultText ∧
    argumentsShown fn.arguments = s.parameters.map fun param =>
      (String.ofList param.type.spelling, String.ofList param.name)

theorem keptBy_iff {fn : Function}
    (result : fn.returnType = String.ofList (returnType s.resultText))
    (arguments : argumentsShown fn.arguments = s.argumentsRead) :
    s.KeptBy fn ↔ s.isScalar = true := by
  have sameResult : fn.returnType = String.ofList s.resultText ↔
      returnType s.resultText = s.resultText := by
    rw [result, String.ofList_inj]
  have sameArguments : (argumentsShown fn.arguments = s.parameters.map fun param =>
      (String.ofList param.type.spelling, String.ofList param.name)) ↔
        s.textsRead = s.parameters.map (·.texts) := by
    rw [arguments, argumentsRead, textsRead, List.map_inj_left, List.map_inj_left]
    apply forall₂_congr
    intro param _
    simp [WrittenParameter.texts, String.ofList_inj]
  rw [KeptBy, sameResult, sameArguments, s.kept_iff]

theorem definitionLine_eq {fn : Function} (isName : fn.name = String.ofList s.name)
    (result : fn.returnType = String.ofList (returnType s.resultText))
    (arguments : argumentsShown fn.arguments = s.argumentsRead) :
    (definitionLine fn).toList = s.printed := by
  have pieces : fn.arguments.map argumentText = s.textsRead.map parameterPiece := by
    calc
      fn.arguments.map argumentText =
          (argumentsShown fn.arguments).map fun shown =>
            parameterPiece (shown.1.toList, shown.2.toList) := by
        rw [argumentsShown, List.map_map]
        rfl
      _ = s.textsRead.map parameterPiece := by
        rw [arguments]
        simp [argumentsRead, textsRead]
  rw [toList_definitionLine, definitionText, toList_parameterText, pieces, isName, result,
    String.toList_ofList, String.toList_ofList]
  rfl

/-- A first line is accepted outside of a function where its parameters have different names, and
opens a function with the last word of the result and the first words of the parameters. So the
types are kept, and the line is printed back, exactly where all of them are scalars. -/
theorem kept_iff_scalar :
    (∀ (r : Reader) (number : Nat), r.draft = none → (s.parameters.map (·.name)).Nodup →
      (∀ param ∈ s.parameters, ∀ slot, ∃ next, slotAfter slot param.name = .ok next) →
      ∃ next, r.readLine number s.line = .ok next) ∧
    ∀ (text name : String) (m : Module) (before rest : List (List Char)) (line : List Char),
      read text name = .ok m →
      lines text.toList = before ++ line :: rest → content line = s.line →
      ∃ fn, m.functions[functionsIn before]? = some fn ∧ fn.name = String.ofList s.name ∧
        fn.returnType = String.ofList (returnType s.resultText) ∧
          argumentsShown fn.arguments = s.argumentsRead ∧
        (s.KeptBy fn ↔ s.isScalar = true) ∧
        (fn.blocks ≠ [] → ∃ first more, fn.listing = .ok (first :: more) ∧
          (first.toList = s.line ↔ s.isScalar = true)) := by
  constructor
  · intro r number outside distinct readable
    exact s.accepted_outside outside distinct readable number
  · intro text name m before rest line accepted isText isLine
    obtain ⟨fn, isFunction, isName, result, arguments⟩ := s.function_read accepted isText isLine
    refine ⟨fn, isFunction, isName, result, arguments, s.keptBy_iff result arguments,
      fun blocks => ?_⟩
    obtain ⟨listed, isListed⟩ := Function.exists_listing
      (complete_of_read accepted fn (List.mem_of_getElem? isFunction))
    obtain ⟨more, rfl⟩ := listing_begins blocks isListed
    refine ⟨definitionLine fn, more, isListed, ?_⟩
    rw [s.definitionLine_eq isName result arguments, s.printed_eq_iff]

end WrittenSignature

def scalarSignature : WrittenSignature where
  result := some .double
  name := "mean".toList
  isName := .of_all (by decide) (by decide)
  parameters := [
    ⟨.integer 64, "n".toList, .of_all (by decide) (by decide)⟩,
    ⟨.pointer, "7".toList, .of_all (by decide) (by decide)⟩,
    ⟨.named "pair".toList (.of_all (by decide) (by decide)), "of".toList,
      .of_all (by decide) (by decide)⟩]

def scalarText : String :=
  unlines ["declare void @g(i32)",
    "  define double @mean(i64 %n, ptr %7, %pair %of) \x7b ; scalars", "  %a = load double, ptr %7",
    "  ret double %a", "\x7d"]

theorem scalarSignature_kept :
    ∃ m fn first more, read scalarText = .ok m ∧ m.functions[1]? = some fn ∧
    scalarSignature.KeptBy fn ∧ fn.listing = .ok (first :: more) ∧
      first.toList = scalarSignature.line := by
  have viewed : (read scalarText).toOption.map
      (fun m => m.functions[1]?.map fun fn => fn.blocks.isEmpty) = some (some false) := by
    decide +kernel
  obtain ⟨m, isModule, view⟩ := Option.map_eq_some_iff.mp viewed
  have accepted := ok_of_toOption isModule
  let line : List Char := "  define double @mean(i64 %n, ptr %7, %pair %of) \x7b ; scalars".toList
  let rest : List (List Char) :=
    ["  %a = load double, ptr %7".toList, "  ret double %a".toList, ['}']]
  have isText : lines scalarText.toList = ["declare void @g(i32)".toList] ++ line :: rest := by
    decide +kernel
  have isLine : content line = scalarSignature.line := by decide +kernel
  have scalar : scalarSignature.isScalar = true := by decide
  have index : functionsIn ["declare void @g(i32)".toList] = 1 := by decide +kernel
  obtain ⟨fn, isFunction, -, -, -, kept, listed⟩ :=
    (scalarSignature.kept_iff_scalar).2 scalarText "<stdin>" m _ rest line accepted isText isLine
  rw [index] at isFunction
  rw [isFunction] at view
  have blocks : fn.blocks ≠ [] := by
    intro none
    simp [none] at view
  obtain ⟨first, more, isListed, same⟩ := listed blocks
  exact ⟨m, fn, first, more, accepted, isFunction, kept.mpr scalar, isListed, same.mpr scalar⟩

def compoundText : String :=
  unlines ["define [2 x i32] @f(\x7b i32, i32 \x7d %a) \x7b", "  ret void", "\x7d"]

/-- Both types are cut at their spaces, and what is printed is not what was read. -/
theorem compound_types_cut : ∃ m fn more, read compoundText = .ok m ∧ m.functions = [fn] ∧
    fn.returnType = "i32]" ∧ argumentsShown fn.arguments = [("\x7b", "a")] ∧
    fn.listing = .ok ("define i32] @f(\x7b %a) \x7b" :: more) := by
  have viewed : (read compoundText).toOption.map (fun m => m.functions.map fun fn =>
      (fn.returnType, argumentsShown fn.arguments, fn.listing.toOption)) =
        some [("i32]", [("\x7b", "a")],
          some ["define i32] @f(\x7b %a) \x7b", "0:", "  ret void", "\x7d"])] := by
    decide +kernel
  obtain ⟨m, fn, accepted, only, view⟩ := exists_function_of_view viewed
  obtain ⟨result, rest⟩ := Prod.mk.inj view
  obtain ⟨arguments, listed⟩ := Prod.mk.inj rest
  exact ⟨m, fn, _, accepted, only, result, arguments, ok_of_toOption listed⟩

end ValueNumbering.Assembly
