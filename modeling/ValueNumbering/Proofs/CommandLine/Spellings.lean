import ValueNumbering.Proofs.CommandLine.Requests
import ValueNumbering.Proofs.Lists
import ValueNumbering.Proofs.Text.Integer

/-!
How requests are spelled: options in any order, each with its value behind it, then the input. The
arguments of a spelled request are read as the request.
-/

namespace ValueNumbering.CommandLine

open Text.Integer (AllDigits)

def IsPlain (text : String) : Prop := text.toList.head? = some '-' → text = "-"

instance (text : String) : Decidable (IsPlain text) := inferInstanceAs (Decidable (_ → _))

theorem IsPlain.not_separator {text : String} (plain : IsPlain text) : text ≠ "--" := by
  rintro rfl
  exact absurd (plain (by decide)) (by decide)

theorem IsPlain.classify_eq {text : String} (plain : IsPlain text) :
    classify text = .ok (.plain text) := by
  unfold classify
  refine if_pos ?_
  by_cases marked : text.toList.head? = some '-'
  · rw [plain marked]
    exact Or.inr (by decide)
  · exact Or.inl marked

section Numbers

variable {digits : List Char} {argument : String}

theorem second_not_digit :
    ∀ spec ∈ optionSpecs, ∀ spelling ∈ spec.spellings, ∀ c, spelling.toList[1]? = some c →
    c.isDigit = false := by
  have each : ∀ spec ∈ optionSpecs, ∀ spelling ∈ spec.spellings,
      (spelling.toList[1]?.all (!·.isDigit)) = true := by decide
  intro spec isSpec spelling isSpelling c isSecond
  have outside := each spec isSpec spelling isSpelling
  rw [isSecond] at outside
  simpa using outside

/-- A minus sign and digits. -/
structure IsMinus (argument : String) (digits : List Char) : Prop where
  whole : argument.toList = '-' :: digits
  areDigits : AllDigits digits
  nonempty : digits ≠ []

namespace IsMinus

theorem exists_second (isMinus : IsMinus argument digits) :
    ∃ d, digits.head? = some d ∧ d.isDigit = true := by
  obtain ⟨d, more, split⟩ := List.exists_cons_of_ne_nil isMinus.nonempty
  exact ⟨d, by rw [split]; rfl, isMinus.areDigits d (split ▸ List.mem_cons_self ..)⟩

theorem ne_second (isMinus : IsMinus argument digits) {spec : OptionSpec}
    (isSpec : spec ∈ optionSpecs) {spelling : String} (isSpelling : spelling ∈ spec.spellings) :
    spelling.toList[1]? ≠ digits.head? := by
  obtain ⟨d, first, isDigit⟩ := isMinus.exists_second
  rw [first]
  intro same
  exact absurd isDigit (by rw [second_not_digit spec isSpec spelling isSpelling d same]; decide)

theorem specNamed?_eq (isMinus : IsMinus argument digits) : specNamed? argument.toList = none := by
  refine List.find?_eq_none.mpr fun spec isSpec named => ?_
  have isSpelling : argument ∈ spec.spellings := by simpa using named
  refine isMinus.ne_second isSpec isSpelling ?_
  rw [isMinus.whole, List.head?_eq_getElem?]
  rfl

theorem candidates_eq (isMinus : IsMinus argument digits) : candidates argument.toList = [] := by
  obtain ⟨d, first, isDigit⟩ := isMinus.exists_second
  obtain ⟨rest, split⟩ := List.head?_eq_some_iff.mp first
  have whole := isMinus.whole
  rw [split] at whole
  have notMinus : d ≠ '-' := by
    rintro rfl
    cases isDigit
  unfold candidates
  rw [whole]
  split
  · next same => exact absurd (List.cons.inj (List.cons.inj same).2).1 notMinus
  · refine List.filterMap_eq_nil_iff.mpr fun entry member => ?_
    obtain ⟨spec, isSpec, inside⟩ := List.mem_flatMap.mp member
    obtain ⟨spelling, isSpelling, rfl⟩ := List.mem_map.mp inside
    have other := isMinus.ne_second isSpec isSpelling
    rw [first] at other
    have notLetter : ¬spelling.toList = ('-' :: d :: rest).take 2 := by
      intro same
      exact other (by rw [same]; rfl)
    have notPrefix : ¬('-' :: d :: rest).isPrefixOf spelling.toList = true := by
      intro begins
      obtain ⟨more, same⟩ := List.isPrefixOf_iff_prefix.mp begins
      exact other (by rw [← same]; rfl)
    exact (if_neg notLetter).trans (if_neg notPrefix)

theorem isNegativeNumber_eq (isMinus : IsMinus argument digits) :
    isNegativeNumber argument.toList = true := by
  have notBreak : argument.toList.getLast? ≠ some '\n' := by
    rw [isMinus.whole, List.getLast?_cons, List.getLast?_eq_some_getLast isMinus.nonempty]
    intro same
    have last : digits.getLast isMinus.nonempty = '\n' := by simpa using same
    exact absurd (isMinus.areDigits _ (List.getLast_mem isMinus.nonempty)) (by rw [last]; decide)
  have decimals : digits.span Text.isDecimal = (digits, []) := by
    have passes : ∀ c ∈ digits, Text.isDecimal c = true := fun c member =>
      Text.Integer.isDecimal_of_isDigit (isMinus.areDigits c member)
    simpa using @span_append _ _ digits [] passes (by simp)
  unfold isNegativeNumber
  rw [if_neg notBreak, isMinus.whole]
  simp only [decimals]
  simpa using isMinus.nonempty

theorem cutAtEquals_eq (isMinus : IsMinus argument digits) :
    cutAtEquals argument.toList = (argument.toList, none) := by
  have passes : ∀ c ∈ argument.toList, (c != '=') = true := by
    rw [isMinus.whole]
    refine List.forall_mem_cons.mpr ⟨by decide, fun c member => ?_⟩
    have isDigit := isMinus.areDigits c member
    rw [bne_iff_ne]
    rintro rfl
    cases isDigit
  have whole : argument.toList.span (· != '=') = (argument.toList, []) := by
    simpa using @span_append _ _ argument.toList [] passes (by simp)
  rw [cutAtEquals, whole]

theorem classify_eq (isMinus : IsMinus argument digits) :
    classify argument = .ok (.plain argument) := by
  unfold classify
  simp only [isMinus.specNamed?_eq, isMinus.cutAtEquals_eq, classifyShortened,
    isMinus.candidates_eq, isMinus.isNegativeNumber_eq, Bool.true_or, if_true, ite_self]

theorem not_separator (isMinus : IsMinus argument digits) : argument ≠ "--" := by
  rintro rfl
  have same : digits = ['-'] := (List.cons.inj isMinus.whole).2.symm
  exact absurd (isMinus.areDigits '-' (by simp [same])) (by decide)

end IsMinus

theorem classify_toString (n : Int) :
    toString n ≠ "--" ∧ classify (toString n) = .ok (.plain (toString n)) := by
  cases n with
  | ofNat m =>
      have plain : IsPlain (toString (Int.ofNat m)) := by
        intro marked
        exact absurd (Text.Integer.allDigits_repr m '-' (List.mem_of_mem_head? marked)) (by decide)
      exact ⟨plain.not_separator, plain.classify_eq⟩
  | negSucc m =>
      have isMinus : IsMinus (toString (Int.negSucc m)) (m + 1).repr.toList :=
        ⟨Text.Integer.toString_negSucc m, Text.Integer.allDigits_repr _, Text.Integer.repr_ne_nil _⟩
      exact ⟨isMinus.not_separator, isMinus.classify_eq⟩

end Numbers

theorem Item.isPlain_line (items : List Item) : IsPlain (line items) := by
  have noMinus : ∀ {text : List Char}, Text.Blanks text → text.head? ≠ some '-' := by
    intro text blanks first
    exact absurd (blanks '-' (List.mem_of_mem_head? first)) (by decide)
  have plainName : ∀ name ∈ registry.keys, name.toList.head? ≠ some '-' := by decide
  have first : ∀ item : Item, item.text.head? ≠ some '-' := by
    intro item
    have name : item.name.toList.head? ≠ some '-' := by
      rcases item.named with empty | known
      · simp [empty]
      · exact plainName _ known
    rw [text, List.head?_append, List.head?_append]
    simp [Option.or_eq_some_iff, noMinus item.blankBefore, name, noMinus item.blankAfter]
  intro marked
  rw [line, String.toList_ofList] at marked
  cases items with
  | nil => cases marked
  | cons item more =>
      cases more with
      | nil =>
          rw [List.map_singleton, List.intercalate_singleton] at marked
          exact absurd marked (first item)
      | cons next others =>
          rw [List.map_cons, List.map_cons, List.intercalate_cons_cons, List.append_assoc,
            List.head?_append] at marked
          rcases Option.or_eq_some_iff.mp marked with here | ⟨-, comma⟩
          · exact absurd here (first item)
          · exact absurd comma (by simp)

inductive Switch
  | pipeline (items : List Item)
  | configPath (path : String)
  | printMetrics
  | printIR
  | ownLiterals
  | column (width : Int)

namespace Switch

def arguments : Switch → List String
  | .pipeline items => ["--passes", Item.line items]
  | .configPath path => ["--pass-config", path]
  | .printMetrics => ["--print-metrics"]
  | .printIR => ["--print-ir"]
  | .ownLiterals => ["--no-intern-constants"]
  | .column width => ["--column-width", toString width]

def apply (r : Request) : Switch → Request
  | .pipeline items => { r with pipeline := some items }
  | .configPath path => { r with configPath := some path }
  | .printMetrics => { r with printMetrics := true }
  | .printIR => { r with printIR := true }
  | .ownLiterals => { r with ownLiterals := true }
  | .column width => { r with column := some width }

/-- A path is not taken for an option, and a column has no more digits than can be read. -/
def IsReadable : Switch → Prop
  | .configPath path => IsPlain path
  | .column width => Line.columnInRange width = true
  | _ => True

def words : Switch → List Word
  | .pipeline items =>
    [.option ⟨.pipeline, ["-passes", "--passes"], true⟩ none, .plain (Item.line items)]
  | .configPath path => [.option ⟨.configPath, ["--pass-config"], true⟩ none, .plain path]
  | .printMetrics => [.option ⟨.printMetrics, ["--print-metrics"], false⟩ none]
  | .printIR => [.option ⟨.printIR, ["--print-ir"], false⟩ none]
  | .ownLiterals => [.option ⟨.ownLiterals, ["--no-intern-constants"], false⟩ none]
  | .column width => [.option ⟨.column, ["--column-width"], true⟩ none, .plain (toString width)]

theorem classifyAll_cons {argument : String} {rest : List String} {word : Word} {more : List Word}
    (apart : argument ≠ "--") (first : classify argument = .ok word)
    (others : classifyAll rest = .ok more) :
    classifyAll (argument :: rest) = .ok (word :: more) := by
  rw [classifyAll, if_neg apart, first, others]
  rfl

theorem classifyAll_arguments {s : Switch} (readable : s.IsReadable) {rest : List String}
    {more : List Word} (others : classifyAll rest = .ok more) :
    classifyAll (s.arguments ++ rest) = .ok (s.words ++ more) := by
  cases s with
  | pipeline items =>
      have plain := Item.isPlain_line items
      exact classifyAll_cons (by decide) rfl
        (classifyAll_cons plain.not_separator plain.classify_eq others)
  | configPath path =>
      have plain : IsPlain path := readable
      exact classifyAll_cons (by decide) rfl
        (classifyAll_cons plain.not_separator plain.classify_eq others)
  | printMetrics | printIR | ownLiterals => exact classifyAll_cons (by decide) rfl others
  | column width =>
      obtain ⟨apart, plain⟩ := classify_toString width
      exact classifyAll_cons (by decide) rfl (classifyAll_cons apart plain others)

theorem read_column {width : Int} (inRange : Line.columnInRange width = true) :
    Text.Integer.read (toString width).toList = .ok width := by
  have short : ¬Nat.pow 10 Text.Integer.digitLimit ≤ width.natAbs := by
    have bound : width.natAbs < Nat.pow 10 20 := by
      simp only [Line.columnInRange, Bool.and_eq_true, decide_eq_true_eq] at inRange
      have twenty : Nat.pow 10 20 = 100000000000000000000 := by decide
      omega
    have wide : ∀ digits, 20 ≤ digits → Nat.pow 10 20 ≤ Nat.pow 10 digits :=
      fun _ => Nat.pow_le_pow_right (by decide)
    exact Nat.not_le.mpr (Nat.lt_of_lt_of_le bound (wide _ (by decide)))
  exact Text.Integer.read_of_write (by rw [Text.Integer.write, if_neg short])

theorem scan_words {s : Switch} (readable : s.IsReadable) (r : Request) (rest : List Word) :
    Arguments.scan { r.arguments with input := none } (s.words ++ rest) =
      Arguments.scan { (s.apply r).arguments with input := none } rest := by
  cases s with
  | column width =>
      have isRead : Text.Integer.read (toString width).toList = .ok width := read_column readable
      simp only [words, List.cons_append, List.nil_append, Arguments.scan, Arguments.setValue,
        isRead, bind, Except.bind]
      rfl
  | pipeline items => rfl
  | configPath path => rfl
  | printMetrics | printIR | ownLiterals => rfl

theorem classifyAll_flatMap {switches : List Switch} (readable : ∀ s ∈ switches, s.IsReadable)
    {rest : List String} {more : List Word} (others : classifyAll rest = .ok more) :
    classifyAll (switches.flatMap arguments ++ rest) = .ok (switches.flatMap words ++ more) := by
  induction switches with
  | nil => exact others
  | cons s switches ih =>
      obtain ⟨here, later⟩ := List.forall_mem_cons.mp readable
      rw [List.flatMap_cons, List.flatMap_cons, List.append_assoc, List.append_assoc]
      exact classifyAll_arguments here (ih later)

theorem scan_flatMap {switches : List Switch} (readable : ∀ s ∈ switches, s.IsReadable)
    (r : Request) (rest : List Word) :
    Arguments.scan { r.arguments with input := none } (switches.flatMap words ++ rest) =
      Arguments.scan { (switches.foldl apply r).arguments with input := none } rest := by
  induction switches generalizing r with
  | nil => rfl
  | cons s switches ih =>
      obtain ⟨here, later⟩ := List.forall_mem_cons.mp readable
      rw [List.flatMap_cons, List.append_assoc, scan_words here, List.foldl_cons, ih later]

end Switch

/-- A command line with options in any order, of which the last of its kind counts, and the input
behind them. -/
structure Request.Spelled (r : Request) (switches : List Switch) : Prop where
  readable : ∀ s ∈ switches, s.IsReadable
  plain : IsPlain r.input
  options : switches.foldl Switch.apply { input := r.input } = r

/-- The arguments of a spelled request are read as the request. -/
theorem Request.Spelled.read {r : Request} {switches : List Switch} (spelled : r.Spelled switches) :
    Arguments.read (switches.flatMap Switch.arguments ++ [r.input]) = .ok r.arguments := by
  have input : classifyAll [r.input] = .ok [.plain r.input] :=
    Switch.classifyAll_cons spelled.plain.not_separator spelled.plain.classify_eq rfl
  have scanned : Arguments.scan {} (switches.flatMap Switch.words ++ [.plain r.input]) =
      .ok r.arguments := by
    calc
      _ = Arguments.scan { ({ input := r.input } : Request).arguments with input := none }
            (switches.flatMap Switch.words ++ [.plain r.input]) := rfl
      _ = Arguments.scan { (switches.foldl Switch.apply { input := r.input }).arguments with
        input := none } [.plain r.input] :=
        Switch.scan_flatMap spelled.readable _ _
      _ = Arguments.scan { r.arguments with input := none } [.plain r.input] := by
        rw [spelled.options]
      _ = .ok r.arguments := rfl
  rw [Arguments.read, Switch.classifyAll_flatMap spelled.readable input]
  simp only [scanned]
  rfl

end ValueNumbering.CommandLine
