import ValueNumbering.Proofs.Assembly.Definitions
import ValueNumbering.Proofs.Assembly.RegularLines
import ValueNumbering.Proofs.Lists
import ValueNumbering.Proofs.Text.Words

/-!
The slots of parameters. Every parameter without a name, and every one that is named by a number,
takes the next slot and is named by it. Whether there is a name is told from the last word, so that
holds exactly as long as no parameter without a name has a type that ends in a word with a percent
sign in front.
-/

namespace ValueNumbering.Assembly

open Text

/-- What a parameter is named by. The mark of further arguments is no parameter. -/
inductive Naming
  | variadic
  | unnamed
  | named (name : List Char)
  | numbered (slot : Nat)
  deriving DecidableEq, Repr

def IsNumeric (name : List Char) : Prop := name ≠ [] ∧ ∀ c ∈ name, isDigit c = true

namespace Naming

def isArgument : Naming → Bool
  | .variadic => false
  | _ => true

def takesSlot : Naming → Bool
  | .unnamed | .numbered _ => true
  | _ => false

def own? : Naming → Option (List Char)
  | .named name => some name
  | _ => none

inductive Spelled : Naming → List Char → Prop
  | variadic : Spelled .variadic "...".toList
  | unnamed {text : List Char} (typed : words text ≠ []) (notDots : text ≠ "...".toList) :
      Spelled .unnamed text
  | named {text name : List Char} {type : List (List Char)} (typed : type ≠ [])
      (isText : words text = type ++ ['%' :: name])
      (notNumeric : ¬ IsNumeric name) : Spelled (.named name) text
  | numbered {text : List Char} {slot : Nat} {type : List (List Char)} (typed : type ≠ [])
      (isText : words text = type ++ ['%' :: slot.repr.toList]) : Spelled (.numbered slot) text

end Naming

/-- A parameter as it is written, and what is meant to name it. The text alone does not tell, as the
words of a type may begin with a percent sign as well. -/
structure DeclaredParameter where
  text : List Char
  naming : Naming
  spelled : naming.Spelled text

def slots (params : List DeclaredParameter) : Nat := params.countP (·.naming.takesSlot)

def argumentCount (params : List DeclaredParameter) : Nat := params.countP (·.naming.isArgument)

/-- No name is given twice, and a number is that of the slots before it. -/
structure DeclaredInOrder (params : List DeclaredParameter) : Prop where
  distinct : (params.filterMap (·.naming.own?)).Nodup
  inPlace : ∀ before param after slot, params = before ++ param :: after →
    param.naming = .numbered slot → slot = slots before

/-- The names of the arguments of some parameters: the name of its own, or the number of the slots
before it. -/
structure NamedInOrder (params : List DeclaredParameter) (names : List String) : Prop where
  length : names.length = argumentCount params
  own : ∀ before param after name, params = before ++ param :: after → param.naming = .named name →
    names[argumentCount before]? = some (String.ofList name)
  slot : ∀ before param after, params = before ++ param :: after → param.naming.takesSlot = true →
    names[argumentCount before]? = some (toString (slots before))

/-- No unnamed parameter ends in a word that looks like a name, unless it is the number of its
slot. -/
def Unmistaken (params : List DeclaredParameter) : Prop :=
  ∀ before param after, params = before ++ param :: after → param.naming = .unnamed →
    ∀ name, (words param.text).getLast? = some ('%' :: name) → name = (slots before).repr.toList

section Decidable

def Naming.number? : Naming → Option Nat
  | .numbered slot => some slot
  | _ => none

def markedName? (text : List Char) : Option (List Char) :=
  match (words text).getLast? with
  | some ('%' :: name) => some name
  | _ => none

theorem Naming.number?_eq_some_iff {naming : Naming} {slot : Nat} :
    naming.number? = some slot ↔ naming = .numbered slot := by
  cases naming <;> simp [number?]

theorem markedName?_eq_some_iff {text name : List Char} :
    markedName? text = some name ↔ (words text).getLast? = some ('%' :: name) := by
  unfold markedName?
  split
  · next isLast => simp [isLast]
  · next other => simpa using other name

instance (params : List DeclaredParameter) : Decidable (DeclaredInOrder params) :=
  decidable_of_iff ((params.filterMap (·.naming.own?)).Nodup ∧
      ∀ i : Fin params.length, ∀ slot ∈ (params.get i).naming.number?.toList,
        slot = slots (params.take i)) (by
    have places := @forall_split_iff _ params fun before param =>
      ∀ slot ∈ param.naming.number?.toList, slot = slots before
    simp only [Option.mem_toList, Naming.number?_eq_some_iff] at places ⊢
    rw [← places]
    exact ⟨fun ⟨distinct, inPlace⟩ =>
      ⟨distinct, fun before param after slot split => inPlace before param after split slot⟩,
      fun ⟨distinct, inPlace⟩ => ⟨distinct, fun before param after split slot =>
        inPlace before param after slot split⟩⟩)

instance (params : List DeclaredParameter) : Decidable (Unmistaken params) :=
  decidable_of_iff (∀ i : Fin params.length, (params.get i).naming = .unnamed →
      ∀ name ∈ (markedName? (params.get i).text).toList,
        name = (slots (params.take i)).repr.toList) (by
    have places := @forall_split_iff _ params fun before param =>
      param.naming = .unnamed → ∀ name ∈ (markedName? param.text).toList,
        name = (slots before).repr.toList
    simp only [Option.mem_toList, markedName?_eq_some_iff] at places ⊢
    rw [← places]
    rfl)

end Decidable

section Reading

variable {text name : List Char}

theorem Naming.Spelled.notDots {naming : Naming} (spelled : naming.Spelled text)
    (isArgument : naming.isArgument = true) :
    text ≠ "...".toList := by
  -- The dots are one word, which is no name.
  have apart (type : List (List Char)) (mark : List Char) :
      words "...".toList ≠ type ++ ['%' :: mark] := by
    intro same
    have last : (words "...".toList).getLast? = some ('%' :: mark) := by
      rw [same, List.getLast?_concat]
    have dots : (words "...".toList).getLast? = some "...".toList := by decide
    cases dots.symm.trans last
  cases spelled with
  | variadic => cases isArgument
  | unnamed _ notDots => exact notDots
  | named _ isText _ =>
      rintro rfl
      exact apart _ _ isText
  | numbered _ isText =>
      rintro rfl
      exact apart _ _ isText

theorem parameter_of_last (notDots : text ≠ "...".toList)
    (last : (words text).getLast? = some ('%' :: name)) :
    ∃ type, Parameter.read text = .ok (.named type name) := by
  obtain ⟨type, more, cut⟩ := List.exists_cons_of_ne_nil (l := words text)
    (by rintro none; simp [none] at last)
  have first : (words text).head? = some type := by rw [cut, List.head?_cons]
  exact ⟨type, by rw [Parameter.read, if_neg notDots]; simp [first, last]⟩

theorem last_of_named {type : List Char} (read : Parameter.read text = .ok (.named type name)) :
    (words text).getLast? = some ('%' :: name) := by
  unfold Parameter.read at read
  split at read
  · cases read
  · simp only at read
    split at read
    · next isLast =>
        cases read
        exact isLast
    · cases read
    · cases read

theorem parameter_of_no_mark (typed : words text ≠ []) (notDots : text ≠ "...".toList)
    (unmarked : ∀ name, (words text).getLast? ≠ some ('%' :: name)) :
    ∃ type, Parameter.read text = .ok (.unnamed type) := by
  obtain ⟨type, more, cut⟩ := List.exists_cons_of_ne_nil typed
  have first : (words text).head? = some type := by rw [cut, List.head?_cons]
  obtain ⟨word, last⟩ : ∃ word, (words text).getLast? = some word :=
    ⟨_, List.getLast?_eq_some_getLast typed⟩
  refine ⟨type, ?_⟩
  rw [Parameter.read, if_neg notDots]
  simp only [first, last]
  split
  · next same =>
      cases same
      exact absurd last (unmarked _)
  · next same _ =>
      cases same
      rfl
  · next impossible => exact absurd rfl (impossible _ _ rfl)

theorem variadic_iff (param : DeclaredParameter) :
    Parameter.read param.text = .ok .variadic ↔ param.naming.isArgument = false := by
  obtain ⟨text, naming, spelled⟩ := param
  constructor
  · intro read
    apply Bool.eq_false_iff.mpr
    intro isArgument
    have notDots := spelled.notDots isArgument
    simp only [Parameter.read, if_neg notDots] at read
    split at read <;> cases read
  · intro none
    cases spelled with
    | variadic => rfl
    | unnamed | named | numbered => cases none

end Reading

section Numbers

theorem isNumeric_repr (slot : Nat) : IsNumeric slot.repr.toList := by
  refine ⟨Integer.repr_ne_nil slot, fun c member => ?_⟩
  rw [isDigit, Integer.isDecimal_of_isDigit (Integer.allDigits_repr slot c member), Bool.true_or]

theorem slotAfter_of_not_numeric {name : List Char} (notNumeric : ¬ IsNumeric name) (slot : Nat) :
    slotAfter slot name = .ok slot := by
  have notDigits : (!name.isEmpty && name.all isDigit) ≠ true := by
    simpa [IsNumeric] using notNumeric
  rw [slotAfter, if_neg notDigits]

theorem slotAfter_eq {name : List Char} (numeric : IsNumeric name) (slot : Nat) :
    slotAfter slot name = (liftInteger (Integer.read name)).map fun n => n.toNat + 1 := by
  have digits : (!name.isEmpty && name.all isDigit) = true := by simpa [IsNumeric] using numeric
  rw [slotAfter, if_pos digits]
  cases liftInteger (Integer.read name) <;> rfl

theorem slotAfter_repr {slot : Nat} (small : slot < Nat.pow 10 Integer.digitLimit) :
    slotAfter slot slot.repr.toList = .ok (slot + 1) := by
  rw [slotAfter_eq (isNumeric_repr slot), Integer.read_repr small]
  rfl

theorem lt_of_slotAfter {slot next : Nat} (found : slotAfter slot slot.repr.toList = .ok next) :
    slot < Nat.pow 10 Integer.digitLimit := by
  apply Nat.lt_of_not_le
  intro long
  rw [slotAfter_eq (isNumeric_repr slot), Integer.read_repr_long long] at found
  cases found

theorem lt_of_slotText {slot : Nat} {name : String} (written : slotText slot = .ok name) :
    slot < Nat.pow 10 Integer.digitLimit := by
  apply Nat.lt_of_not_le
  intro long
  rw [slotText, Integer.write, Int.natAbs_natCast, if_pos long] at written
  cases written

end Numbers

namespace DeclaredParameter

def nameAt (param : DeclaredParameter) (slot : Nat) : Option String :=
  match param.naming with
  | .variadic => none
  | .named name => some (String.ofList name)
  | .unnamed | .numbered _ => some (toString slot)

/-- At this slot the parameter is taken for what it is meant to be. -/
def FitsAt (param : DeclaredParameter) (slot : Nat) : Prop :=
  match param.naming with
  | .numbered number => number = slot
  | .unnamed => ∀ name, (words param.text).getLast? = some ('%' :: name) → name = slot.repr.toList
  | _ => True

theorem name_of_fits {param : DeclaredParameter} {slot : Nat} (fits : param.FitsAt slot)
    (takes : param.naming.takesSlot = true) {type name : List Char}
    (read : Parameter.read param.text = .ok (.named type name)) : name = slot.repr.toList := by
  have last := last_of_named read
  obtain ⟨text, naming, spelled⟩ := param
  cases naming with
  | variadic | named => cases takes
  | unnamed => exact fits name last
  | numbered number =>
      obtain rfl : number = slot := fits
      cases spelled with
      | numbered _ isText =>
          rw [isText, List.getLast?_concat] at last
          exact (List.cons.inj (Option.some.inj last)).2.symm

theorem nameAt_eq_none_iff (param : DeclaredParameter) (slot : Nat) :
    param.nameAt slot = none ↔ param.naming.isArgument = false := by
  unfold nameAt
  cases param.naming <;> simp [Naming.isArgument]

theorem nameAt_of_takesSlot {param : DeclaredParameter} (takes : param.naming.takesSlot = true)
    (slot : Nat) :
    param.nameAt slot = some (toString slot) := by
  unfold nameAt
  cases naming : param.naming with
  | unnamed | numbered => rfl
  | variadic | named => simp [naming, Naming.takesSlot] at takes

end DeclaredParameter

section Adding

variable {line : Nat} {signature : Signature} {names : Names} {defined : List String}
    {param : DeclaredParameter}

/-- The texts add arguments with these names, and take so many slots. -/
structure Adds (line : Nat) (signature : Signature) (names : Names) (defined : List String)
    (texts : List (List Char)) (made : List String) (taken : Nat) (signature' : Signature)
    (after : Names) : Prop where
  read : addPieces line signature names texts = .ok (signature', after)
  arguments : signature'.arguments.map (·.name) = signature.arguments.map (·.name) ++ made
  slot : signature'.slot = signature.slot + taken
  accounted : Accounted after (defined ++ made)
  settled : after.pending = ∅

theorem adds_argument (accounted : Accounted names defined) (settled : names.pending = ∅)
    {text : List Char} {parameter : Parameter} (read : Parameter.read text = .ok parameter)
    {taken : Nat} {name type : String}
    (comes : addParameter line signature names parameter =
      addArgument line { signature with slot := signature.slot + taken } names name type)
    (new : name ∉ defined) :
    ∃ signature' after, Adds line signature names defined [text] [name] taken signature' after := by
  obtain ⟨arg, after, one, isName, -, accounted', -, settled'⟩ :=
    accounted.addArgument settled new line { signature with slot := signature.slot + taken } type
  exact ⟨_, after, bind_eq_ok.mpr ⟨parameter, read, bind_eq_ok.mpr ⟨_, comes.trans one, rfl⟩⟩,
    by simp [isName], rfl, accounted', settled'⟩

theorem addParameter_number (small : signature.slot < Nat.pow 10 Integer.digitLimit)
    (type : List Char) :
    addParameter line signature names (.named type signature.slot.repr.toList) =
      addArgument line { signature with slot := signature.slot + 1 } names (toString signature.slot)
        (String.ofList type) := by
  have sameName : String.ofList signature.slot.repr.toList = toString signature.slot :=
    String.ofList_toList
  rw [addParameter, slotAfter_repr small, sameName]
  rfl

theorem addParameter_unnamed (small : signature.slot < Nat.pow 10 Integer.digitLimit)
    (type : List Char) :
    addParameter line signature names (.unnamed type) =
      addArgument line { signature with slot := signature.slot + 1 } names (toString signature.slot)
        (String.ofList type) := by
  rw [addParameter, slotText_of_lt small]
  rfl

theorem addParameter_named {name : List Char} (notNumeric : ¬ IsNumeric name) (type : List Char) :
    addParameter line signature names (.named type name) =
      addArgument line { signature with slot := signature.slot + 0 } names (String.ofList name)
        (String.ofList type) := by
  rw [addParameter, slotAfter_of_not_numeric notNumeric]
  rfl

theorem adds_declared (accounted : Accounted names defined) (settled : names.pending = ∅)
    (fits : param.FitsAt signature.slot)
    (small : signature.slot + slots [param] ≤ Nat.pow 10 Integer.digitLimit)
    (new : ∀ name ∈ param.nameAt signature.slot, name ∉ defined) :
    ∃ signature' after,
      Adds line signature names defined [param.text] (param.nameAt signature.slot).toList
        (slots [param]) signature' after := by
  obtain ⟨text, naming, spelled⟩ := param
  have ends {type : List (List Char)} {mark : List Char}
      (isText : words text = type ++ ['%' :: mark]) :
      (words text).getLast? = some ('%' :: mark) := by rw [isText, List.getLast?_concat]
  cases naming with
  | variadic =>
      cases spelled
      exact ⟨signature, names, rfl, by simp [DeclaredParameter.nameAt], rfl,
        by simpa [DeclaredParameter.nameAt] using accounted, settled⟩
  | named name =>
      have notDots := spelled.notDots rfl
      cases spelled with
      | named _ isText notNumeric =>
          obtain ⟨type, read⟩ := parameter_of_last notDots (ends isText)
          exact adds_argument accounted settled read (addParameter_named notNumeric type)
            (new _ rfl)
  | numbered number =>
      have notDots := spelled.notDots rfl
      obtain rfl : number = signature.slot := fits
      cases spelled with
      | numbered _ isText =>
          obtain ⟨type, read⟩ := parameter_of_last notDots (ends isText)
          exact adds_argument accounted settled read (addParameter_number small type) (new _ rfl)
  | unnamed =>
      cases spelled with
      | unnamed typed notDots =>
          by_cases last : ∃ name, (words text).getLast? = some ('%' :: name)
          · obtain ⟨name, last⟩ := last
            obtain ⟨type, read⟩ := parameter_of_last notDots (fits name last ▸ last)
            exact adds_argument accounted settled read (addParameter_number small type) (new _ rfl)
          · obtain ⟨type, read⟩ := parameter_of_no_mark typed notDots (not_exists.mp last)
            exact adds_argument accounted settled read (addParameter_unnamed small type) (new _ rfl)

theorem lt_of_addParameter {parameter : Parameter} {next : Signature × Names}
    (fits : param.FitsAt signature.slot) (takes : param.naming.takesSlot = true)
    (read : Parameter.read param.text = .ok parameter)
    (added : addParameter line signature names parameter = .ok next) :
    signature.slot < Nat.pow 10 Integer.digitLimit := by
  cases parameter with
  | variadic =>
      have none := (variadic_iff param).mp read
      cases naming : param.naming <;>
        simp [naming, Naming.isArgument, Naming.takesSlot] at none takes
  | unnamed type =>
      obtain ⟨name, written, -⟩ := bind_eq_ok.mp added
      exact lt_of_slotText written
  | named type name =>
      obtain ⟨slot, found, -⟩ := bind_eq_ok.mp added
      obtain rfl := DeclaredParameter.name_of_fits fits takes read
      exact lt_of_slotAfter found

end Adding

def namesFrom (slot : Nat) : List DeclaredParameter → List String
  | [] => []
  | param :: more => (param.nameAt slot).toList ++ namesFrom (slot + slots [param]) more

section NamesFrom

variable {params before after : List DeclaredParameter} {param : DeclaredParameter}

theorem slots_append (before after : List DeclaredParameter) :
    slots (before ++ after) = slots before + slots after :=
  List.countP_append

theorem slots_cons (param : DeclaredParameter) (more : List DeclaredParameter) :
    slots (param :: more) = slots [param] + slots more :=
  slots_append [param] more

theorem argumentCount_cons (param : DeclaredParameter) (more : List DeclaredParameter) :
    argumentCount (param :: more) = argumentCount [param] + argumentCount more := by
  rw [← List.singleton_append, argumentCount, List.countP_append]
  rfl

theorem slots_of_takesSlot (takes : param.naming.takesSlot = true) : slots [param] = 1 := by
  simp [slots, takes]

theorem length_nameAt (param : DeclaredParameter) (slot : Nat) :
    (param.nameAt slot).toList.length = argumentCount [param] := by
  have none_iff := param.nameAt_eq_none_iff slot
  cases name : param.nameAt slot with
  | none => simp [argumentCount, none_iff.mp name]
  | some name' => simpa [argumentCount, name] using none_iff

theorem length_namesFrom (slot : Nat) (params : List DeclaredParameter) :
    (namesFrom slot params).length = argumentCount params := by
  induction params generalizing slot with
  | nil => rfl
  | cons param more ih =>
    rw [namesFrom, List.length_append, length_nameAt, ih, ← argumentCount_cons]

theorem namesFrom_append (slot : Nat) (before after : List DeclaredParameter) :
    namesFrom slot (before ++ after) =
      namesFrom slot before ++ namesFrom (slot + slots before) after := by
  induction before generalizing slot with
  | nil => rfl
  | cons param more ih => rw [List.cons_append, namesFrom, namesFrom, ih, slots_cons param more,
      List.append_assoc, Nat.add_assoc]

theorem getElem?_namesFrom {name : String} (before after : List DeclaredParameter)
    (named : param.nameAt (slots before) = some name) :
    (namesFrom 0 (before ++ param :: after))[argumentCount before]? = some name := by
  rw [namesFrom_append, List.getElem?_append_right (by rw [length_namesFrom]), length_namesFrom,
    Nat.sub_self, Nat.zero_add, namesFrom, named]
  rfl

theorem namedInOrder_namesFrom (params : List DeclaredParameter) :
    NamedInOrder params (namesFrom 0 params) where
  length := length_namesFrom 0 params
  own := by
    rintro before param after name rfl naming
    exact getElem?_namesFrom before after (by simp [DeclaredParameter.nameAt, naming])
  slot := by
    rintro before param after rfl takes
    exact getElem?_namesFrom before after (DeclaredParameter.nameAt_of_takesSlot takes _)

theorem mem_namesFrom {slot : Nat} {name : String} (member : name ∈ namesFrom slot params) :
    (∃ own ∈ params.filterMap (·.naming.own?), name = String.ofList own ∧ ¬ IsNumeric own) ∨
      ∃ number, slot ≤ number ∧ name = toString number := by
  induction params generalizing slot with
  | nil => cases member
  | cons param more ih =>
      rcases List.mem_append.mp member with here | later
      · obtain ⟨text, naming, spelled⟩ := param
        cases naming with
        | variadic => cases here
        | unnamed | numbered => exact Or.inr ⟨slot, Nat.le_refl _, List.mem_singleton.mp here⟩
        | named own =>
            cases spelled with
            | named _ _ notNumeric =>
                exact Or.inl ⟨own, List.mem_cons_self .., List.mem_singleton.mp here, notNumeric⟩
      · rcases ih later with ⟨own, isOwn, same, notNumeric⟩ | ⟨number, above, same⟩
        · refine Or.inl ⟨own, ?_, same, notNumeric⟩
          rw [List.filterMap_cons]
          split
          · exact isOwn
          · exact List.mem_cons_of_mem _ isOwn
        · exact Or.inr ⟨number, by omega, same⟩

theorem ne_toString_of_not_numeric {own : List Char} (notNumeric : ¬ IsNumeric own) (number : Nat) :
    String.ofList own ≠ toString number := by
  intro same
  apply notNumeric
  have texts : own = number.repr.toList := by rw [← String.toList_ofList (l := own), same]; rfl
  rw [texts]
  exact isNumeric_repr number

theorem nodup_namesFrom (distinct : (params.filterMap (·.naming.own?)).Nodup) (slot : Nat) :
    (namesFrom slot params).Nodup := by
  induction params generalizing slot with
  | nil => exact List.nodup_nil
  | cons param more ih =>
      rw [List.filterMap_cons] at distinct
      refine List.nodup_append.mpr ⟨by cases param.nameAt slot <;> simp, ih ?_ _, ?_⟩
      · split at distinct
        · exact distinct
        · exact (List.nodup_cons.mp distinct).2
      · rintro name here other later rfl
        obtain ⟨text, naming, spelled⟩ := param
        cases naming with
        | variadic => cases here
        | named own =>
            obtain rfl := List.mem_singleton.mp here
            cases spelled with
            | named _ _ notNumeric =>
                rcases mem_namesFrom later with ⟨other, isOther, same, -⟩ | ⟨number, -, same⟩
                · exact (List.nodup_cons.mp distinct).1 (String.ofList_injective same ▸ isOther)
                · exact ne_toString_of_not_numeric notNumeric number same
        | unnamed | numbered =>
            obtain rfl := List.mem_singleton.mp here
            rcases mem_namesFrom later with ⟨own, -, same, notNumeric⟩ | ⟨number, above, same⟩
            · exact ne_toString_of_not_numeric notNumeric slot same.symm
            · obtain rfl : slot = number := Integer.repr_inj (congrArg String.toList same)
              rw [slots_of_takesSlot rfl] at above
              omega

end NamesFrom

section Lists

variable {line : Nat} {signature signature' : Signature} {names after : Names}
    {defined : List String} {front rest : List (List Char)}

theorem addPieces_append (first : addPieces line signature names front = .ok (signature', after))
    (rest : List (List Char)) :
    addPieces line signature names (front ++ rest) = addPieces line signature' after rest := by
  induction front generalizing signature names with
  | nil =>
      cases first
      rfl
  | cons piece more ih =>
      obtain ⟨parameter, read, others⟩ := bind_eq_ok.mp first
      obtain ⟨⟨middle, between⟩, one, last⟩ := bind_eq_ok.mp others
      rw [List.cons_append, addPieces, read]
      simp only [Bind.bind, Except.bind, one]
      exact ih last

theorem addPieces_split {last : Signature × Names}
    (read : addPieces line signature names (front ++ rest) = .ok last) :
    ∃ middle, addPieces line signature names front = .ok middle ∧
      addPieces line middle.1 middle.2 rest = .ok last := by
  induction front generalizing signature names with
  | nil => exact ⟨(signature, names), rfl, read⟩
  | cons piece more ih =>
      obtain ⟨parameter, first, others⟩ := bind_eq_ok.mp read
      obtain ⟨next, one, rest⟩ := bind_eq_ok.mp others
      obtain ⟨middle, before, behind⟩ := ih rest
      exact ⟨middle, bind_eq_ok.mpr ⟨parameter, first, bind_eq_ok.mpr ⟨next, one, before⟩⟩, behind⟩

theorem Adds.append {made made' : List String} {taken taken' : Nat} {last : Signature}
    {final : Names} (adds : Adds line signature names defined front made taken signature' after)
    (more : Adds line signature' after (defined ++ made) rest made' taken' last final) :
    Adds line signature names defined (front ++ rest) (made ++ made') (taken + taken')
      last final where
  read := (addPieces_append adds.read rest).trans more.read
  arguments := by rw [more.arguments, adds.arguments, List.append_assoc]
  slot := by rw [more.slot, adds.slot, Nat.add_assoc]
  accounted := by
    rw [← List.append_assoc]
    exact more.accounted
  settled := more.settled

structure Ready (signature : Signature) (names : Names) (defined : List String)
    (params : List DeclaredParameter) : Prop where
  accounted : Accounted names defined
  settled : names.pending = ∅
  fits : ∀ before param after, params = before ++ param :: after →
    param.FitsAt (signature.slot + slots before)
  new : (defined ++ namesFrom signature.slot params).Nodup

theorem Ready.adds_first {param : DeclaredParameter} {more : List DeclaredParameter}
    (ready : Ready signature names defined (param :: more))
    (few : signature.slot + slots [param] ≤ Nat.pow 10 Integer.digitLimit) (line : Nat) :
    ∃ middle between,
      Adds line signature names defined [param.text] (param.nameAt signature.slot).toList
        (slots [param]) middle between ∧
      Ready middle between (defined ++ (param.nameAt signature.slot).toList) more := by
  have new := ready.new
  rw [namesFrom, ← List.append_assoc] at new
  have apart : ∀ name ∈ param.nameAt signature.slot, name ∉ defined := by
    intro name isName member
    exact (List.nodup_append.mp (List.nodup_append.mp new).1).2.2 name member name
      (by simpa using isName) rfl
  obtain ⟨middle, between, first⟩ :=
    @adds_declared line _ _ _ _ ready.accounted ready.settled (ready.fits [] param more rfl)
      few apart
  refine ⟨middle, between, first, first.accounted, first.settled, ?_, by rwa [first.slot]⟩
  intro before other behind split
  have here := ready.fits (param :: before) other behind (by rw [split, List.cons_append])
  rwa [slots_cons, ← Nat.add_assoc, ← first.slot] at here

/-- Parameters that fit their places make the arguments that they are meant to. -/
theorem Ready.adds {params : List DeclaredParameter} (ready : Ready signature names defined params)
    (few : signature.slot + slots params ≤ Nat.pow 10 Integer.digitLimit) (line : Nat) :
    ∃ signature' after, Adds line signature names defined (params.map (·.text))
      (namesFrom signature.slot params) (slots params)
      signature' after := by
  induction params generalizing signature names defined with
  | nil =>
      exact ⟨signature, names, rfl, by simp [namesFrom], rfl,
        by simpa [namesFrom] using ready.accounted, ready.settled⟩
  | cons param more ih =>
      rw [slots_cons] at few ⊢
      obtain ⟨middle, between, first, next⟩ := ready.adds_first (by omega) line
      obtain ⟨last, final, others⟩ := ih next (by rw [first.slot]; omega)
      rw [first.slot] at others
      exact ⟨last, final, first.append others⟩

theorem Ready.slots_le {params : List DeclaredParameter} {last : Signature × Names}
    (ready : Ready signature names defined params)
    (room : signature.slot ≤ Nat.pow 10 Integer.digitLimit)
    (added : addPieces line signature names (params.map (·.text)) = .ok last) :
    signature.slot + slots params ≤ Nat.pow 10 Integer.digitLimit := by
  induction params generalizing signature names defined with
  | nil => exact room
  | cons param more ih =>
      obtain ⟨parameter, read, others⟩ := bind_eq_ok.mp added
      obtain ⟨⟨middle, between⟩, one, behind⟩ := bind_eq_ok.mp others
      have here : signature.slot + slots [param] ≤ Nat.pow 10 Integer.digitLimit := by
        cases takes : param.naming.takesSlot with
        | false => simpa [slots, takes] using room
        | true =>
            rw [slots_of_takesSlot takes]
            exact lt_of_addParameter (ready.fits [] param more rfl) takes read one
      obtain ⟨_, _, first, next⟩ := ready.adds_first here line
      obtain ⟨_, read', others'⟩ := bind_eq_ok.mp first.read
      obtain ⟨_, one', same⟩ := bind_eq_ok.mp others'
      cases same
      cases read.symm.trans read'
      cases one.symm.trans one'
      rw [slots_cons, ← Nat.add_assoc, ← first.slot]
      exact ih next (by rwa [first.slot]) behind

theorem addParameter_grows {param : DeclaredParameter} {parameter : Parameter}
    (read : Parameter.read param.text = .ok parameter)
    (added : addParameter line signature names parameter = .ok (signature', after)) :
    ∃ more, signature'.arguments = signature.arguments ++ more ∧
      more.length = argumentCount [param] := by
  have one (isParameter : parameter ≠ .variadic) : argumentCount [param] = 1 := by
    have isArgument : param.naming.isArgument = true := by
      apply Bool.of_not_eq_false
      intro none
      exact isParameter (Except.ok.inj (read.symm.trans ((variadic_iff param).mpr none)))
    simp [argumentCount, isArgument]
  cases parameter with
  | variadic =>
      cases added
      have none := (variadic_iff param).mp read
      exact ⟨[], by simp, by simp [argumentCount, none]⟩
  | unnamed type =>
      obtain ⟨name, -, made⟩ := bind_eq_ok.mp added
      exact ⟨_, (addArgument_ok made).2.1, (one (by simp)).symm⟩
  | named type name =>
      obtain ⟨slot, -, made⟩ := bind_eq_ok.mp added
      exact ⟨_, (addArgument_ok made).2.1, (one (by simp)).symm⟩

theorem addPieces_grows {params : List DeclaredParameter}
    (added : addPieces line signature names (params.map (·.text)) = .ok (signature', after)) :
    ∃ more, signature'.arguments = signature.arguments ++ more ∧
      more.length = argumentCount params := by
  induction params generalizing signature names with
  | nil =>
      cases added
      exact ⟨[], by simp, rfl⟩
  | cons param params ih =>
      obtain ⟨parameter, read, others⟩ := bind_eq_ok.mp added
      obtain ⟨⟨middle, between⟩, one, last⟩ := bind_eq_ok.mp others
      obtain ⟨here, isHere, count⟩ := addParameter_grows read one
      obtain ⟨later, isLater, count'⟩ := ih last
      refine ⟨here ++ later, by rw [isLater, isHere, List.append_assoc], ?_⟩
      rw [List.length_append, count, count', ← argumentCount_cons]

/-- Whatever it is meant to be, a parameter is named by its last word where that is marked as a
name. -/
theorem named_by_last {before rest : List DeclaredParameter} {param : DeclaredParameter}
    {name : List Char}
    (added : addPieces line {} names ((before ++ param :: rest).map (·.text)) =
      .ok (signature', after))
    (isArgument : param.naming.isArgument = true)
    (last : (words param.text).getLast? = some ('%' :: name)) :
    (signature'.arguments.map (·.name))[argumentCount before]? = some (String.ofList name) := by
  rw [List.map_append] at added
  obtain ⟨⟨middle, between⟩, first, others⟩ := addPieces_split added
  obtain ⟨early, isEarly, count⟩ := addPieces_grows first
  obtain ⟨type, read⟩ := parameter_of_last (param.spelled.notDots isArgument) last
  obtain ⟨parameter, read', behind⟩ := bind_eq_ok.mp others
  cases read.symm.trans read'
  obtain ⟨⟨next, beyond⟩, one, final⟩ := bind_eq_ok.mp behind
  obtain ⟨slot, -, made⟩ := bind_eq_ok.mp one
  obtain ⟨later, isLater, -⟩ := addPieces_grows final
  rw [isLater, (addArgument_ok made).2.1, isEarly, ← count]
  simp

end Lists

end ValueNumbering.Assembly
