import ValueNumbering.Proofs.Numbering.NumbersHeld
import ValueNumbering.Proofs.Numbering.StoredNumbers
import ValueNumbering.Proofs.Text.Integer

/-!
What a diagnostic line tells. After the text of the instruction come the numbers in decimal, each
ended by a blank or by the end of the line. A pointer without a number is shown as zero, which is no
number of a run, so the line tells the whole decision.
-/

namespace ValueNumbering

namespace Text

theorem append_inj_of_no_blank {front front' rest rest' : List Char} (solid : ' ' ∉ front)
    (solid' : ' ' ∉ front') (ends : ∀ c, rest.head? = some c → c = ' ')
    (ends' : ∀ c, rest'.head? = some c → c = ' ') (same : front ++ rest = front' ++ rest') :
    front = front' ∧ rest = rest' := by
  have cut : ∀ {front rest : List Char}, ' ' ∉ front → (∀ c, rest.head? = some c → c = ' ') →
      (front ++ rest).span (· != ' ') = (front, rest) := by
    intro front rest solid ends
    refine span_append (fun c member => ?_) fun c isHead => ?_
    · exact bne_iff_ne.mpr (ne_of_mem_of_not_mem member solid)
    · simp [ends c isHead]
  have both := (cut solid ends).symm.trans (same ▸ cut solid' ends')
  exact Prod.mk.inj both

theorem last_word_inj {front front' last last' : List Char} (solid : ' ' ∉ last)
    (solid' : ' ' ∉ last') (same : front ++ ' ' :: last = front' ++ ' ' :: last') :
    last = last' := by
  have backwards : last.reverse ++ ' ' :: front.reverse =
      last'.reverse ++ ' ' :: front'.reverse := by
    simpa using congrArg List.reverse same
  have words := append_inj_of_no_blank (by simpa using solid) (by simpa using solid') (by simp)
    (by simp) backwards
  exact List.reverse_injective words.1

namespace Integer

theorem toString_injective {a b : Int}
    (same : (toString a).toList = (toString b).toList) : a = b := by
  have noSign (n : Nat) : '-' ∉ n.repr.toList := by
    intro member
    exact absurd (allDigits_repr n '-' member) (by decide)
  cases a with
  | ofNat m =>
      cases b with
      | ofNat n => exact congrArg Int.ofNat (repr_inj same)
      | negSucc n =>
          have signed : m.repr.toList = '-' :: (n + 1).repr.toList :=
            same.trans (toString_negSucc n)
          exact absurd (signed ▸ List.mem_cons_self ..) (noSign m)
  | negSucc m =>
      cases b with
      | ofNat n =>
          have signed : n.repr.toList = '-' :: (m + 1).repr.toList :=
            same.symm.trans (toString_negSucc m)
          exact absurd (signed ▸ List.mem_cons_self ..) (noSign n)
      | negSucc n =>
          rw [toString_negSucc, toString_negSucc] at same
          rw [Nat.succ.inj (repr_inj (List.cons.inj same).2)]

theorem no_blank_toString (n : Int) : ' ' ∉ (toString n).toList := by
  have digits (m : Nat) : ' ' ∉ m.repr.toList :=
    fun member => absurd (allDigits_repr m ' ' member) (by decide)
  cases n with
  | ofNat m => exact digits m
  | negSucc m =>
      rw [toString_negSucc]
      simpa using digits (m + 1)

theorem toString_append_inj {a b : Int} {rest rest' : List Char}
    (ends : ∀ c, rest.head? = some c → c = ' ') (ends' : ∀ c, rest'.head? = some c → c = ' ')
    (same : (toString a).toList ++ rest = (toString b).toList ++ rest') :
    a = b ∧ rest = rest' := by
  obtain ⟨number, more⟩ := append_inj_of_no_blank (no_blank_toString a) (no_blank_toString b)
    ends ends' same
  exact ⟨toString_injective number, more⟩

end Integer

end Text

/-- The decisions that there are for an opcode. What is stored through a pointer has a number other
than zero. -/
inductive Decision.Fits : Opcode → Decision → Prop
  | store (number : Int) : Fits .store ⟨number, [some number], false⟩
  | written (number : Int) (nonzero : number ≠ 0) : Fits .load ⟨number, [some number], false⟩
  | unwritten (number : Int) : Fits .load ⟨number, [none], false⟩
  | binary {opcode : Opcode} (isBinary : opcode.isBinary = true) (number lhs rhs : Int)
      (redundant : Bool) :
      Fits opcode ⟨number, [some lhs, some rhs], redundant⟩

theorem Knowledge.exists_operands_compute (k : Knowledge) (opcode : Opcode)
    (result lhs rhs : Value) :
    ∃ number left right redundant,
      (k.compute opcode result lhs rhs).1 = ⟨number, [some left, some right], redundant⟩ := by
  rcases resolved : k.store.resolve lhs with ⟨left, first⟩
  rcases resolved' : first.resolve rhs with ⟨right, second⟩
  cases found : k.table.find? (Expression.canonical opcode left right) with
  | some number => exact ⟨number, left, right, true, by rw [compute_known resolved resolved' found]⟩
  | none => exact ⟨second.next, left, right, false, by rw [compute_new resolved resolved' found]⟩

theorem Knowledge.exists_number_loadFrom (k : Knowledge) (result pointer : Value) :
    ∃ number, (k.loadFrom result pointer).1 = ⟨number, [k.store.pointerNumber pointer], false⟩ := by
  cases found : k.store.pointerNumber pointer with
  | some number => exact ⟨number, by rw [loadFrom_written found]⟩
  | none => exact ⟨k.store.next, by rw [loadFrom_unwritten found]⟩

theorem Knowledge.Orderly.fits {k : Knowledge} (orderly : Orderly k) {inst : Instruction}
    {action : Action} (performs : inst.Performs action) :
    Decision.Fits inst.opcode (k.perform action).1 := by
  cases performs with
  | store opcode first last =>
      rw [opcode]
      exact .store _
  | @load pointer opcode last =>
      rw [opcode, Knowledge.perform]
      cases found : k.store.pointerNumber pointer.value with
      | some number =>
          have gave : k.store.Gave number := orderly.held (.pointer pointer.value) number found
          rw [loadFrom_written found]
          exact .written number (by rintro rfl; exact absurd gave.1 (by decide))
      | none =>
          rw [loadFrom_unwritten found]
          exact .unwritten _
  | @binary lhs rhs isBinary both =>
      obtain ⟨number, left, right, redundant, decided⟩ :=
        k.exists_operands_compute inst.opcode inst.result lhs.value rhs.value
      rw [Knowledge.perform, decided]
      exact .binary isBinary number left right redundant

namespace Line

/-- What a line tells after the text of its instruction. -/
def tail (opcode : Opcode) (decision : Decision) : String :=
  match opcode, decision.operands with
  | .store, _ => storeTail decision.number decision.number
  | .load, pointer :: _ => loadTail decision.number pointer
  | opcode, [some lhs, some rhs] => binaryTail opcode decision.number lhs rhs decision.redundant
  | _, _ => ""

theorem ofDecision_eq (inst : Instruction) (decision : Decision) (column : Int) :
    ofDecision inst decision column =
      (padded inst column).map (· ++ tail inst.opcode decision) := by
  obtain ⟨number, operands, redundant⟩ := decision
  unfold ofDecision tail
  cases padded : padded inst column with
  | error fault => split <;> simp [store, load, binary, padded, bind, Except.bind, Except.map]
  | ok text =>
    split <;> simp_all [store, load, binary, bind, Except.bind, Except.map, pure, Except.pure]

theorem of_ofDecision {inst : Instruction} {decision : Decision} {column : Int} {line : String}
    (shown : ofDecision inst decision column = .ok line) :
    ∃ text, inst.written = .ok text ∧ line = pad text column ++ tail inst.opcode decision := by
  rw [ofDecision_eq] at shown
  unfold padded at shown
  split at shown
  · cases shown
  · next text written =>
      split at shown
      · exact ⟨text, written, (Except.ok.inj shown).symm⟩
      · cases shown

theorem toList_storeTail (first second : Int) :
    (storeTail first second).toList =
      ' ' :: ((toString first).toList ++ ' ' :: '=' :: ' ' :: (toString second).toList) := by
  simp only [storeTail, String.toList_append, List.append_assoc]
  rfl

theorem toList_binaryTail (opcode : Opcode) (number lhs rhs : Int) (redundant : Bool) :
    (binaryTail opcode number lhs rhs redundant).toList =
      ' ' :: ((toString number).toList ++ ' ' :: '=' :: ' ' ::
        ((toString lhs).toList ++ ' ' :: (opcode.label.toList ++
        ' ' :: ((toString rhs).toList ++ (if redundant then " (redundant)" else "").toList)))) := by
  simp only [binaryTail, String.toList_append, List.append_assoc]
  rfl

theorem storeTail_inj {first first' second second' : Int}
    (same : storeTail first second = storeTail first' second') :
    first = first' ∧ second = second' := by
  have texts := congrArg String.toList same
  rw [toList_storeTail, toList_storeTail] at texts
  obtain ⟨isFirst, more⟩ := Text.Integer.toString_append_inj (by simp) (by simp)
    (List.cons.inj texts).2
  simp only [List.cons.injEq, true_and] at more
  exact ⟨isFirst, Text.Integer.toString_injective more⟩

theorem binaryTail_inj {opcode : Opcode} {number number' lhs lhs' rhs rhs' : Int}
    {redundant redundant' : Bool}
    (same : binaryTail opcode number lhs rhs redundant =
      binaryTail opcode number' lhs' rhs' redundant') :
    number = number' ∧ lhs = lhs' ∧ rhs = rhs' ∧ redundant = redundant' := by
  have suffix (flag : Bool) : ∀ c, (if flag then " (redundant)" else "").toList.head? = some c →
      c = ' ' := by
    cases flag <;> simp
  have texts := congrArg String.toList same
  rw [toList_binaryTail, toList_binaryTail] at texts
  obtain ⟨isNumber, afterNumber⟩ :=
    Text.Integer.toString_append_inj (by simp) (by simp) (List.cons.inj texts).2
  simp only [List.cons.injEq, true_and] at afterNumber
  obtain ⟨isLeft, afterLeft⟩ := Text.Integer.toString_append_inj (by simp) (by simp) afterNumber
  simp only [List.cons.injEq, List.append_cancel_left_eq, true_and] at afterLeft
  obtain ⟨isRight, afterRight⟩ :=
    Text.Integer.toString_append_inj (suffix redundant) (suffix redundant') afterLeft
  refine ⟨isNumber, isLeft, isRight, ?_⟩
  cases redundant <;> cases redundant' <;> simp at afterRight ⊢

theorem ends_zero_iff (front : String) (first second : Int) :
    " = 0".toList <:+ (front ++ storeTail first second).toList ↔ second = 0 := by
  have zero : " = 0".toList = [' ', '='] ++ ' ' :: (toString (0 : Int)).toList := rfl
  have ends : (front ++ storeTail first second).toList =
      (front.toList ++ ' ' :: ((toString first).toList ++ [' ', '='])) ++ ' ' ::
        (toString second).toList := by
    simp [toList_storeTail]
  constructor
  · rintro ⟨before, same⟩
    rw [ends, zero, ← List.append_assoc] at same
    exact (Text.Integer.toString_injective (Text.last_word_inj (Text.Integer.no_blank_toString 0)
      (Text.Integer.no_blank_toString second) same)).symm
  · rintro rfl
    exact ⟨front.toList ++ ' ' :: (toString first).toList, by rw [ends, zero]; simp⟩

/-- The tails for one opcode tell the decisions for it apart. -/
theorem tail_inj {opcode : Opcode} {decision decision' : Decision}
    (fits : Decision.Fits opcode decision) (fits' : Decision.Fits opcode decision')
    (same : tail opcode decision = tail opcode decision') : decision = decision' := by
  have notBinary : ∀ {opcode : Opcode}, opcode.isBinary = true → opcode ≠ .store ∧
      opcode ≠ .load := by
    intro opcode isBinary
    cases opcode <;> simp_all [Opcode.isBinary]
  cases fits with
  | store number =>
      cases fits' with
      | store number' =>
          obtain rfl : number = number' := (storeTail_inj same).1
          rfl
      | binary isBinary => exact absurd rfl (notBinary isBinary).1
  | written number nonzero =>
      cases fits' with
      | written number' nonzero' =>
          obtain rfl : number = number' := (storeTail_inj same).1
          rfl
      | unwritten number' => exact absurd (storeTail_inj same).2 nonzero
      | binary isBinary => exact absurd rfl (notBinary isBinary).2
  | unwritten number =>
      cases fits' with
      | written number' nonzero => exact absurd (storeTail_inj same).2.symm nonzero
      | unwritten number' =>
          obtain rfl : number = number' := (storeTail_inj same).1
          rfl
      | binary isBinary => exact absurd rfl (notBinary isBinary).2
  | binary isBinary number lhs rhs redundant =>
      cases fits' with
      | store => exact absurd rfl (notBinary isBinary).1
      | written => exact absurd rfl (notBinary isBinary).2
      | unwritten => exact absurd rfl (notBinary isBinary).2
      | binary isBinary' number' lhs' rhs' redundant' =>
          have tails (number lhs rhs : Int) (redundant : Bool) :
              tail opcode ⟨number, [some lhs, some rhs], redundant⟩ =
              binaryTail opcode number lhs rhs redundant := by
            cases opcode <;> first | rfl | cases isBinary
          rw [tails, tails] at same
          obtain ⟨rfl, rfl, rfl, rfl⟩ := binaryTail_inj same
          rfl

end Line

namespace Knowledge

theorem pointerNumber_perform_eq_none (k : Knowledge) (pointer : Value) (action : Action) :
    (k.perform action).2.store.pointerNumber pointer = none ↔
      k.store.pointerNumber pointer = none ∧ ∀ value, action ≠ .store value pointer := by
  by_cases through : ∃ value, action = .store value pointer
  · obtain ⟨value, rfl⟩ := through
    simp [perform, pointerNumber_storeThrough]
  · push Not at through
    simp [pointerNumber_perform through, through]

theorem pointerNumber_performAll_eq_none (k : Knowledge) (pointer : Value) (actions : List Action) :
    (k.performAll actions).2.store.pointerNumber pointer = none ↔
      k.store.pointerNumber pointer = none ∧ Untouched pointer actions := by
  induction actions generalizing k with
  | nil => simp [performAll, Untouched]
  | cons action rest ih =>
      rw [performAll, ih, pointerNumber_perform_eq_none]
      simp [Untouched, and_assoc, forall_and, eq_comm]

theorem Orderly.performAll {k : Knowledge} (orderly : Orderly k) (actions : List Action) :
    Orderly (k.performAll actions).2 := by
  induction actions generalizing k with
  | nil => exact orderly
  | cons action rest ih => exact ih (orderly.perform action).1

end Knowledge

namespace Instruction

variable {inst : Instruction}

theorem action?_of_pointerOperand (isStore : inst.opcode = .store) {x : Operand}
    (pointer : inst.pointerOperand = .ok x) :
    ∃ value, inst.action? = some (.store value x.value) := by
  have last := pointerOperand_eq_ok.mp pointer
  cases first : inst.operands.head? with
  | none => simp [List.head?_eq_none_iff.mp first] at last
  | some value =>
      refine ⟨value.value, ?_⟩
      simp [action?, action, isStore, valueOperand, first, pointer, bind, Except.bind, pure,
        Except.pure]

def StoresThrough (inst : Instruction) (pointer : Value) : Prop :=
  inst.opcode = .store ∧ ∃ x, inst.pointerOperand = .ok x ∧ x.value = pointer

theorem untouched_iff {pointer : Value} {instructions : List Instruction} :
    Untouched pointer (instructions.filterMap (·.action?)) ↔
      ∀ inst ∈ instructions, ¬inst.StoresThrough pointer := by
  constructor
  · rintro untouched inst member ⟨isStore, x, isPointer, rfl⟩
    obtain ⟨value, stores⟩ := action?_of_pointerOperand isStore isPointer
    exact untouched value (List.mem_filterMap.mpr ⟨inst, member, stores⟩)
  · intro none value member
    obtain ⟨inst, isInst, stores⟩ := List.mem_filterMap.mp member
    exact none inst isInst (store_of_action? stores)

end Instruction

namespace Numbering

/-- A record that is made where this is known: the decision on the action of its instruction, and
the line for it. -/
structure MadeFrom (column : Int) (k : Knowledge) (r : Record) : Prop where
  decided : ∃ action, r.instruction.action = .ok (some action) ∧ r.toDecision = (k.perform action).1
  shown : Line.ofDecision r.instruction r.toDecision column = .ok r.line

/-- The records that a run adds, be it finished or not: each one is made from what the instructions
before leave, and stands where its instruction stands among the numbered ones. -/
theorem exists_added (column : Int) (n : Numbering) (instructions : List Instruction) :
    ∃ added, (visitAll column n instructions).numbering.records = n.records ++ added ∧
      ∀ i r, added[i]? = some r →
      ∃ before after, instructions = before ++ r.instruction :: after ∧
        (before.filter (·.isNumbered)).length = i ∧
        MadeFrom column (n.knowledge.performAll (before.filterMap (·.action?))).2 r := by
  induction instructions generalizing n with
  | nil => exact ⟨[], by simp [visitAll], by simp⟩
  | cons inst rest ih =>
      unfold visitAll
      split
      · exact ⟨[], by simp, by simp⟩
      · next next visited =>
          obtain ⟨added, records, places⟩ := ih next
          cases visited_of_visit visited with
          | skipped unmodelled =>
              refine ⟨added, records, fun i r found => ?_⟩
              obtain ⟨before, after, split, place, made⟩ := places i r found
              have absent : inst.action? = none := by simp [Instruction.action?, unmodelled]
              refine ⟨inst :: before, after, by rw [split, List.cons_append], ?_, ?_⟩
              · rw [List.filter_cons_of_neg (by simp [Instruction.action_none unmodelled]), place]
              · rwa [List.filterMap_cons_none absent]
          | @recorded action line decided shown =>
              refine ⟨_ :: added, by rw [records, List.append_assoc, List.singleton_append],
                fun i r found => ?_⟩
              cases i with
              | zero =>
                  obtain rfl := Option.some.inj (List.getElem?_cons_zero.symm.trans found)
                  exact ⟨[], rest, rfl, rfl, ⟨action, decided, rfl⟩, shown⟩
              | succ i =>
                  obtain ⟨before, after, split, place, made⟩ := places i r (by simpa using found)
                  have present : inst.action? = some action := by
                    simp [Instruction.action?, decided]
                  have counted := (Instruction.action_some decided).isNumbered
                  refine ⟨inst :: before, after, by rw [split, List.cons_append], ?_, ?_⟩
                  · rw [List.filter_cons_of_pos (by simp [counted]), List.length_cons, place]
                  · rwa [List.filterMap_cons_some present]

theorem made_of_mem {column : Int} {share : Bool} {fn : Function} {i : Nat} {r : Record}
    (found : (ofFunction ⟨share, column⟩ fn).numbering.records[i]? = some r) :
    ∃ before after, fn.instructions = before ++ r.instruction :: after ∧
      (before.filter (·.isNumbered)).length = i ∧
      MadeFrom column ((initial share).performAll (before.filterMap (·.action?))).2 r := by
  obtain ⟨added, records, places⟩ := exists_added column ⟨initial share, []⟩ fn.instructions
  have same : (ofFunction ⟨share, column⟩ fn).numbering.records = added := records
  exact places i r (same ▸ found)

theorem orderly_performAll_initial (share : Bool) (actions : List Action) :
    ((initial share).performAll actions).2.Orderly :=
  (Knowledge.Orderly.empty share).performAll actions

theorem MadeFrom.fits {column : Int} {k : Knowledge} {r : Record} (made : MadeFrom column k r)
    (orderly : k.Orderly) :
    Decision.Fits r.instruction.opcode r.toDecision := by
  obtain ⟨action, found, decided⟩ := made.decided
  rw [decided]
  exact orderly.fits (Instruction.action_some found)

theorem MadeFrom.shows_zero_iff {column : Int} {k : Knowledge} {r : Record}
    (made : MadeFrom column k r) (orderly : k.Orderly) (isLoad : r.instruction.opcode = .load) :
    ∃ p, r.instruction.pointerOperand = .ok p ∧
      (" = 0".toList <:+ r.line.toList ↔ k.store.pointerNumber p.value = none) := by
  obtain ⟨action, found, decided⟩ := made.decided
  obtain ⟨text, -, line⟩ := Line.of_ofDecision made.shown
  cases Instruction.action_some found with
  | store opcode => cases isLoad.symm.trans opcode
  | binary isBinary => cases (Instruction.isBinary_of_load isLoad).symm.trans isBinary
  | @load p opcode last =>
      refine ⟨p, Instruction.pointerOperand_eq_ok.mpr last, ?_⟩
      obtain ⟨number, loaded⟩ := k.exists_number_loadFrom r.instruction.result p.value
      rw [line, isLoad, decided, Knowledge.perform, loaded]
      refine (Line.ends_zero_iff _ number _).trans ?_
      cases written : k.store.pointerNumber p.value with
      | none => simp
      | some known =>
          have gave : k.store.Gave known := orderly.held (.pointer p.value) known written
          have positive := gave.1
          simp
          omega

/-- The lines of one run or of two, in one column, tell the decisions for instructions of one opcode
and one text apart. Every line begins with the text of its instruction, and that of a load ends in
zero exactly where nothing was stored through its pointer before. -/
theorem lines_encode_decisions (column : Int) (share share' : Bool) (fn fn' : Function) :
    (∀ r ∈ (ofFunction ⟨share, column⟩ fn).numbering.records,
      ∀ r' ∈ (ofFunction ⟨share', column⟩ fn').numbering.records,
      r.instruction.opcode = r'.instruction.opcode →
        r.instruction.written = r'.instruction.written →
        (r.line = r'.line ↔ r.number = r'.number ∧ r.operands = r'.operands ∧
          r.redundant = r'.redundant)) ∧
    (∀ r ∈ (ofFunction ⟨share, column⟩ fn).numbering.records,
      ∃ text, r.instruction.written = .ok text ∧ text.toList <+: r.line.toList) ∧
    (∀ i r, (ofFunction ⟨share, column⟩ fn).numbering.records[i]? = some r →
      r.instruction.opcode = .load →
      ∃ before after p, fn.instructions = before ++ r.instruction :: after ∧
        (before.filter (·.isNumbered)).length = i ∧
        r.instruction.pointerOperand = .ok p ∧
        (" = 0".toList <:+ r.line.toList ↔ ∀ inst ∈ before, ¬inst.StoresThrough p.value)) := by
  refine ⟨fun r member r' member' opcode written => ?_, fun r member => ?_,
    fun i r found isLoad => ?_⟩
  · obtain ⟨i, found⟩ := List.mem_iff_getElem?.mp member
    obtain ⟨i', found'⟩ := List.mem_iff_getElem?.mp member'
    obtain ⟨before, after, -, -, made⟩ := made_of_mem found
    obtain ⟨before', after', -, -, made'⟩ := made_of_mem found'
    obtain ⟨text, isText, line⟩ := Line.of_ofDecision made.shown
    obtain ⟨text', isText', line'⟩ := Line.of_ofDecision made'.shown
    obtain rfl : text = text' := Except.ok.inj (isText.symm.trans (written.trans isText'))
    have fits := made.fits (orderly_performAll_initial share _)
    have fits' := made'.fits (orderly_performAll_initial share' _)
    rw [← opcode] at fits' line'
    have decisions : r.toDecision = r'.toDecision ↔
        r.number = r'.number ∧ r.operands = r'.operands ∧ r.redundant = r'.redundant := by
      rw [Decision.mk.injEq]
    rw [← decisions, line, line']
    constructor
    · intro same
      exact Line.tail_inj fits fits' (String.append_right_inj _ |>.mp same)
    · intro same
      rw [same]
  · obtain ⟨i, found⟩ := List.mem_iff_getElem?.mp member
    obtain ⟨before, after, -, -, made⟩ := made_of_mem found
    obtain ⟨text, isText, line⟩ := Line.of_ofDecision made.shown
    exact ⟨text, isText, by simp [line, Line.pad, List.append_assoc]⟩
  · obtain ⟨before, after, split, place, made⟩ := made_of_mem found
    obtain ⟨p, pointer, shows⟩ := made.shows_zero_iff (orderly_performAll_initial share _) isLoad
    refine ⟨before, after, p, split, place, pointer, ?_⟩
    rw [shows, Knowledge.pointerNumber_performAll_eq_none, ← Instruction.untouched_iff]
    exact and_iff_right rfl

def reloaded : Function :=
  let p : Operand := ⟨"ptr", 0, .argument "p" "ptr"⟩
  let x : Operand := ⟨"i32", 1, .argument "x" "i32"⟩
  let load (id : Nat) : Instruction :=
    { id := id, opcode := .load, operands := [p], type := "i32",
      text := some "%a = load i32, ptr %p" }
  let sum (id : Nat) : Instruction :=
    { id := id, opcode := .add, operands := [x, x], type := "i32",
      text := some "%b = add i32 %x, %x" }
  { name := "f",
    blocks :=
      [⟨"entry", [load 2, { id := 3, opcode := .store, operands := [x, p] }, load 4, sum 5,
        sum 6]⟩] }

theorem reloaded_lines_differ : ∃ first last,
    (ofFunction ⟨true, -3⟩ reloaded).numbering.records[0]? = some first ∧
    (ofFunction ⟨false, -3⟩ reloaded).numbering.records[2]? = some last ∧
    first.instruction.opcode = .load ∧ last.instruction.opcode = .load ∧
    first.instruction.written = last.instruction.written ∧ first.line ≠ last.line ∧
      " = 0".toList <:+ first.line.toList := by
  obtain ⟨first, isFirst⟩ : ∃ first,
    (ofFunction ⟨true, -3⟩ reloaded).numbering.records[0]? = some first := ⟨_, rfl⟩
  obtain ⟨last, isLast⟩ : ∃ last,
    (ofFunction ⟨false, -3⟩ reloaded).numbering.records[2]? = some last := ⟨_, rfl⟩
  have decided : first.number = 1 ∧ first.instruction.opcode = .load ∧
      first.instruction.written = .ok "%a = load i32, ptr %p" := by
    obtain rfl := Option.some.inj isFirst
    decide
  have decided' : last.number = 2 ∧ last.instruction.opcode = .load ∧
      last.instruction.written = .ok "%a = load i32, ptr %p" := by
    obtain rfl := Option.some.inj isLast
    decide
  obtain ⟨number, opcode, written⟩ := decided
  obtain ⟨number', opcode', written'⟩ := decided'
  obtain ⟨tell, -, zeros⟩ := lines_encode_decisions (-3) true false reloaded reloaded
  have lines := tell first (List.mem_of_getElem? isFirst) last (List.mem_of_getElem? isLast)
    (by rw [opcode, opcode'])
    (by rw [written, written'])
  refine ⟨first, last, isFirst, isLast, opcode, opcode', by rw [written, written'],
    fun same => ?_, ?_⟩
  · have numbers := (lines.mp same).1
    rw [number, number'] at numbers
    cases numbers
  · obtain ⟨before, after, p, split, place, pointer, shows⟩ := zeros 0 first isFirst opcode
    have allNumbered : ∀ inst ∈ reloaded.instructions, inst.isNumbered = true := by decide
    have same : before.filter (·.isNumbered) = before :=
      List.filter_eq_self.mpr fun inst member =>
        allNumbered inst (split ▸ List.mem_append_left _ member)
    rw [same] at place
    obtain rfl := List.length_eq_zero_iff.mp place
    exact shows.mpr (by simp)

end Numbering

end ValueNumbering
