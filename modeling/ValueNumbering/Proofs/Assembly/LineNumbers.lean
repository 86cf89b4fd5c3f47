import ValueNumbering.Assembly.Reader
import ValueNumbering.Proofs.Dictionaries

/-!
Lines under other numbers. What is read from them is the same, and what is refused is refused at the
line that has the new number.
-/

namespace ValueNumbering

namespace Dictionary

variable {κ ν μ : Type} [DecidableEq κ]

def mapValues (f : ν → μ) (d : Dictionary κ ν) : Dictionary κ μ :=
  ⟨d.entries.map fun entry => (entry.1, f entry.2)⟩

theorem contains_mapValues (f : ν → μ) (d : Dictionary κ ν) (key : κ) :
    (d.mapValues f).contains key = d.contains key := by
  rw [contains, contains, mapValues, find?_map_entries (fun _ => f), Option.isSome_map]

theorem mapValues_insert (f : ν → μ) (d : Dictionary κ ν) (key : κ) (value : ν) :
    (d.insert key value).mapValues f = (d.mapValues f).insert key (f value) := by
  obtain ⟨entries⟩ := d
  simp only [mapValues, insert, Dictionary.mk.injEq]
  induction entries with
  | nil => rfl
  | cons entry rest ih => by_cases here : entry.1 = key <;> simp [insertEntry, here, ih]

theorem mapValues_erase (f : ν → μ) (d : Dictionary κ ν) (key : κ) :
    (d.erase key).mapValues f = (d.mapValues f).erase key := by
  simp only [mapValues, erase, Dictionary.mk.injEq, List.filter_map]
  rfl

end Dictionary

namespace Assembly

section Renumbering

variable (place : Nat → Nat)

def Fault.renumber : Fault → Fault
  | .refused line cause => .refused (place line) cause
  | fault => fault

/-- An outcome after lines have got other numbers. -/
def renumbered {α β : Type} (change : α → β) : Except Fault α → Except Fault β
  | .ok a => .ok (change a)
  | .error fault => .error (fault.renumber place)

def Names.renumber (names : Names) : Names :=
  { names with pending := names.pending.mapValues place }

def Draft.renumber (draft : Draft) : Draft := { draft with line := place draft.line }

def Reader.renumber (r : Reader) : Reader :=
  { r with names := r.names.renumber place, draft := r.draft.map (·.renumber place) }

end Renumbering

variable {place : Nat → Nat} {α β γ δ : Type}

/-- A fault that comes first counts, so two steps can be looked at one by one. -/
theorem bind_renumbered {change : α → β} {change' : γ → δ} {first : Except Fault α}
    {first' : Except Fault β} {next : α → Except Fault γ} {next' : β → Except Fault δ}
    (isFirst : first' = renumbered place change first)
    (isNext : ∀ a, next' (change a) = renumbered place change' (next a)) :
    first' >>= next' = renumbered place change' (first >>= next) := by
  rw [isFirst]
  cases first with
  | error fault => rfl
  | ok a => exact isNext a

theorem atLine_renumbered (line : Nat) (result : Except Cause α) :
    atLine (place line) result = renumbered place id (atLine line result) := by
  cases result <;> rfl

theorem renumbered_of_unplaced {result : Except Fault α}
    (unplaced : ∀ line cause, result ≠ .error (.refused line cause)) :
    result = renumbered place id result := by
  cases result with
  | ok a => rfl
  | error fault =>
      cases fault with
      | refused line cause => exact absurd rfl (unplaced line cause)
      | emptyParameter => rfl
      | integer fault => rfl

theorem liftInteger_renumbered (result : Except Text.Integer.Fault α) :
    liftInteger result = renumbered place id (liftInteger result) := by
  cases result <;> rfl

theorem token_renumbered (text : List Char) (type : String) :
    Token.read text type = renumbered place id (Token.read text type) := by
  unfold Token.read
  split
  · rfl
  · rfl
  · split
    · exact bind_renumbered (liftInteger_renumbered _) fun _ => rfl
    · split
      · rfl
      · split
        · rfl
        · split <;> rfl

theorem typedToken_renumbered (line : Nat) (text : List Char) :
    TypedToken.read (place line) text = renumbered place id (TypedToken.read line text) := by
  unfold TypedToken.read
  dsimp only
  split
  · exact bind_renumbered (token_renumbered _ _) fun _ => rfl
  · rfl

theorem readAlign_renumbered (pieces : List (List Char)) :
    readAlign pieces = renumbered place id (readAlign pieces) := by
  unfold readAlign
  split
  · exact bind_renumbered (liftInteger_renumbered _) fun _ => rfl
  · rfl

theorem readStore_renumbered (line : Nat) (rest : List Char) :
    readStore (place line) rest = renumbered place id (readStore line rest) := by
  unfold readStore
  split
  · exact bind_renumbered (typedToken_renumbered _ _) fun _ =>
      bind_renumbered (typedToken_renumbered _ _) fun _ =>
      bind_renumbered (readAlign_renumbered _) fun _ => rfl
  · rfl

theorem readLoad_renumbered (line : Nat) (rest : List Char) :
    readLoad (place line) rest = renumbered place id (readLoad line rest) := by
  unfold readLoad
  split
  · exact bind_renumbered (typedToken_renumbered _ _) fun _ =>
      bind_renumbered (readAlign_renumbered _) fun _ => rfl
  · rfl

theorem readBinary_renumbered (line : Nat) (opcode : Opcode) (rest : List Char) :
    readBinary (place line) opcode rest = renumbered place id (readBinary line opcode rest) := by
  unfold readBinary
  split
  · dsimp only
    split
    · exact bind_renumbered (token_renumbered _ _) fun _ =>
        bind_renumbered (token_renumbered _ _) fun _ => rfl
    · rfl
  · rfl

theorem statement_renumbered (line : Nat) (opcode : Opcode) (text : List Char) :
    Statement.read (place line) opcode text =
      renumbered place id (Statement.read line opcode text) := by
  unfold Statement.read
  dsimp only
  split
  · exact readStore_renumbered ..
  · exact readLoad_renumbered ..
  · exact bind_renumbered (readAlign_renumbered _) fun _ => rfl
  · split
    · exact readBinary_renumbered ..
    · rfl

namespace Names

variable (names : Names)

def renumberSnd (place : Nat → Nat) (entry : α × Names) : α × Names :=
  (entry.1, entry.2.renumber place)

theorem lookup_renumbered (line : Nat) (name : String) :
    (names.renumber place).lookup (place line) name =
      renumberSnd place (names.lookup line name) := by
  unfold lookup
  cases found : names.values.find? name with
  | some value => simp [renumber, renumberSnd, found]
  | none => simp [renumber, renumberSnd, found, fresh, Dictionary.mapValues_insert]

theorem global_renumbered (name : String) :
    (names.renumber place).global name = renumberSnd place (names.global name) := by
  unfold global
  cases found : names.globals.find? name <;> simp [renumber, renumberSnd, found]

theorem expression_renumbered (key type : String) :
    (names.renumber place).expression key type = renumberSnd place (names.expression key type) := by
  unfold expression
  cases found : names.expressions.find? key <;> simp [renumber, renumberSnd, found, fresh]

theorem defineGlobal_renumbered (name initializer : String) :
    (names.renumber place).defineGlobal name initializer =
      (names.defineGlobal name initializer).renumber place := by
  unfold defineGlobal
  rw [global_renumbered]
  rfl

theorem bind_renumbered (line : Nat) (token : Token) :
    (names.renumber place).bind (place line) token = renumberSnd place (names.bind line token) := by
  cases token with
  | named name => exact names.lookup_renumbered line name
  | global name =>
      simp only [bind, global_renumbered]
      rfl
  | literal value type => rfl
  | expression key type => exact names.expression_renumbered key type
  | constant text type => rfl

theorem bindTyped_renumbered (line : Nat) (operand : TypedToken) :
    (names.renumber place).bindTyped (place line) operand =
      renumberSnd place (names.bindTyped line operand) := by
  unfold bindTyped
  rw [bind_renumbered]
  rfl

theorem define_renumbered (name : String) :
    (names.renumber place).define name = (names.define name).map (renumberSnd place) := by
  unfold define
  cases found : names.values.find? name with
  | none => simp [renumber, renumberSnd, found, fresh, Except.map]
  | some value =>
      simp only [renumber, found, Dictionary.contains_mapValues]
      split <;> simp [renumber, renumberSnd, Except.map, Dictionary.mapValues_erase]

end Names

open Names (renumberSnd)

section Parameters

variable (line : Nat) (signature : Signature) (names : Names)

theorem addArgument_renumbered (name type : String) :
    addArgument (place line) signature (names.renumber place) name type =
      renumbered place (renumberSnd place) (addArgument line signature names name type) := by
  cases present : names.values.contains name <;>
    simp [addArgument, Names.renumber, renumberSnd, present, renumbered, Fault.renumber]

theorem addParameter_renumbered (parameter : Parameter) :
    addParameter (place line) signature (names.renumber place) parameter =
      renumbered place (renumberSnd place) (addParameter line signature names parameter) := by
  cases parameter with
  | variadic => rfl
  | unnamed type =>
    exact bind_renumbered (liftInteger_renumbered _) fun _ => addArgument_renumbered ..
  | named type name =>
      refine bind_renumbered (renumbered_of_unplaced fun line cause => ?_) fun _ =>
        addArgument_renumbered ..
      unfold slotAfter
      split
      · cases Text.Integer.read name <;> simp [liftInteger, bind, Except.bind, pure, Except.pure]
      · simp

theorem parameter_renumbered (piece : List Char) :
    Parameter.read piece = renumbered place id (Parameter.read piece) := by
  unfold Parameter.read
  split
  · rfl
  · dsimp only
    split <;> rfl

theorem addPieces_renumbered (pieces : List (List Char)) :
    addPieces (place line) signature (names.renumber place) pieces =
      renumbered place (renumberSnd place) (addPieces line signature names pieces) := by
  induction pieces generalizing signature names with
  | nil => rfl
  | cons piece rest ih =>
      exact bind_renumbered (parameter_renumbered piece) fun _ =>
        bind_renumbered (addParameter_renumbered line signature names _) fun _ => ih ..

end Parameters

theorem Draft.ensureBlock_renumbered (draft : Draft) :
    (draft.renumber place).ensureBlock = renumbered place (·.renumber place) draft.ensureBlock := by
  have same : (draft.renumber place).current = draft.current := rfl
  unfold Draft.ensureBlock
  rw [same]
  cases draft.current with
  | some block => rfl
  | none => exact bind_renumbered (liftInteger_renumbered _) fun _ => rfl

namespace Reader

variable (r : Reader) (names : Names) (line : Nat)

theorem target_renumbered (result : Option (List Char)) :
    target (names.renumber place) (place line) result =
      renumbered place (renumberSnd place) (target names line result) := by
  cases result with
  | none => rfl
  | some name =>
      simp only [target, Names.define_renumbered]
      cases names.define (String.ofList name) <;> rfl

theorem fill_renumbered (inst : Instruction) (statement : Statement) :
    fill (names.renumber place) (place line) inst statement =
      renumberSnd place (fill names line inst statement) := by
  cases statement <;> simp only [fill, Names.bindTyped_renumbered, renumberSnd]

theorem readInstruction_renumbered (text : List Char) (result : Option (List Char))
    (mnemonic rest : List Char) :
    readInstruction (names.renumber place) (place line) text result mnemonic rest =
      renumbered place (renumberSnd place)
        (readInstruction names line text result mnemonic rest) := by
  refine bind_renumbered (target_renumbered names line result) fun _ =>
    bind_renumbered (statement_renumbered ..) fun _ => ?_
  exact congrArg Except.ok (fill_renumbered ..)

theorem beginFunction_renumbered (returnType name params : List Char) :
    (r.renumber place).beginFunction (place line) returnType name params =
      renumbered place (·.renumber place) (r.beginFunction line returnType name params) :=
  bind_renumbered (addPieces_renumbered line {} r.names.newFunction _) fun _ => rfl

theorem topLine_renumbered (text : List Char) :
    (r.renumber place).topLine (place line) text =
      renumbered place (·.renumber place) (r.topLine line text) := by
  refine bind_renumbered (atLine_renumbered ..) fun top => ?_
  cases top with
  | skipped => rfl
  | declaration returnType name params => rfl
  | definition returnType name params => exact beginFunction_renumbered ..
  | global name initializer =>
      refine congrArg Except.ok ?_
      simp only [renumber, Names.defineGlobal_renumbered]

theorem endFunction_renumbered (draft : Draft) :
    (r.renumber place).endFunction (draft.renumber place) =
      renumbered place (·.renumber place) (r.endFunction draft) := by
  have waiting : (r.renumber place).names.pending.entries = r.names.pending.entries.map fun entry =>
      (entry.1, place entry.2) := rfl
  unfold endFunction
  rw [waiting]
  cases r.names.pending.entries with
  | nil => rfl
  | cons entry rest => rfl

theorem bodyLine_renumbered (draft : Draft) (text : List Char) :
    (r.renumber place).bodyLine (draft.renumber place) (place line) text =
      renumbered place (·.renumber place) (r.bodyLine draft line text) := by
  refine bind_renumbered (atLine_renumbered ..) fun body => ?_
  cases body with
  | close => exact endFunction_renumbered r draft
  | label name => rfl
  | instruction result mnemonic rest =>
      refine bind_renumbered draft.ensureBlock_renumbered fun _ => ?_
      exact bind_renumbered
        (readInstruction_renumbered r.names line text result mnemonic rest) fun _ => rfl

theorem readLine_renumbered (text : List Char) :
    (r.renumber place).readLine (place line) text =
      renumbered place (·.renumber place) (r.readLine line text) := by
  unfold readLine
  cases inside : r.draft with
  | none => simpa [renumber, inside] using topLine_renumbered r line text
  | some draft => simpa [renumber, inside] using bodyLine_renumbered r line draft text

theorem readLines_renumbered (entries : List (Nat × List Char)) :
    (r.renumber place).readLines (entries.map fun entry => (place entry.1, entry.2)) =
      renumbered place (·.renumber place) (r.readLines entries) := by
  induction entries generalizing r with
  | nil => rfl
  | cons entry rest ih =>
    exact bind_renumbered (readLine_renumbered r entry.1 entry.2) fun _ => ih _

theorem finish_renumbered (name : String) :
    (r.renumber place).finish name = renumbered place id (r.finish name) := by
  unfold finish
  cases inside : r.draft <;> simp [renumber, inside] <;> rfl

end Reader

/-- A text whose lines count under other numbers is read as before. -/
theorem read_renumbered {text text' : String}
    (numbers : contentLines text'.toList = (contentLines text.toList).map fun entry =>
      (place entry.1, entry.2))
    (name : String) :
    read text' name = renumbered place id (read text name) := by
  unfold read
  rw [numbers]
  exact bind_renumbered (Reader.readLines_renumbered {} _) fun r => r.finish_renumbered name

end Assembly

end ValueNumbering
