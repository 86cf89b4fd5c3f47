import ValueNumbering.Proofs.Assembly.Acceptance

/-!
Listings as lines. A listing depends on what a function shows only, and the lines that count in it
are those of the instructions with the lines around them.
-/

namespace ValueNumbering.Assembly

open Text

/-- Lines of a listing, with what counts of them. -/
structure Shows (ls : List String) (texts : List (List Char)) : Prop where
  unbroken : ∀ line ∈ ls, Unbroken line.toList
  counts : counted ls = texts

namespace Shows

variable {ls more : List String} {texts others : List (List Char)} {line : String}

theorem nil : Shows [] [] := ⟨by simp, rfl⟩

theorem append (first : Shows ls texts) (second : Shows more others) :
    Shows (ls ++ more) (texts ++ others) where
  unbroken := by
    intro line member
    rcases List.mem_append.mp member with here | there
    · exact first.unbroken line here
    · exact second.unbroken line there
  counts := by rw [counted_append, first.counts, second.counts]

theorem cons {text : List Char} (unbroken : Unbroken line.toList)
    (counts : content line.toList = text) (nonempty : text ≠ []) (rest : Shows ls texts) :
    Shows (line :: ls) (text :: texts) where
  unbroken := List.forall_mem_cons.mpr ⟨unbroken, rest.unbroken⟩
  counts := by rw [counted_cons counts nonempty, rest.counts]

theorem cons_empty (unbroken : Unbroken line.toList) (empty : content line.toList = [])
    (rest : Shows ls texts) :
    Shows (line :: ls) texts where
  unbroken := List.forall_mem_cons.mpr ⟨unbroken, rest.unbroken⟩
  counts := by rw [counted_cons_empty empty, rest.counts]

theorem contentTexts (shows : Shows ls texts) : contentTexts (unlines ls) = texts := by
  rw [contentTexts_unlines shows.unbroken, shows.counts]

end Shows

namespace LegibleBlock

def listed (block : LegibleBlock) : List String :=
  (block.label ++ ":") :: block.lines.map fun line => "  " ++ String.ofList line.text

def allListed : List LegibleBlock → List String
  | [] => []
  | [block] => block.listed
  | block :: more => block.listed ++ "" :: allListed more

theorem shows_lines (lines : List LegibleLine) :
    Shows (lines.map fun line => "  " ++ String.ofList line.text) (lines.map (·.text)) := by
  induction lines with
  | nil => exact .nil
  | cons line rest ih =>
      have spaces : ("  " ++ String.ofList line.text).toList = ' ' :: ' ' :: line.text := by simp
      have blank : isBlank ' ' = true := by decide
      refine .cons ?_ ?_ line.nonempty ih
      · rw [spaces]
        have unbroken : Unbroken [' ', ' '] := by decide
        exact unbroken.append line.bare.within
      · rw [spaces, content_of_blank blank, content_of_blank blank, line.bare.content]

theorem shows_listed (block : LegibleBlock) : Shows block.listed block.texts := by
  have label : (block.label ++ ":").toList = block.label.toList ++ [':'] := by simp
  have solid : Solid (block.label.toList ++ [':']) := block.isName.solid.append (by decide)
  have quiet : Quiet (block.label.toList ++ [':']) := block.isName.quiet.append (by decide)
  have bare := (Plain.of_solid solid quiet).bare solid.trimmed
  refine .cons ?_ ?_ (by simp) (shows_lines block.lines)
  · rw [label]
    exact bare.within
  · rw [label, bare.content]

theorem shows_allListed (blocks : List LegibleBlock) :
    Shows (allListed blocks) (blocks.flatMap (·.texts)) := by
  induction blocks using allListed.induct with
  | case1 => exact .nil
  | case2 block => simpa [allListed] using block.shows_listed
  | case3 block more several ih =>
      rw [allListed.eq_3 block more several, List.flatMap_cons]
      exact block.shows_listed.append (.cons_empty (by simp) rfl ih)

end LegibleBlock

theorem Block.listing_eq {block : Block} {legible : LegibleBlock}
    (label : block.name = legible.label)
    (written : block.instructions.map (·.written) =
      legible.lines.map (.ok <| String.ofList ·.text)) :
    block.listing = .ok legible.listed := by
  have body : block.instructions.mapM (·.written) =
      .ok (legible.lines.map fun line => String.ofList line.text) :=
    mapM_ok (by rw [written, List.map_map]; rfl)
  simp [Block.listing, body, label, LegibleBlock.listed, bind, Except.bind, pure, Except.pure]

theorem Block.listings_eq {blocks : List Block} {legible : List LegibleBlock}
    (shown : blocksShown blocks = LegibleBlock.shown legible) :
    Block.listings blocks = .ok (LegibleBlock.allListed legible) := by
  induction blocks generalizing legible with
  | nil =>
      obtain rfl := List.map_eq_nil_iff.mp shown.symm
      rfl
  | cons block more ih =>
      obtain ⟨first, rest, rfl, here, others⟩ := List.map_eq_cons_iff.mp shown.symm
      obtain ⟨label, written⟩ := Prod.mk.inj here.symm
      have one := Block.listing_eq label written
      have tail : Block.listings more = .ok (LegibleBlock.allListed rest) := ih others.symm
      cases more with
      | nil =>
          obtain rfl := List.map_eq_nil_iff.mp others
          simp [Block.listings, LegibleBlock.allListed, one]
      | cons second more =>
          obtain ⟨next, others', rfl, -, -⟩ := List.map_eq_cons_iff.mp others
          simp [Block.listings, LegibleBlock.allListed, one, tail, bind, Except.bind, pure,
            Except.pure]

def definitionLine (fn : Function) : String :=
  s!"define {fn.returnType} @{fn.name}({fn.parameterText}) " ++ "\x7b"

def declarationLine (fn : Function) : String :=
  s!"declare {fn.returnType} @{fn.name}({fn.params.getD fn.parameterText})"

theorem bare_signatureLine {keyword : String} (isKeyword : keyword = "define" ∨ keyword = "declare")
    {returnType name rest : List Char} (signature : IsSignature returnType name)
    (quiet : Quiet returnType) (isRest : Plain rest) (nonempty : rest ≠ [])
    (last : ∀ c, rest.getLast? = some c → isBlank c = false) :
    Bare (signatureLine keyword returnType name rest) := by
  have solid : Solid keyword.toList ∧ Quiet keyword.toList ∧ keyword.toList ≠ [] := by
    rcases isKeyword with rfl | rfl <;> exact ⟨by decide, by decide, by simp⟩
  have type : Plain returnType := .of_solid signature.isType.solid quiet
  have space : Plain [' '] := by decide
  have mark : Plain [' ', '@'] := by decide
  have opening : Plain ['('] := by decide
  let front := keyword.toList ++ ([' '] ++ (returnType ++ ([' ', '@'] ++ (name ++ ['(']))))
  have plain : Plain front :=
    (Plain.of_solid solid.1 solid.2.1).append
      (space.append (type.append (mark.append (signature.isName.plain.append opening))))
  have whole : signatureLine keyword returnType name rest = front ++ rest := by
    simp [signatureLine, front]
  rw [whole]
  refine (plain.append isRest).bare ⟨?_, ?_⟩
  · rw [List.append_assoc, List.head?_append_of_ne_nil _ solid.2.2]
    exact solid.1.trimmed.first
  · rw [List.getLast?_append_of_ne_nil _ nonempty]
    exact last

theorem toList_definitionLine (fn : Function) : (definitionLine fn).toList = definitionText fn := by
  simp [definitionLine, definitionText, signatureLine, toString]

theorem HeaderListable.shows {fn : Function} (header : HeaderListable fn) {ls : List String}
    {texts : List (List Char)} (rest : Shows ls texts) :
    Shows (definitionLine fn :: ls) (definitionText fn :: texts) := by
  have tail : Plain [')', ' ', '{'] := by decide
  have bare : Bare (definitionText fn) :=
    bare_signatureLine (Or.inl rfl) header.signature header.quiet
    ((plain_parameterText header.arguments).append tail) (by simp) (by simp; decide)
  rw [← toList_definitionLine] at bare ⊢
  exact .cons bare.within bare.content
    (by simp [toList_definitionLine, definitionText, signatureLine]) rest

theorem shows_close : Shows ["\x7d"] [['}']] := .cons (by decide) (by decide) (by simp) .nil

theorem Function.listing_declaration {fn : Function} (noBlocks : fn.blocks = []) :
    fn.listing = .ok [declarationLine fn] := by
  simp [Function.listing, Function.isDeclaration, noBlocks, declarationLine]

theorem Function.listing_definition {fn : Function} {blocks : List LegibleBlock}
    (nonempty : blocks ≠ []) (shown : blocksShown fn.blocks = LegibleBlock.shown blocks) :
    fn.listing = .ok (definitionLine fn :: (LegibleBlock.allListed blocks ++ ["\x7d"])) := by
  have some : fn.blocks ≠ [] := by
    intro none
    rw [none] at shown
    exact nonempty (List.map_eq_nil_iff.mp shown.symm)
  have body := Block.listings_eq shown
  simp [Function.listing, Function.isDeclaration, some, body, definitionLine, bind, Except.bind,
    pure, Except.pure]

end ValueNumbering.Assembly
