import ValueNumbering.Proofs.Assembly.PrintedLines

/-!
What a line that is read says of its parts: names, words and texts that can be read again on a line
of a listing.
-/

namespace ValueNumbering.Assembly

open Text

theorem after?_sound {c : Char} {text rest : List Char} (found : after? c text = some rest) :
    text = c :: rest := by
  cases text with
  | nil => cases found
  | cons d more =>
      obtain ⟨same, isRest⟩ : d = c ∧ more = rest := by simpa [after?] using found
      rw [same, isRest]

theorem isPrefixOf?_sound {front text rest : List Char}
    (found : front.isPrefixOf? text = some rest) : text = front ++ rest := by
  induction front generalizing text with
  | nil => exact Option.some.inj found
  | cons c more ih =>
      cases text with
      | nil => cases found
      | cons d others =>
          unfold List.isPrefixOf? at found
          split at found
          · next same => rw [eq_of_beq same, ih found, List.cons_append]
          · cases found

theorem mem_of_mem_words {text word : List Char} {c : Char} (member : word ∈ words text)
    (inside : c ∈ word) : c ∈ text := by
  induction text generalizing word c with
  | nil => simp [words] at member
  | cons d rest ih =>
      unfold words at member
      split at member
      · exact List.mem_cons_of_mem _ (ih member inside)
      · split at member
        · rwa [List.mem_singleton.mp member] at inside
        · split at member
          · rcases List.mem_cons.mp member with rfl | later
            · exact List.mem_singleton.mp inside ▸ List.mem_cons_self ..
            · exact List.mem_cons_of_mem _ (ih later inside)
          · split at member
            · rw [List.mem_singleton.mp member] at inside
              exact List.mem_singleton.mp inside ▸ List.mem_cons_self ..
            · next first more cut =>
                rcases List.mem_cons.mp member with rfl | later
                · rcases List.mem_cons.mp inside with rfl | within
                  · exact List.mem_cons_self ..
                  · exact List.mem_cons_of_mem _ (ih (cut ▸ List.mem_cons_self ..) within)
                · exact List.mem_cons_of_mem _ (ih (cut ▸ List.mem_cons_of_mem _ later) inside)

theorem returnType_read {head : List Char} (noAt : '@' ∉ head) :
    IsWordText (returnType head) ∧ '@' ∉ returnType head := by
  unfold returnType
  cases last : (words head).getLast? with
  | none => exact ⟨⟨by simp, by decide⟩, by simp⟩
  | some word =>
      have member := List.mem_of_getLast? last
      exact ⟨isWordText_of_mem_words member, fun inside => noAt (mem_of_mem_words member inside)⟩

theorem signature?_sound {keyword : String} {line head name rest : List Char}
    (found : signature? keyword line = some (head, name, rest)) :
    IsSignature (returnType head) name ∧ ∀ c ∈ rest, c ∈ line := by
  simp only [signature?, Option.bind_eq_bind, Option.bind_eq_some_iff] at found
  obtain ⟨text, keyed, first, -, found⟩ := found
  split at found
  · simp only [Option.bind_eq_some_iff] at found
    obtain ⟨marked, isMarked, ⟨cut, after⟩, isName, last, isLast, made⟩ := found
    cases made
    rw [List.span_eq_takeWhile_dropWhile] at isMarked ⊢
    simp only at isMarked isLast ⊢
    have noAt : '@' ∉ (trimLeft text).takeWhile (· != '@') := by
      intro member
      have different := List.mem_takeWhile_imp member
      simp at different
    obtain ⟨nameIs, markedIs⟩ := name?_sound isName
    obtain ⟨isType, noAtInType⟩ := returnType_read noAt
    refine ⟨⟨isType, noAtInType, nameIs⟩, fun c member => ?_⟩
    have inMarked : c ∈ marked := by
      rw [markedIs, after?_sound isLast]
      exact List.mem_append_right _ (List.mem_cons_of_mem _ member)
    have inText : c ∈ (trimLeft text).dropWhile (· != '@') := by
      rw [after?_sound isMarked]
      exact List.mem_cons_of_mem _ inMarked
    rw [isPrefixOf?_sound keyed]
    refine List.mem_append_right _ ?_
    exact (List.dropWhile_suffix isBlank).subset ((List.dropWhile_suffix _).subset inText)
  · cases found

theorem definition?_sound {line : List Char} {top : TopLine} (found : definition? line = some top) :
    ∃ returnType name params, top = .definition returnType name params ∧
      IsSignature returnType name := by
  simp only [definition?, Option.bind_eq_bind, Option.bind_eq_some_iff] at found
  obtain ⟨⟨head, name, rest⟩, isSignature, found⟩ := found
  have signature := (signature?_sound isSignature).1
  simp only at found
  split at found
  · simp only [Option.bind_eq_some_iff] at found
    obtain ⟨⟨params, tail⟩, -, made⟩ := found
    simp only at made
    split at made
    · cases made
    · cases made
      exact ⟨_, _, _, rfl, signature⟩
  · cases found

theorem mem_of_cutAtLast? {c d : Char} {text before after : List Char}
    (cut : cutAtLast? c text = some (before, after)) (member : d ∈ before) : d ∈ text := by
  unfold cutAtLast? at cut
  rw [List.span_eq_takeWhile_dropWhile] at cut
  split at cut
  · cases cut
  · next front last back whole =>
      cases cut
      have inside : d ∈ text.reverse.dropWhile (· != c) := by
        rw [(Prod.mk.inj whole).2]
        exact List.mem_cons_of_mem _ (List.mem_reverse.mp member)
      exact List.mem_reverse.mp ((List.dropWhile_suffix _).subset inside)

theorem declaration?_sound {line : List Char} {top : TopLine}
    (found : declaration? line = some top) :
    ∃ returnType name params, top = .declaration returnType name params ∧
      IsSignature returnType name ∧
      Trimmed params ∧ ∀ c ∈ params, c ∈ line := by
  simp only [declaration?, Option.bind_eq_bind, Option.bind_eq_some_iff] at found
  obtain ⟨⟨head, name, rest⟩, isSignature, ⟨params, tail⟩, cut, made⟩ := found
  cases made
  obtain ⟨signature, inside⟩ := signature?_sound isSignature
  refine ⟨_, _, _, rfl, signature, trimmed_trim _, fun c member => ?_⟩
  have untrimmed : c ∈ params :=
    (List.dropWhile_suffix isBlank).subset ((isPrefix_trimRight _).subset member)
  exact inside c (mem_of_cutAtLast? cut untrimmed)

theorem trimLeft_split (text : List Char) :
    ∃ blanks, text = blanks ++ trimLeft text ∧ Quiet blanks :=
  ⟨text.takeWhile isBlank, (List.takeWhile_append_dropWhile ..).symm,
    fun _ member => quiet_of_isBlank (List.mem_takeWhile_imp member)⟩

theorem Bare.end_of {front rest : List Char} (bare : Bare (front ++ rest)) (quiet : Quiet front)
    (first : ∀ c, rest.head? = some c → isBlank c = false) : Bare rest := by
  refine .of_trimmed ⟨first, ?_⟩ ?_ fun c member => bare.within c (List.mem_append_right _ member)
  · intro c isLast
    apply bare.trimmed.last c
    rwa [List.getLast?_append_of_ne_nil _ (by rintro rfl; cases isLast)]
  · have uncommented := bare.uncommented
    rw [stripComment_append quiet] at uncommented
    exact List.append_cancel_left uncommented

theorem global?_sound {line : List Char} {top : TopLine} (bare : Bare line)
    (found : global? line = some top) :
    ∃ name initializer, top = .global name initializer ∧ IsName name ∧ Bare initializer := by
  simp only [global?, bound?, Option.bind_eq_bind, Option.bind_eq_some_iff] at found
  obtain ⟨text, isText, ⟨_, initializer⟩, ⟨⟨name, rest⟩, isName, after, isAfter, made⟩, made'⟩ :=
    found
  cases made
  cases made'
  simp only at isAfter
  obtain ⟨nameIs, textIs⟩ := name?_sound isName
  obtain ⟨blanks, restIs, quiet⟩ := trimLeft_split rest
  obtain ⟨blanks', afterIs, quiet'⟩ := trimLeft_split after
  have whole : line = (['@'] ++ (name ++ (blanks ++ (['='] ++ blanks')))) ++ trimLeft after := by
    rw [after?_sound isText, textIs, restIs, after?_sound isAfter]
    simp [← afterIs]
  have signs : Quiet ['@'] ∧ Quiet ['='] := by simp [Quiet]
  have front : Quiet (['@'] ++ (name ++ (blanks ++ (['='] ++ blanks')))) :=
    signs.1.append (nameIs.quiet.append (quiet.append (signs.2.append quiet')))
  refine ⟨_, _, rfl, nameIs, ?_⟩
  rw [whole] at bare
  exact bare.end_of front (head?_trimLeft after)

inductive TopLineRead (line : List Char) : TopLine → Prop
  | skipped : TopLineRead line .skipped
  | definition {returnType name params : List Char} (signature : IsSignature returnType name) :
      TopLineRead line (.definition returnType name params)
  | declaration {returnType name params : List Char} (signature : IsSignature returnType name)
      (trimmed : Trimmed params)
      (inside : ∀ c ∈ params, c ∈ line) : TopLineRead line (.declaration returnType name params)
  | global {name initializer : List Char} (isName : IsName name) (bare : Bare initializer) :
      TopLineRead line (.global name initializer)

theorem topLine_read {line : List Char} {top : TopLine} (bare : Bare line)
    (read : TopLine.read line = .ok top) :
    TopLineRead line top := by
  unfold TopLine.read at read
  split at read
  · cases read
    exact .skipped
  · split at read
    · next found =>
        cases read
        obtain ⟨_, _, _, rfl, signature⟩ := definition?_sound found
        exact .definition signature
    · split at read
      · cases read
      · split at read
        · next found =>
            cases read
            obtain ⟨_, _, _, rfl, signature, trimmed, inside⟩ := declaration?_sound found
            exact .declaration signature trimmed inside
        · split at read
          · cases read
          · split at read
            · next found =>
                cases read
                obtain ⟨_, _, rfl, isName, bareInitializer⟩ := global?_sound bare found
                exact .global isName bareInitializer
            · cases read

theorem instruction?_sound {line : List Char} {body : BodyLine}
    (found : instruction? line = some body) :
    ∃ result mnemonic rest, body = .instruction result mnemonic rest := by
  unfold instruction? at found
  split at found
  · simp only [Option.bind_eq_bind, Option.bind_eq_some_iff] at found
    obtain ⟨_, _, _, _, made⟩ := found
    cases made
    exact ⟨_, _, _, rfl⟩
  · simp only [Option.bind_eq_bind, Option.bind_eq_some_iff] at found
    obtain ⟨_, _, made⟩ := found
    cases made
    exact ⟨_, _, _, rfl⟩

theorem label_read {line name : List Char} (read : BodyLine.read line = .ok (.label name)) :
    IsName name := by
  unfold BodyLine.read at read
  split at read
  · cases read
  · split at read
    · next found =>
        cases read
        unfold label? at found
        split at found
        · next isName =>
            cases found
            exact (name?_sound isName).1
        · cases found
    · split at read
      · next found =>
          split at read
          · cases read
          · cases read
            obtain ⟨_, _, _, same⟩ := instruction?_sound found
            cases same
      · cases read

theorem instruction_read {line mnemonic rest : List Char} {result : Option (List Char)}
    (read : BodyLine.read line = .ok (.instruction result mnemonic rest)) :
    instruction? line = some (.instruction result mnemonic rest) ∧
      startsWith "define" line = false := by
  unfold BodyLine.read at read
  split at read
  · cases read
  · split at read
    · cases read
    · split at read
      · next found =>
          split at read
          · cases read
          · next notDefinition =>
              cases read
              exact ⟨found, Bool.eq_false_iff.mpr notDefinition⟩
      · cases read

end ValueNumbering.Assembly
