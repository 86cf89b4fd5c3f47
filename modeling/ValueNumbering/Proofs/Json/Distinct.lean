import ValueNumbering.Json.Reader
import ValueNumbering.Proofs.Assembly.Steps
import ValueNumbering.Proofs.Dictionaries

/-!
Objects that are read. A name that comes again takes the later value and keeps its place, so no
object has a name twice.
-/

namespace ValueNumbering.Json

def member? (name : Text.CodePoints) : Json → Option Json
  | .obj members => members.find? name
  | _ => none

mutual

/-- No object within the value has a name twice. -/
def Distinct : Json → Prop
  | .arr items => AllDistinct items
  | .obj ⟨members⟩ => (members.map (·.1)).Nodup ∧ MembersDistinct members
  | _ => True

def AllDistinct : List Json → Prop
  | [] => True
  | item :: rest => Distinct item ∧ AllDistinct rest

def MembersDistinct : List (Text.CodePoints × Json) → Prop
  | [] => True
  | (_, value) :: rest => Distinct value ∧ MembersDistinct rest

end

theorem membersDistinct_iff {members : List (Text.CodePoints × Json)} :
    MembersDistinct members ↔ ∀ member ∈ members, member.2.Distinct := by
  induction members with
  | nil => simp [MembersDistinct]
  | cons member rest ih => rw [MembersDistinct, ih, List.forall_mem_cons]

namespace Distinct

variable {members : Dictionary Text.CodePoints Json}

theorem keys (distinct : Distinct (.obj members)) : members.keys.Nodup := distinct.1

theorem member {json value : Json} (distinct : json.Distinct) {name : Text.CodePoints}
    (found : json.member? name = some value) :
    value.Distinct := by
  cases json with
  | obj members => exact membersDistinct_iff.mp distinct.2 _ (Dictionary.mem_entries_of_find? found)
  | _ => cases found

theorem empty : Distinct (.obj ∅) := ⟨List.nodup_nil, trivial⟩

theorem insert (distinct : Distinct (.obj members)) (name : Text.CodePoints) {value : Json}
    (inside : value.Distinct) :
    Distinct (.obj (members.insert name value)) := by
  refine ⟨Dictionary.nodup_keys_insert distinct.keys name value,
    membersDistinct_iff.mpr fun member isMember => ?_⟩
  rcases Dictionary.mem_entries_insert isMember with rfl | old
  · exact inside
  · exact membersDistinct_iff.mp distinct.2 member old

end Distinct

namespace Reader

open Assembly (bind_eq_ok)

variable {text rest : List Char} {json : Json}

theorem map_eq_ok {ε α β : Type} {result : Except ε α} {f : α → β} {b : β}
    (mapped : result.map f = .ok b) :
    ∃ a, result = .ok a ∧ f a = b := by
  cases result with
  | error fault => cases mapped
  | ok a => exact ⟨a, rfl, Except.ok.inj mapped⟩

theorem distinct_number (read : number text = .ok (json, rest)) : json.Distinct := by
  unfold number at read
  dsimp only at read
  split at read
  · cases read
  · split at read
    · split at read
      · cases read
      · cases read
        trivial
    · cases read
      trivial

/-- What the readers of one depth make of a text. They call one another with less depth, so they are
looked at together. -/
structure ReadDistinct (depth : Nat) : Prop where
  value : ∀ {text json rest}, value depth text = .ok (json, rest) → json.Distinct
  items : ∀ {text read rest}, items depth text = .ok (read, rest) → AllDistinct read
  members : ∀ {found text json rest}, Distinct (.obj found) →
    members depth found text = .ok (json, rest) → json.Distinct

namespace ReadDistinct

variable {depth : Nat}

theorem value_succ (less : ReadDistinct depth)
    (read : Reader.value (depth + 1) text = .ok (json, rest)) : json.Distinct := by
  unfold Reader.value at read
  split at read
  · obtain ⟨found, -, same⟩ := map_eq_ok read
    cases same
    trivial
  · split at read
    · cases read
      exact .empty
    · exact less.members .empty read
  · split at read
    · cases read
      trivial
    · obtain ⟨found, isRead, same⟩ := map_eq_ok read
      cases same
      exact less.items isRead
  iterate 6
    · cases read
      trivial
  · exact distinct_number read

theorem items_succ (less : ReadDistinct depth) {found : List Json}
    (read : Reader.items (depth + 1) text = .ok (found, rest)) :
    AllDistinct found := by
  unfold Reader.items at read
  obtain ⟨⟨item, after⟩, isItem, read⟩ := bind_eq_ok.mp read
  have first := less.value isItem
  dsimp only at read
  split at read
  · cases read
    exact ⟨first, trivial⟩
  · obtain ⟨⟨more, last⟩, areMore, read⟩ := bind_eq_ok.mp read
    cases read
    exact ⟨first, less.items areMore⟩
  · cases read

theorem members_succ (less : ReadDistinct depth) {found : Dictionary Text.CodePoints Json}
    (distinct : Distinct (.obj found))
    (read : Reader.members (depth + 1) found text = .ok (json, rest)) : json.Distinct := by
  unfold Reader.members at read
  split at read
  · obtain ⟨⟨name, afterName⟩, -, read⟩ := bind_eq_ok.mp read
    dsimp only at read
    split at read
    · obtain ⟨⟨member, after⟩, isMember, read⟩ := bind_eq_ok.mp read
      have wider := distinct.insert name (less.value isMember)
      dsimp only at read
      split at read
      · cases read
        exact wider
      · exact less.members wider read
      · cases read
    · cases read
  · cases read

end ReadDistinct

theorem readDistinct (depth : Nat) : ReadDistinct depth := by
  induction depth with
  | zero =>
      constructor
      · intro text json rest read
        cases read
      · intro text found rest read
        cases read
      · intro found text json rest distinct read
        cases read
  | succ depth less => exact ⟨less.value_succ, less.items_succ, less.members_succ⟩

end Reader

theorem distinct_of_read {text : List Char} {document : Json} (isRead : read text = .ok document) :
    document.Distinct := by
  unfold read at isRead
  split at isRead
  · cases isRead
  · obtain ⟨⟨found, rest⟩, isValue, isRead⟩ := Assembly.bind_eq_ok.mp isRead
    dsimp only at isRead
    split at isRead
    · cases isRead
      exact (Reader.readDistinct _).value isValue
    · cases isRead

end ValueNumbering.Json
