/-!
Text that may hold surrogates without a partner. JSON can write such a surrogate, and a `String`
cannot hold it. Every `String` is such a text as well and is taken for one where one is asked for.
-/

namespace ValueNumbering.Text

/-- A character, or the surrogate that lies so many places after U+D800. -/
inductive CodePoint
  | character (c : Char)
  | surrogate (offset : Fin 0x800)
  deriving DecidableEq, Repr

structure CodePoints where
  toList : List CodePoint := []
  deriving DecidableEq, Repr, Inhabited

abbrev IsSurrogate (unit : Nat) : Prop := 0xD800 ≤ unit ∧ unit < 0xE000

theorem IsSurrogate.offset_lt {unit : Nat} (alone : IsSurrogate unit) : unit - 0xD800 < 0x800 := by
  have upper := alone.2
  omega

namespace CodePoint

def toNat : CodePoint → Nat
  | .character c => c.toNat
  | .surrogate offset => 0xD800 + offset.val

def ofUnit (unit : Nat) : CodePoint :=
  if alone : IsSurrogate unit then .surrogate ⟨unit - 0xD800, alone.offset_lt⟩
    else .character (Char.ofNat unit)

/-- The code point as a character, where a surrogate is shown as the replacement character. -/
def shown : CodePoint → Char
  | .character c => c
  | .surrogate _ => '\uFFFD'

def isSurrogate : CodePoint → Bool
  | .character _ => false
  | .surrogate _ => true

end CodePoint

namespace CodePoints

def ofChars (chars : List Char) : CodePoints := ⟨chars.map .character⟩

def ofString (text : String) : CodePoints := ofChars text.toList

instance : Coe String CodePoints := ⟨ofString⟩

instance : Append CodePoints := ⟨fun first second => ⟨first.toList ++ second.toList⟩⟩

def isEmpty (text : CodePoints) : Bool := text.toList.isEmpty

def join (separator : CodePoints) (texts : List CodePoints) : CodePoints :=
  ⟨List.intercalate separator.toList (texts.map (·.toList))⟩

def unlines (texts : List CodePoints) : CodePoints :=
  ⟨texts.flatMap fun text => text.toList ++ [.character '\n']⟩

/-- The text as it can be shown, with a replacement character for each surrogate without partner. -/
def shown (text : CodePoints) : String := String.ofList (text.toList.map (·.shown))

@[simp] theorem toList_append (first second : CodePoints) :
    (first ++ second).toList = first.toList ++ second.toList :=
  rfl

@[simp] theorem shown_ofString (text : String) : (ofString text).shown = text := by
  simp [shown, ofString, ofChars, Function.comp_def, CodePoint.shown]

theorem ofString_injective {first second : String} (same : ofString first = ofString second) :
    first = second := by
  rw [← shown_ofString first, same, shown_ofString]

end CodePoints

end ValueNumbering.Text
