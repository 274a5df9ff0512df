/-
Text by code points.

A `String` is a sequence of characters. A source, a path or a text in a configuration file may
hold a code that is no character, such as a surrogate without its partner. The code still takes a
place in the text, so such texts are kept as `Points`. A text of characters alone is the same as
its string.
-/
import InferTrace.Text.Lower
import InferTrace.Text.Quoted
import InferTrace.Text.Upper

namespace InferTrace.Text

/-- What stands at one place of a text: a character, or a code that is none. -/
inductive Point where
  | char (value : Char)
  | code (value : Nat)
deriving DecidableEq, Repr, Inhabited

namespace Point

/-- The point of a code. -/
def ofCode (n : Nat) : Point :=
  if n.isValidChar then .char (Char.ofNat n) else .code n

/-- The character of a point. -/
def char? : Point → Option Char
  | char c => some c
  | code _ => none

/-- The code of a point that is no character. -/
def code? : Point → Option Nat
  | char _ => none
  | code n => some n

/-- What stands for a point where there can only be characters: for a code that is none, the
character that replaces what cannot be shown. -/
def face : Point → Char
  | char c => c
  | code _ => '\uFFFD'

/-- One point of a text, as it stands between quotes. -/
def quote (mark : Char) : Point → List Char
  | char c => quoteChar mark c
  | code n => codeEscape n

/-- A character that is passed over in the search for a neighbour that has a case. -/
def isIgnorable : Point → Bool
  | char c => isCaseIgnorable c
  | code _ => false

/-- A character that has a case. -/
def hasCase : Point → Bool
  | char c => isCased c
  | code _ => false

/-- The lower case of one point, given whether it ends a word. -/
def lower (final : Bool) : Point → List Point
  | char c => (lowerCharAt final c).map .char
  | code n => [.code n]

/-- The upper case of one point. -/
def upper : Point → List Point
  | char c => (upperChar c).map .char
  | code n => [.code n]

end Point

/-- A text by its code points. -/
structure Points where
  toList : List Point := []
deriving DecidableEq, Repr, Inhabited

namespace Points

/-- The points of characters. -/
def ofChars (cs : List Char) : Points := ⟨cs.map .char⟩

/-- The points of a string. -/
def ofString (s : String) : Points := ofChars s.toList

instance : Coe String Points := ⟨ofString⟩

instance : Append Points := ⟨fun p q => ⟨p.toList ++ q.toList⟩⟩

/-- The texts one after another, with `separator` between them. -/
def intercalate (separator : Points) (texts : List Points) : Points :=
  ⟨separator.toList.intercalate (texts.map toList)⟩

/-- The text ends in a string. -/
def endsWith (p : Points) (s : String) : Bool := (ofString s).toList.isSuffixOf p.toList

/-- The text with every code that is no character replaced. -/
def face (p : Points) : String := String.ofList (p.toList.map Point.face)

/-- The string of a text that has characters only. -/
def string? (p : Points) : Option String := (p.toList.mapM Point.char?).map String.ofList

theorem mapM_char?_map_char (cs : List Char) :
    (cs.map Point.char).mapM Point.char? = some cs := by
  induction cs with
  | nil => rfl
  | cons c cs ih => simp [Point.char?, ih]

theorem string?_ofString (s : String) : (ofString s).string? = some s := by
  rw [string?, ofString, ofChars, mapM_char?_map_char]
  simp

/-- Strings are told apart by their points. -/
theorem ofString_inj {a b : String} : ofString a = ofString b ↔ a = b := by
  refine ⟨fun h => ?_, congrArg ofString⟩
  have hstring := congrArg string? h
  rw [string?_ofString, string?_ofString] at hstring
  exact Option.some.inj hstring

/-- The first code of a text that is beyond the last code point. -/
def beyondLast? (p : Points) : Option Nat :=
  p.toList.findSome? fun
    | .char _ => none
    | .code n => if 0x10FFFF < n then some n else none

/-- The text has no points. -/
def isEmpty (p : Points) : Bool := p.toList.isEmpty

/-- The text between quotes, chosen and escaped as for a string. Every code that is no character
is unprintable. -/
def quoted (p : Points) : String :=
  let mark := quoteFor (p.toList.filterMap Point.char?)
  String.ofList (mark :: p.toList.flatMap (Point.quote mark) ++ [mark])

/-- The text in upper case. -/
def upper (p : Points) : Points := ⟨p.toList.flatMap Point.upper⟩

/-- The next point that is not passed over has a case. -/
def meetsCase (points : List Point) : Bool :=
  ((points.dropWhile Point.isIgnorable).head?.map Point.hasCase).getD false

/-- The lower case of points that stand after those of `before`, which run backwards. -/
def lowerAfter (before : List Point) : List Point → List Point
  | [] => []
  | p :: rest =>
    p.lower (meetsCase before && !meetsCase rest) ++ lowerAfter (p :: before) rest

/-- The text in lower case. -/
def lower (p : Points) : Points := ⟨lowerAfter [] p.toList⟩

end Points

end InferTrace.Text
