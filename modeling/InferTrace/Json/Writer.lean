/-
The text of a JSON value.

The text is ASCII: every character outside the printable ASCII range is written `\uXXXX`, as
a surrogate pair above U+FFFF, unless it has a short escape. So is a code that is no character.
With an indent every item stands on a line of its own, `indent` spaces deeper than its
container; without one the value is one line with `", "` and `": "` between its parts. An empty
container is `[]` or the bare pair of braces in either layout.
-/
import InferTrace.Json.Value
import InferTrace.Number.Shortest
import InferTrace.Text.Quoted

namespace InferTrace.Json

/-- A UTF-16 unit by its code. -/
def unitEscape (unit : Nat) : List Char :=
  '\\' :: 'u' :: Text.hexDigits 4 unit

/-- A code by its unit, or by two of them if it is above U+FFFF. -/
def escapeCode (n : Nat) : List Char :=
  if n < 0x10000 then unitEscape n
  else unitEscape (0xD800 + (n - 0x10000) / 0x400) ++ unitEscape (0xDC00 + (n - 0x10000) % 0x400)

/-- One character of a string, as it stands between the quotes. -/
def escapeChar (c : Char) : List Char :=
  let n := c.toNat
  if c = '"' then ['\\', '"']
  else if c = '\\' then ['\\', '\\']
  else if c = '\n' then ['\\', 'n']
  else if c = '\r' then ['\\', 'r']
  else if c = '\t' then ['\\', 't']
  else if n = 0x08 then ['\\', 'b']
  else if n = 0x0C then ['\\', 'f']
  else if 0x20 ≤ n ∧ n ≤ 0x7E then [c]
  else escapeCode n

/-- One point of a text, as it stands between the quotes. -/
def escapePoint : Text.Point → List Char
  | .char c => escapeChar c
  | .code n => escapeCode n

/-- A text between quotes. -/
def writeText (text : Text.Points) : String :=
  String.ofList ('"' :: text.toList.flatMap escapePoint ++ ['"'])

/-- A double: NaN and the infinities have names of their own. -/
def writeFloat : Number.Binary64 → String
  | .nan => "NaN"
  | .infinite negative => if negative then "-Infinity" else "Infinity"
  | x => x.text

/-- A line break before an item at `level`, where the layout has one. -/
def lineBreak (indent : Option Nat) (level : Nat) : String :=
  match indent with
  | none => ""
  | some width => String.ofList ('\n' :: List.replicate (width * level) ' ')

/-- What stands between two items. -/
def separator (indent : Option Nat) (level : Nat) : String :=
  match indent with
  | none => ", "
  | some _ => "," ++ lineBreak indent level

/-- Items between brackets; the brackets stand at `level`, the items one level deeper. -/
def enclose (indent : Option Nat) (level : Nat) (opening closing : String) (items : List String) :
    String :=
  opening ++ lineBreak indent (level + 1) ++ (separator indent (level + 1)).intercalate items
    ++ lineBreak indent level ++ closing

mutual

/-- The text of a value that stands at `level`. -/
def renderAt (indent : Option Nat) (level : Nat) : Json → String
  | .null => "null"
  | .bool b => if b then "true" else "false"
  | .int n => toString n
  | .float x => writeFloat x
  | .str s => writeText s
  | .arr [] => "[]"
  | .arr (x :: items) => enclose indent level "[" "]" (itemTexts indent (level + 1) (x :: items))
  | .obj [] => "\x7b\x7d"
  | .obj (f :: fields) =>
    enclose indent level "\x7b" "\x7d" (fieldTexts indent (level + 1) (f :: fields))

/-- The items of an array. -/
def itemTexts (indent : Option Nat) (level : Nat) : List Json → List String
  | [] => []
  | x :: items => renderAt indent level x :: itemTexts indent level items

/-- The fields of an object. -/
def fieldTexts (indent : Option Nat) (level : Nat) : List (String × Json) → List String
  | [] => []
  | (key, v) :: fields =>
    (writeText key ++ ": " ++ renderAt indent level v) :: fieldTexts indent level fields

end

/-- The text of a value; `none` is the one-line layout. -/
def render (indent : Option Nat) (j : Json) : String := renderAt indent 0 j

end InferTrace.Json
