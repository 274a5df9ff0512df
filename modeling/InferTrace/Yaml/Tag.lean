/-
Tags: what kind of value a YAML node is.

A tag is written before its node, or it is found. A list is then a sequence, a mapping a map, a
quoted scalar a string; a plain scalar is what it looks like: a truth value, a null, a number, a
point in time, one of two marks, or else a string.
-/
import InferTrace.Yaml.Timestamp
import InferTrace.Yaml.Token

namespace InferTrace.Yaml

/-- What kind of value a node is. -/
inductive Tag where
  | null
  | bool
  | int
  | float
  | timestamp
  | binary
  | str
  | seq
  | map
  | set
  | omap
  | pairs
  /-- The key under which a mapping takes over others. -/
  | merge
  /-- The key of a mapping's default. -/
  | value
  | other (name : String)
deriving DecidableEq, Repr

namespace Tag

/-- What the names of the standard tags start with. -/
def standard : String := "tag:yaml.org,2002:"

/-- The standard tags by name. -/
def names : List (String × Tag) :=
  [("null", null), ("bool", bool), ("int", int), ("float", float), ("timestamp", timestamp),
   ("binary", binary), ("str", str), ("seq", seq), ("map", map), ("set", set), ("omap", omap),
   ("pairs", pairs), ("merge", merge), ("value", value)]

/-- The tag of a full name. -/
def ofName (name : String) : Tag :=
  ((names.find? fun (short, _) => standard ++ short == name).map Prod.snd).getD (other name)

-- ======================================================= looks of scalars

/-- A word in lower case, in upper case, or with a capital. -/
def isWord (word text : String) : Bool :=
  let capital := match word.toList with
    | c :: rest => String.ofList (c.toUpper :: rest)
    | [] => ""
  text == word || text == word.toUpper || text == capital

/-- A truth value. -/
def isTruth (text : String) : Bool :=
  ["yes", "no", "true", "false", "on", "off"].any fun word => isWord word text

/-- A digit of a number, where an underscore may stand too. -/
def isSpacedDigit (c : Char) : Bool := c.isDigit || c == '_'

/-- The characters after a sign. -/
def afterSign : List Char → List Char
  | '-' :: rest | '+' :: rest => rest
  | cs => cs

/-- A part of sixty: one or two digits below sixty. -/
def isSixtieth : List Char → Bool
  | [b] => b.isDigit
  | [a, b] => a.isDigit && a.toNat < '6'.toNat && b.isDigit
  | _ => false

/-- The parts between colons. -/
def splitColons : List Char → List (List Char)
  | [] => [[]]
  | ':' :: rest => [] :: splitColons rest
  | c :: rest =>
    match splitColons rest with
    | part :: parts => (c :: part) :: parts
    | [] => [[c]]

/-- Decimal digits with underscores, of which the first satisfies `first`. -/
def isDecimal (first : Char → Bool) : List Char → Bool
  | c :: rest => first c && rest.all isSpacedDigit
  | [] => false

/-- A digit other than zero. -/
def isLeadingDigit (c : Char) : Bool := c.isDigit && c != '0'

/-- A whole number: in base two, sixteen, eight or ten, or in parts of sixty. -/
def isWhole (cs : List Char) : Bool :=
  let digits (isDigit : Char → Bool) (cs : List Char) : Bool :=
    !cs.isEmpty && cs.all fun c => isDigit c || c == '_'
  match afterSign cs with
  | ['0'] => true
  | '0' :: 'b' :: rest => digits (fun c => c == '0' || c == '1') rest
  | '0' :: 'x' :: rest => digits (fun c => (Json.hexValue c).isSome) rest
  | '0' :: rest => digits (fun c => c.isDigit && c.toNat < '8'.toNat) rest
  | body =>
    match splitColons body with
    | first :: parts => isDecimal isLeadingDigit first && parts.all isSixtieth
    | [] => false

/-- A power of ten after a number; it has to have a sign. -/
def isPower : List Char → Bool
  | [] => true
  | mark :: sign :: digits =>
    (mark == 'e' || mark == 'E') && (sign == '+' || sign == '-') && !digits.isEmpty
      && digits.all Char.isDigit
  | _ => false

/-- A double: it has a point. -/
def isDouble (cs : List Char) : Bool :=
  let body := afterSign cs
  let names (words : List String) : Bool := words.any fun word => body == word.toList
  let before := body.takeWhile (· != '.')
  if names [".inf", ".INF", ".Inf"] then true
  else if cs == body && names [".nan", ".NAN", ".NaN"] then true
  else
    match body.drop before.length with
    | _ :: rest =>
      let places := rest.takeWhile isSpacedDigit
      let power := rest.drop places.length
      match splitColons before with
      | [whole] =>
        isPower power
          && (isDecimal Char.isDigit whole
            || (whole.isEmpty && cs == body && isDecimal Char.isDigit places))
      | whole :: parts => isDecimal Char.isDigit whole && parts.all isSixtieth && power.isEmpty
      | [] => false
    | [] => false

/-- The kind of value that characters look like. A newline at their end does not count. -/
def ofChars (cs : List Char) : Tag :=
  let body := if cs.getLast? == some '\n' then cs.dropLast else cs
  let word := String.ofList body
  if cs.isEmpty then null
  else if body.isEmpty then str
  else if isTruth word then bool
  else if isDouble body then float
  else if isWhole body then int
  else if word == "<<" then merge
  else if word == "~" || isWord "null" word then null
  else if isTimestamp body then timestamp
  else if word == "=" then value
  else str

/-- The kind of value that a plain scalar looks like. -/
def ofPlain (text : Text.Points) : Tag :=
  match text.string? with
  | some word => ofChars word.toList
  | none => str

end Tag

end InferTrace.Yaml
