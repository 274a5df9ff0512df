/-
Values of a configuration file.

A file gives one value, written in either of two formats; both have nulls, truth values,
numbers, texts, lists and mappings. A text may hold codes that are no characters. One of the
formats also has points in time, bytes, sets and lists of pairs, and a list or mapping in it may
hold itself. A setting reads a value in one of two ways: as a truth value, or as text.
-/
import InferTrace.Config.Fault
import InferTrace.Json.Value
import InferTrace.Number.Shortest

namespace InferTrace.Config

/-- A value of a configuration file. A mapping keeps its entries in the order of their keys'
first appearance. Where a list or mapping holds itself, `again` stands for it. -/
inductive Value where
  | null
  | bool (value : Bool)
  | int (value : Int)
  | float (value : Number.Binary64)
  | date (value : Calendar.Date)
  | moment (value : Calendar.Moment)
  | text (value : Text.Points)
  | bytes (value : List UInt8)
  | list (items : List Value)
  | pairs (entries : List (Value × Value))
  | set (members : List Value)
  | mapping (entries : List (Value × Value))
  | again (mapping : Bool)
deriving Repr, Inhabited

namespace Value

-- =============================================================== keys

/-- What a key is compared by: a truth value counts as the number it stands for, and a double
that is whole as that whole number. Moments are compared by universal time if both say how far
they are from it. -/
inductive Key where
  | null
  | whole (value : Int)
  | double (value : Number.Binary64)
  | date (value : Calendar.Date)
  | moment (universal : Bool) (instant : Int)
  | text (value : Text.Points)
  | bytes (value : List UInt8)
deriving DecidableEq, Repr

/-- The whole number that a double is, if it is one. -/
def wholeOf : Number.Binary64 → Option Int
  | .finite negative mantissa exponent =>
    let signed (n : Nat) : Int := if negative then -(n : Int) else n
    if exponent < 0 then
      let unit := Nat.pow 2 (-exponent).toNat
      if mantissa % unit = 0 then some (signed (mantissa / unit)) else none
    else some (signed (mantissa * Nat.pow 2 exponent.toNat))
  | _ => none

/-- The key that a value is; lists, sets and mappings are none. -/
def key? : Value → Option Key
  | null => some .null
  | bool b => some (.whole (if b then 1 else 0))
  | int n => some (.whole n)
  | float x => some (match wholeOf x with
    | some n => .whole n
    | none => .double x)
  | date d => some (.date d)
  | moment m => some (.moment m.offset.isSome m.instant)
  | text s => some (.text s)
  | bytes b => some (.bytes b)
  | list _ | pairs _ | set _ | mapping _ | again _ => none

/-- Put an entry: a key that is already there keeps its place and takes the new value. -/
def putEntry (key value : Value) : List (Value × Value) → List (Value × Value)
  | [] => [(key, value)]
  | (k, v) :: rest =>
    if k.key? = key.key? then (k, value) :: rest else (k, v) :: putEntry key value rest

/-- The value of a mapping under a text. -/
def entry? (name : String) (entries : List (Value × Value)) : Option Value :=
  (entries.find? fun (k, _) => k.key? = some (.text (.ofString name))).map Prod.snd

-- ============================================================ readings

/-- A value as a truth value: null, false, zero and whatever is empty are false. -/
def truthy : Value → Bool
  | null => false
  | bool b => b
  | int n => n != 0
  | float x => !x.isZero
  | date _ | moment _ | again _ => true
  | text s => !s.isEmpty
  | bytes b => !b.isEmpty
  | list items | set items => !items.isEmpty
  | pairs entries | mapping entries => !entries.isEmpty

/-- Bytes between quotes, each of them by its code unless it is printable. -/
def quotedBytes (b : List UInt8) : String :=
  let point (byte : UInt8) : Text.Point :=
    if byte < 0x80 then .char (Char.ofNat byte.toNat) else .code byte.toNat
  "b" ++ (Text.Points.mk (b.map point)).quoted

mutual

/-- A value as it stands inside a list or a mapping: texts are quoted. -/
def inner : Value → String
  | null => "None"
  | bool true => "True"
  | bool false => "False"
  | int n => toString n
  | float x => x.text
  | date d => d.inner
  | moment m => m.inner
  | text s => s.quoted
  | bytes b => quotedBytes b
  | list items => "[" ++ ", ".intercalate (innerItems items) ++ "]"
  | pairs entries => "[" ++ ", ".intercalate (innerPairs entries) ++ "]"
  | set [] => "set()"
  | set (v :: members) => "\x7b" ++ ", ".intercalate (innerItems (v :: members)) ++ "\x7d"
  | again true => "\x7b...\x7d"
  | again false => "[...]"
  | mapping entries => "\x7b" ++ ", ".intercalate (innerEntries entries) ++ "\x7d"

/-- The items of a list. -/
def innerItems : List Value → List String
  | [] => []
  | v :: rest => v.inner :: innerItems rest

/-- The pairs of a list of pairs. -/
def innerPairs : List (Value × Value) → List String
  | [] => []
  | (k, v) :: rest => ("(" ++ k.inner ++ ", " ++ v.inner ++ ")") :: innerPairs rest

/-- The entries of a mapping. -/
def innerEntries : List (Value × Value) → List String
  | [] => []
  | (k, v) :: rest => (k.inner ++ ": " ++ v.inner) :: innerEntries rest

end

/-- A value as text: a text is itself, a point in time is written in digits. -/
def display : Value → Text.Points
  | text s => s
  | date d => .ofString d.text
  | moment m => .ofString m.text
  | v => .ofString v.inner

mutual

/-- The value holds a whole number with more than `limit` digits. -/
def hasLongNumber (limit : Nat) : Value → Bool
  | int n => decide (Nat.pow 10 limit ≤ n.natAbs)
  | list items | set items => anyLongNumber limit items
  | pairs entries | mapping entries => anyLongEntry limit entries
  | _ => false

/-- Some value of a list holds a long number. -/
def anyLongNumber (limit : Nat) : List Value → Bool
  | [] => false
  | v :: rest => v.hasLongNumber limit || anyLongNumber limit rest

/-- Some key or value of a mapping holds a long number. -/
def anyLongEntry (limit : Nat) : List (Value × Value) → Bool
  | [] => false
  | (k, v) :: rest =>
    k.hasLongNumber limit || v.hasLongNumber limit || anyLongEntry limit rest

end

mutual

/-- How deep lists and mappings stand inside each other. -/
def depth : Value → Nat
  | list items | set items => depthOfItems items + 1
  | pairs entries | mapping entries => depthOfEntries entries + 1
  | _ => 0

/-- The greatest depth of the values of a list. -/
def depthOfItems : List Value → Nat
  | [] => 0
  | v :: rest => max v.depth (depthOfItems rest)

/-- The greatest depth of the keys and values of a mapping. -/
def depthOfEntries : List (Value × Value) → Nat
  | [] => 0
  | (k, v) :: rest => max (max k.depth v.depth) (depthOfEntries rest)

end

/-- A value as text, unless it holds a whole number that is too long. -/
def display? (v : Value) : Except ScalarFault Text.Points :=
  if v.hasLongNumber Number.maxDigits then .error .numberTooLongToShow else .ok v.display

-- ========================================================== from JSON

mutual

/-- The value that a JSON value stands for. -/
def ofJson : Json → Value
  | .null => null
  | .bool b => bool b
  | .int n => int n
  | .float x => float x
  | .str s => text s
  | .arr items => list (ofJsonItems items)
  | .obj fields => mapping (ofJsonFields fields)

/-- The items of an array. -/
def ofJsonItems : List Json → List Value
  | [] => []
  | j :: rest => ofJson j :: ofJsonItems rest

/-- The fields of an object. -/
def ofJsonFields : List (String × Json) → List (Value × Value)
  | [] => []
  | (key, j) :: rest => (text (.ofString key), ofJson j) :: ofJsonFields rest

end

-- ============================================================= to JSON

mutual

/-- The JSON value that a value is, if JSON has its kind and its keys are texts of characters
only. -/
def toJson? : Value → Option Json
  | null => some .null
  | bool b => some (.bool b)
  | int n => some (.int n)
  | float x => some (.float x)
  | text s => some (.str s)
  | list items => (toJsonItems? items).map .arr
  | mapping entries => (toJsonFields? entries).map .obj
  | date _ | moment _ | bytes _ | pairs _ | set _ | again _ => none

/-- The items of a list. -/
def toJsonItems? : List Value → Option (List Json)
  | [] => some []
  | v :: rest => do return (← v.toJson?) :: (← toJsonItems? rest)

/-- The entries of a mapping. -/
def toJsonFields? : List (Value × Value) → Option (List (String × Json))
  | [] => some []
  | (text key, v) :: rest => do
    return (← key.string?, ← v.toJson?) :: (← toJsonFields? rest)
  | _ :: _ => none

end

end Value

end InferTrace.Config
