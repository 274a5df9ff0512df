/-
JSON values. An object keeps its fields in the order in which they were put. A string is a text by
code points; the keys of an object are plain strings.
-/
import InferTrace.Number.Binary64
import InferTrace.Text.Points

namespace InferTrace

/-- A JSON value. Whole numbers and doubles are told apart. -/
inductive Json where
  | null
  | bool (value : Bool)
  | int (value : Int)
  | float (value : Number.Binary64)
  | str (value : Text.Points)
  | arr (items : List Json)
  | obj (fields : List (String × Json))
deriving Repr, Inhabited

namespace Json

/-- The field of an object. -/
def get? (key : String) : Json → Option Json
  | .obj fields => fields.lookup key
  | _ => none

/-- An absent value is null. -/
def ofOption {α : Type} (f : α → Json) : Option α → Json
  | none => .null
  | some a => f a

end Json

end InferTrace
