/-
What can go wrong, and how it is reported.

A `Cause` is one way in which scanning, parsing or inference fails. A `Fault` is a cause with
the place it concerns: a location of the source, or a node of the expression. A `Diagnostic`
is the report of a fault: its kind, a message, and the details that the message is made of.

`Halt` is what stops a computation: a fault; nesting beyond the limit it was given; a number
with too many digits to be written, where it was to be shown; or a second link for a type
variable. The last two are no faults of the source and are never reported as one.
-/
import InferTrace.Json.Value
import InferTrace.Source.Location
import InferTrace.Text.Quoted

namespace InferTrace

-- ============================================================= causes

/-- One way to fail. -/
inductive Cause where
  | strayCharacter (char : Text.Points)
  | literalTooLarge (digits : Int)
  | unexpectedToken (expected found : String)
  | undefinedVariable (name : String)
  | typeMismatch (left right reason : String)
  | infiniteType (typeVar type : String)
  | unknownExpression (kind : String)
  | nestingTooDeep (stage : String)
deriving DecidableEq, Repr

/-- A cause and the place it concerns. -/
structure Fault where
  cause : Cause
  location : Option Location := none
  node : Option String := none
deriving DecidableEq, Repr

/-- A type variable was to be linked again: its name, and the type it is linked to. -/
structure Rebound where
  name : String
  type : String
deriving DecidableEq, Repr

/-- The message of a second link. -/
def Rebound.message (r : Rebound) : String :=
  "type variable " ++ r.name ++ " is already bound to " ++ r.type

/-- What stops a computation before its result. -/
inductive Halt where
  | fault (fault : Fault)
  | tooDeep
  | tooLong
  | rebound (rebound : Rebound)
deriving DecidableEq, Repr

-- ============================================================ reports

/-- The kind under which a fault is reported. -/
inductive Kind where
  | lexical
  | grammatical
  | undefinedVariable
  | typeMismatch
  | infiniteType
  | unknownExpression
  | nestingTooDeep
deriving DecidableEq, Repr, Inhabited

namespace Kind

/-- The name of a kind in reports. -/
def text : Kind → String
  | lexical => "LexError"
  | grammatical => "SyntaxError"
  | undefinedVariable => "UndefinedVariableError"
  | typeMismatch => "TypeMismatchError"
  | infiniteType => "InfiniteTypeError"
  | unknownExpression => "UnknownExpressionError"
  | nestingTooDeep => "NestingTooDeepError"

/-- Every kind. -/
def all : List Kind :=
  [lexical, grammatical, undefinedVariable, typeMismatch, infiniteType, unknownExpression,
   nestingTooDeep]

/-- The kind of a name. -/
def ofText? (name : String) : Option Kind := all.find? fun k => k.text == name

theorem ofText?_text (k : Kind) : ofText? k.text = some k := by
  cases k <;> decide

end Kind

/-- The report of a fault. -/
structure Diagnostic where
  kind : Kind
  message : String
  location : Option Location := none
  node : Option String := none
  details : List (String × Json) := []
deriving Inhabited

namespace Cause

/-- The kind of a cause. Both faults of scanning are lexical. -/
def kind : Cause → Kind
  | strayCharacter _ | literalTooLarge _ => .lexical
  | unexpectedToken _ _ => .grammatical
  | undefinedVariable _ => .undefinedVariable
  | typeMismatch _ _ _ => .typeMismatch
  | infiniteType _ _ => .infiniteType
  | unknownExpression _ => .unknownExpression
  | nestingTooDeep _ => .nestingTooDeep

/-- The message of a cause. -/
def message : Cause → String
  | strayCharacter char => "Unexpected character " ++ char.quoted
  | literalTooLarge digits => "Integer literal too large (" ++ toString digits ++ " digits)"
  | unexpectedToken expected found => "Expected " ++ expected ++ ", found " ++ found
  | undefinedVariable name => "Variable '" ++ name ++ "' is not defined"
  | typeMismatch left right reason =>
    "Cannot unify " ++ left ++ " with " ++ right
      ++ (if reason = "" then "" else " (" ++ reason ++ ")")
  | infiniteType typeVar type => "Occurs check: " ++ typeVar ++ " occurs in " ++ type
  | unknownExpression kind => "Unknown expression node '" ++ kind ++ "'"
  | nestingTooDeep stage => "Expression nested too deeply to " ++ stage

/-- The parts of the message, by name. -/
def details : Cause → List (String × Json)
  | strayCharacter char => [("char", .str char)]
  | literalTooLarge digits => [("digits", .int digits)]
  | unexpectedToken expected found => [("expected", .str expected), ("found", .str found)]
  | undefinedVariable name => [("name", .str name)]
  | typeMismatch left right reason =>
    [("left", .str left), ("right", .str right), ("reason", .str reason)]
  | infiniteType typeVar type => [("variable", .str typeVar), ("type", .str type)]
  | unknownExpression kind => [("node_type", .str kind)]
  | nestingTooDeep stage => [("stage", .str stage)]

end Cause

/-- The report of a fault. -/
def Fault.diagnostic (f : Fault) : Diagnostic :=
  { kind := f.cause.kind, message := f.cause.message, location := f.location, node := f.node,
    details := f.cause.details }

/-- The location as a JSON object. -/
def Location.toJson (l : Location) : Json :=
  .obj [("file", .str l.file), ("line", .int l.line), ("column", .int l.column)]

namespace Diagnostic

/-- One line: the kind, the place if there is one, and the message. -/
def text (d : Diagnostic) : Text.Points :=
  let place : Text.Points := match d.location with
    | some l => " at " ++ l.text
    | none => ""
  "[" ++ d.kind.text ++ "]" ++ place ++ ": " ++ d.message

/-- The report as a JSON object. Absent parts, an empty node name and empty details are left
out. -/
def toJson (d : Diagnostic) : Json :=
  let location := match d.location with
    | some l => [("location", l.toJson)]
    | none => []
  let node := match d.node with
    | some n => if n = "" then [] else [("node_id", Json.str n)]
    | none => []
  let details := match d.details with
    | [] => []
    | fields => [("details", Json.obj fields)]
  .obj ([("kind", .str d.kind.text), ("message", .str d.message)] ++ location ++ node ++ details)

end Diagnostic

end InferTrace
