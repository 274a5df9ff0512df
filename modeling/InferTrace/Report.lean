/-
Showing an outcome.

- `pretty` is the numbered trace. Numbers are places in the trace, so events that are not
  shown leave gaps; under an event stand the variables at that moment. The result comes last.
- `summary` is one line: the source, and its type or its error.
- `json` is the whole outcome.

Colours are those of a terminal; each category of events has one, and a mark of its own.
-/
import InferTrace.Config.Basic
import InferTrace.Json.Writer
import InferTrace.Outcome

namespace InferTrace

open Text (Points)

namespace Report

/-- Text in a colour, where colours are on. -/
def paint (color : Bool) (code : String) (text : Points) : Points :=
  if color then "\x1b[" ++ code ++ "m" ++ text ++ "\x1b[0m" else text

/-- The colour of a category. -/
def categoryCode : Category → String
  | .info => "37"
  | .success => "32"
  | .warn => "33"
  | .error => "31"
  | .ast => "35"

/-- The mark of a category. -/
def categoryIcon : Category → String
  | .info => "·"
  | .success => "✔"
  | .warn => "▲"
  | .error => "✖"
  | .ast => "◆"

/-- A number at the right end of at least three columns. -/
def threeColumns (n : Int) : String :=
  let digits := toString n
  String.ofList (List.replicate (3 - digits.length) ' ') ++ digits

/-- A snapshot in one line. -/
def snapshotLine (s : Snapshot) : String :=
  ", ".intercalate (s.map fun (name, value) => name ++ "=" ++ value)

/-- The lines of an event. -/
def eventLines (index : Int) (e : Event) (showSnapshot color : Bool) : List Points :=
  let code := categoryCode e.category
  let head := " " ++ threeColumns index ++ "  " ++ paint color code (categoryIcon e.category)
    ++ "  " ++ paint color code e.message
  if showSnapshot && !e.snapshot.isEmpty then
    [head, "        " ++ paint color "2" (snapshotLine e.snapshot)]
  else [head]

/-- The lines of the events from place `index` on. -/
def traceLines (settings : Settings) (color : Bool) : Nat → List Event → List Points
  | _, [] => []
  | index, e :: rest =>
    let shown := settings.showAstEvents || e.category != .ast
    (if shown then eventLines index e settings.showSnapshots color else [])
      ++ traceLines settings color (index + 1) rest

/-- The line of the result. -/
def resultLine (color : Bool) (o : Outcome) : Points :=
  match o.error with
  | none => " " ++ paint color "32" "✔" ++ "  " ++ paint color "1" (o.type.getD "")
  | some d => " " ++ paint color "31" "✖" ++ "  " ++ paint color "31" d.text

/-- The numbered trace. -/
def pretty (settings : Settings) (color : Bool) (o : Outcome) : Points :=
  Points.intercalate "\n"
    (["\n " ++ paint color "1" o.source ++ "\n"]
      ++ traceLines settings color 1 o.trace ++ [("" : Points), resultLine color o, ""])

/-- One line. -/
def summary (o : Outcome) : Points :=
  match o.error with
  | none => o.source ++ " : " ++ o.type.getD "None"
  | some d => o.source ++ " : " ++ d.kind.text ++ ": " ++ d.message

end Report

/-- Colours are on when the settings allow them, the user has not turned them off, and the
output is a terminal. -/
def Settings.colorOn (settings : Settings) (terminal noColor : Bool) : Bool :=
  settings.color && !noColor && terminal

/-- The message for a name that is no format. -/
def unknownFormatMessage (name : String) : String :=
  "unknown output format " ++ Text.quoted name

/-- The text of an outcome in a format. As JSON, an expression deeper than `limit` halts. -/
def Outcome.render (limit : Nat) (format : Format) (settings : Settings) (color : Bool)
    (o : Outcome) : Except Halt Points :=
  match format with
  | .pretty => .ok (Report.pretty settings color o)
  | .summary => .ok (Report.summary o)
  | .json =>
    if limit < (o.ast.map Expr.depth).getD 0 then .error .tooDeep
    else .ok (o.toJson.render (some 2))

end InferTrace
