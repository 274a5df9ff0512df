/-
One run: a source text from its code points to its type, with the first failure kept instead of
the type.

Limits on nesting withhold what they do not allow. Where they stop the parser or inference, that is
a failure of the run like any other. When a run is closed, its variables are shown once more; if
there is no room for that, the run has no outcome at all.
-/
import InferTrace.Analysis
import InferTrace.Expr.Export
import InferTrace.Expr.Parser
import InferTrace.Token.Scanner

namespace InferTrace

open Text (Point Points)

/-- What a run gives: the expression if it was parsed, its type or the error, the trace, and
the variables at the end. -/
structure Outcome where
  source : Points
  ast : Option Expr := none
  type : Option String := none
  error : Option Diagnostic := none
  trace : List Event := []
  typeVars : Snapshot := []
deriving Inhabited

namespace Outcome

/-- The run found a type. -/
def ok (o : Outcome) : Bool := o.error.isNone

/-- An outcome as a JSON object, given the names of the expression's nodes. -/
def toJson (o : Outcome) (name : Nat → String := nodeName) : Json :=
  .obj [("source", .str o.source), ("ok", .bool o.ok),
    ("type", Json.ofOption (fun t : String => .str t) o.type),
    ("error", Json.ofOption Diagnostic.toJson o.error),
    ("ast", Json.ofOption (fun e : Expr => e.toJson name) o.ast),
    ("trace", .arr (o.trace.map Event.toJson)), ("type_variables", Snapshot.toJson o.typeVars)]

end Outcome

-- ========================================================= front end

/-- The notices of a scan: one for each character it dropped. -/
def Cursor.Scan.notices (s : Cursor.Scan) : List Notice :=
  s.dropped.map fun (c, place) => .dropped (.char c) place

/-- Scan and parse a source text. -/
def parseSource (limit : Nat) (mode : Mode) (source : String) : Except Halt Expr :=
  match (scanSource mode source).result with
  | .error fault => .error (.fault fault)
  | .ok tokens => parseTokens limit tokens

/-- The notices of parsing a source text on its own: what the scan dropped, and how many
tokens there were. -/
def parseNotices (mode : Mode) (source : String) : List Notice :=
  let scan := scanSource mode source
  scan.notices ++ match scan.result with
    | .error _ => []
    | .ok tokens => [.parsing tokens.length mode.file]

-- ======================================================= code points

/-- The codes among the points that are no characters, with their positions, from `p` on. -/
def codesFrom : Position → List Point → List (Position × Nat)
  | _, [] => []
  | p, point :: rest =>
    (point.code?.map fun n => (p, n)).toList ++ codesFrom (p.past point.face) rest

/-- The code at a place of a source, if it is no character. -/
def codeAt? (source : Points) (place : Location) : Option Nat :=
  ((codesFrom {} source.toList).find? fun (p, _) =>
    p.line = place.line ∧ p.column = place.column).map Prod.snd

/-- A fault of a source, told with the code that stands at its place. -/
def Fault.restored (source : Points) (f : Fault) : Fault :=
  match f.cause, f.location.bind (codeAt? source) with
  | .strayCharacter _, some n => { f with cause := .strayCharacter ⟨[.code n]⟩ }
  | _, _ => f

/-- Scan a source by code points. A code that is no character is part of no lexeme, nor is the
character that replaces it. -/
def scanPoints (mode : Mode) (source : Points) : Except Fault (List Token) :=
  (scanSource mode source.face).result.mapError (Fault.restored source)

/-- The notices of a scan by code points. -/
def pointNotices (mode : Mode) (source : Points) : List Notice :=
  (scanSource mode source.face).dropped.map fun (c, place) =>
    .dropped (((codeAt? source place).map Point.code).getD (.char c)) place

/-- Scan and parse a source by code points. -/
def parsePoints (limit : Nat) (mode : Mode) (source : Points) : Except Halt Expr :=
  match scanPoints mode source with
  | .error fault => .error (.fault fault)
  | .ok tokens => parseTokens limit tokens

-- =============================================================== runs

/-- What comes out of a run in place of an outcome. -/
inductive Escape where
  /-- There is no more room to show the types. -/
  | tooDeep
  /-- A number has too many digits to be shown. -/
  | tooLong
  /-- A type variable was to be linked again. -/
  | rebound (rebound : Rebound)
deriving DecidableEq, Repr

/-- The fault of a halt at a stage of a run; `node` is where the stage began. What is no fault
of the source escapes. -/
def Halt.atStage (stage : String) (node : Option String) : Halt → Except Escape Fault
  | .fault f => .ok f
  | .tooDeep => .ok { cause := .nestingTooDeep stage, node }
  | .tooLong => .error .tooLong
  | .rebound r => .error (.rebound r)

/-- Close a run with a failure: it is the last event. -/
def Outcome.failed (source : Points) (ast : Option Expr) (fault : Fault) (t : Tracer) : Outcome :=
  let d := fault.diagnostic
  let t := t.record .error ("failure: " ++ d.message) d.node
  { source, ast, error := some d, trace := t.events.toList, typeVars := t.store.snapshot }

/-- Close a run with a type. -/
def Outcome.succeeded (source : Points) (ast : Expr) (type : Ty) (t : Tracer) : Outcome :=
  { source, ast := some ast, type := some (t.store.render type), trace := t.events.toList
    typeVars := t.store.snapshot }

/-- Close a run, with the tracer it ended in, if its variables can be shown. -/
def Outcome.closed (limits : Limits) (t : Tracer) (o : Outcome) : Except Escape (Outcome × Tracer) :=
  if t.store.canSnapshot limits.closing then .ok (o, t) else .error .tooDeep

/-- Run inference on a source under limits on nesting, with the tracer it ended in. -/
def runTraced (limits : Limits) (mode : Mode) (source : Points) :
    Except Escape (Outcome × Tracer) :=
  match parsePoints limits.parsing mode source with
  | .error halt => do
    let fault ← halt.atStage "parse" none
    (Outcome.failed source none fault {}).closed limits {}
  | .ok e =>
    match inferWithin limits [] e {} with
    | .error halt t => do
      let fault ← halt.atStage "infer" (some (nodeName 0))
      (Outcome.failed source (some e) fault t).closed limits t
    | .ok type t => (Outcome.succeeded source e type t).closed limits t

/-- Run inference on a source, under limits on nesting. -/
def run (limits : Limits) (mode : Mode) (source : Points) : Except Escape Outcome :=
  (runTraced limits mode source).map Prod.fst

/-- The result of a run in one line. -/
def Outcome.headline (o : Outcome) : Points :=
  match o.type, o.error with
  | some t, _ => t
  | none, some d => d.text
  | none, none => ""

/-- A run with its notices: its start, what the scan dropped, each link, and its end. -/
def runNoticed (limits : Limits) (mode : Mode) (source : Points) :
    Except Escape (Outcome × List Notice) := do
  let (o, t) ← runTraced limits mode source
  return (o, .started source :: pointNotices mode source ++ t.notices.toList
    ++ [.finished o.headline o.trace.length])

end InferTrace
