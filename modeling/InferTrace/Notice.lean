/-
Notices: the running commentary of the program, kept apart from its results.

Each notice comes from one part of the program and has a level; a reader chooses the level
from which notices are shown.
-/
import InferTrace.Source.Location
import InferTrace.Text.Points

namespace InferTrace

/-- How much a notice matters. -/
inductive Level where
  | debug
  | info
  | warning
  | error
  | critical
deriving DecidableEq, Repr

namespace Level

/-- The rank of a level; silence below a threshold is by rank. -/
def rank : Level → Nat
  | debug => 10
  | info => 20
  | warning => 30
  | error => 40
  | critical => 50

/-- The name of a level. -/
def text : Level → String
  | debug => "DEBUG"
  | info => "INFO"
  | warning => "WARNING"
  | error => "ERROR"
  | critical => "CRITICAL"

end Level

/-- One remark about what the program is doing. -/
inductive Notice where
  | dropped (char : Text.Point) (place : Location)
  | parsing (tokens : Nat) (file : Text.Points)
  | bound (typeVar type reason : String)
  | started (source : Text.Points)
  | finished (result : Text.Points) (events : Nat)
  | unknownFormat (given : Text.Points) (kept : String)
  | unreadableConfig (path : Text.Points) (reason : String)
  | invalidConfig (path : Text.Points) (reason : String)
deriving DecidableEq, Repr

namespace Notice

/-- The part of the program that speaks. -/
def channel : Notice → String
  | dropped _ _ => "hmtrace.lexer"
  | parsing _ _ => "hmtrace.parser"
  | bound _ _ _ => "hmtrace.unify"
  | started _ | finished _ _ => "hmtrace.pipeline"
  | unknownFormat _ _ | unreadableConfig _ _ | invalidConfig _ _ => "hmtrace.config"

/-- The level of a notice: trouble with the configuration is a warning, all else is detail. -/
def level : Notice → Level
  | dropped _ _ | parsing _ _ | bound _ _ _ | started _ | finished _ _ => .debug
  | unknownFormat _ _ | unreadableConfig _ _ | invalidConfig _ _ => .warning

/-- The words of a notice. -/
def text : Notice → Text.Points
  | dropped char place =>
    "dropping unrecognized character " ++ Text.Points.quoted ⟨[char]⟩ ++ " at " ++ place.text
  | parsing tokens file => "parsing " ++ toString tokens ++ " tokens from " ++ file
  | bound typeVar type reason => "bound " ++ typeVar ++ " := " ++ type ++ " (" ++ reason ++ ")"
  | started source => "inference run started for " ++ source.quoted
  | finished result events =>
    "inference run finished: " ++ result ++ " (" ++ toString events ++ " events)"
  | unknownFormat given kept =>
    "unknown format " ++ given.quoted ++ ", keeping " ++ Text.quoted kept
  | unreadableConfig path reason => "cannot read config " ++ path ++ ": " ++ reason
  | invalidConfig path reason => "invalid config " ++ path ++ ": " ++ reason

/-- A notice with its channel and level. -/
def line (n : Notice) : Text.Points := n.channel ++ " - " ++ n.level.text ++ " - " ++ n.text

end Notice

end InferTrace
