/-
Settings of a run and of how its outcome is shown.
-/
import InferTrace.Text.Points

namespace InferTrace

/-- How an outcome is shown. -/
inductive Format where
  | pretty
  | summary
  | json
deriving DecidableEq, Repr, Inhabited

namespace Format

/-- The name of a format. -/
def text : Format → String
  | pretty => "pretty"
  | summary => "summary"
  | json => "json"

/-- Every format. -/
def all : List Format := [pretty, summary, json]

/-- The format of a name. -/
def ofText? (name : String) : Option Format := all.find? fun f => f.text == name

theorem ofText?_text (f : Format) : ofText? f.text = some f := by
  cases f <;> decide

end Format

/-- The settings, with their defaults. -/
structure Settings where
  strictLexing : Bool := false
  format : Format := .pretty
  showSnapshots : Bool := true
  showAstEvents : Bool := true
  color : Bool := true
  logLevel : Text.Points := .ofString "WARNING"
deriving DecidableEq, Repr, Inhabited

end InferTrace
