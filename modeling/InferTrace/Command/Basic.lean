/-
The command line: its commands, its switches, and what an invocation asks for.

A switch is a word that starts with a hyphen. Some switches belong to the program and stand
before the command, the others belong to a command and stand after it.
-/
import InferTrace.Config.Basic

namespace InferTrace.Command

/-- What the program can be told to do. -/
inductive Verb where
  | infer
  | tokens
  | ast
deriving DecidableEq, Repr

namespace Verb

/-- The word for a command. -/
def text : Verb → String
  | infer => "infer"
  | tokens => "tokens"
  | ast => "ast"

/-- Every command. -/
def all : List Verb := [infer, tokens, ast]

/-- The command of a word. -/
def ofText? (word : String) : Option Verb := all.find? fun v => v.text == word

end Verb

/-- Every switch. -/
inductive Switch where
  | help
  | version
  | config
  | verbose
  | file
  | strict
  | outputFormat
  | noSnapshots
  | noColor
deriving DecidableEq, Repr

namespace Switch

/-- The spellings of a switch, a short one first. -/
def names : Switch → List String
  | help => ["-h", "--help"]
  | version => ["--version"]
  | config => ["--config"]
  | verbose => ["-v", "--verbose"]
  | file => ["-f", "--file"]
  | strict => ["--strict"]
  | outputFormat => ["--output-format"]
  | noSnapshots => ["--no-snapshots"]
  | noColor => ["--no-color"]

/-- A switch in messages. -/
def title (s : Switch) : String := "/".intercalate s.names

/-- The switch is followed by a value. -/
def takesValue : Switch → Bool
  | config | file | outputFormat => true
  | _ => false

/-- The values a switch may have; any, if there are none. -/
def choices : Switch → List String
  | outputFormat => Format.all.map Format.text
  | _ => []

end Switch

/-- Where a switch stands: before the command, or after it. -/
inductive Tier where
  | program
  | command (verb : Verb)
deriving DecidableEq, Repr

namespace Tier

/-- The words that lead to a tier. -/
def title : Tier → String
  | program => "hmtrace"
  | command verb => "hmtrace " ++ verb.text

/-- The switches of a tier. -/
def switches : Tier → List Switch
  | program => [.help, .version, .config, .verbose]
  | command .infer => [.help, .file, .strict, .outputFormat, .noSnapshots, .noColor]
  | command _ => [.help, .file, .strict]

/-- The spellings of a tier, each with its switch. -/
def spellings (t : Tier) : List (String × Switch) :=
  t.switches.flatMap fun s => s.names.map fun name => (name, s)

end Tier

/-- A command and what it is to work on. -/
structure Task where
  verb : Verb
  expr : Option String := none
  file : Option String := none
  strict : Bool := false
  format : Option Format := none
  noSnapshots : Bool := false
  noColor : Bool := false
deriving DecidableEq, Repr

/-- Which configuration file to load. One that was named and then taken back is no path, and is
not searched for either. -/
inductive ConfigFile where
  | nearest
  | located (path : String)
  | takenBack
deriving DecidableEq, Repr

/-- What the words of a command line ask for. -/
structure Invocation where
  config : ConfigFile := .nearest
  verbose : Bool := false
  task : Option Task := none
deriving DecidableEq, Repr

end InferTrace.Command
