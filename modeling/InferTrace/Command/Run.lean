/-
Running the program: from the words of a command line to what is printed.

A run sees the world through `World`: what paths lead to, where it runs, how configuration
files are decoded, and what it prints on. Its result is an exit status, the text printed, and the
lines printed beside it. Settings are loaded before the level of notices is known, so the notices
about them are printed bare; later ones are printed from the chosen level on.

How deep things may be nested depends on what is done with them; `Bounds` has each limit.
-/
import InferTrace.Command.Arguments
import InferTrace.Command.Usage
import InferTrace.Config.Load
import InferTrace.Report

namespace InferTrace.Command

open Text (Points)

/-- What a run can see. There may be no working directory any more. -/
structure World where
  look : Points → Except PathFault Item
  cwd : Option Names := some []
  decoders : Config.Decoders
  terminal : Bool := false
  noColor : Bool := false

/-- How deep things may be nested, by what is done with them. -/
structure Bounds where
  /-- The limits of inference. -/
  run : Limits
  /-- The depth of an expression that is printed with its type. -/
  exporting : Nat
  /-- The levels of the parser, where an expression is only parsed. -/
  parsing : Nat
  /-- The depth of an expression that is printed on its own. -/
  printing : Nat
  /-- The depth of a value in a configuration file that is shown as text. -/
  settings : Nat

/-- A line printed beside the text: a notice, with or without its channel, or other words. -/
inductive Remark where
  | bare (notice : Notice)
  | full (notice : Notice)
  | words (line : String)
deriving DecidableEq, Repr

/-- The line of a remark. -/
def Remark.line : Remark → Points
  | bare notice => notice.text
  | full notice => notice.line
  | words line => line

/-- What a run comes to. -/
structure Result where
  status : Nat
  text : String := ""
  remarks : List Remark := []
deriving DecidableEq, Repr

-- ============================================================= notices

/-- The ranks that the settings can name. -/
def namedRanks : List (String × Nat) :=
  [("NOTSET", 0), ("DEBUG", Level.debug.rank), ("INFO", Level.info.rank),
   ("WARN", Level.warning.rank), ("WARNING", Level.warning.rank), ("ERROR", Level.error.rank),
   ("CRITICAL", Level.critical.rank), ("FATAL", Level.critical.rank)]

/-- The rank from which notices are shown. A name that is no level counts as a warning. -/
def threshold (verbose : Bool) (settings : Settings) : Nat :=
  if verbose then Level.debug.rank
  else (settings.logLevel.string?.bind fun name => namedRanks.lookup name).getD Level.warning.rank

-- ============================================================= sources

/-- A line of text. -/
def lineOf (text : String) : String := text ++ "\n"

/-- A failure to get at the source, as it is printed. -/
def sourceFailure (message : String) : String :=
  lineOf ((Json.obj [("error", .str message)]).render none)

/-- The file that a task names; an empty name is none. -/
def Task.file? (t : Task) : Option String := t.file.filter (· != "")

/-- The source that a task is to work on, or what is printed if there is none. A file comes
before an expression. -/
def readSource (world : World) (t : Task) : Except Abort (Except String String) :=
  match t.file?, t.expr with
  | some path, _ =>
    match world.look path with
    | .error _ => .ok (.error (sourceFailure ("File not found: " ++ path)))
    | .ok .directory => .error (.unopened .isDirectory)
    | .ok (.locked reason) => .error (.unopened (.other reason))
    | .ok (.file bytes) =>
      match Text.decodeFile bytes with
      | some text => .ok (.ok text)
      | none => .error .undecodable
  | none, some expr => .ok (.ok expr)
  | none, none => .ok (.error (sourceFailure "No expression given"))

-- ============================================================ commands

/-- What a command prints: its status, its text, and the notices on the way. -/
structure Printed where
  status : Nat
  text : String
  notices : List Notice := []

/-- A diagnostic as it is printed. -/
def printDiagnostic (d : Diagnostic) : String := lineOf (d.toJson.render (some 2))

/-- The settings of a task: its switches go over the settings that were loaded. -/
def Task.settings (t : Task) (settings : Settings) : Settings :=
  { settings with
    strictLexing := settings.strictLexing || t.strict
    showSnapshots := settings.showSnapshots && !t.noSnapshots
    color := settings.color && !t.noColor }

/-- How an escape from inference ends the program. -/
def abortOf : Escape → Abort
  | .tooDeep => .tooDeep
  | .tooLong => .tooLong
  | .rebound r => .rebound r

/-- Infer the type of a source and print the outcome. A source that is a string is shown by
characters alone. -/
def infer (bounds : Bounds) (world : World) (settings : Settings) (t : Task) (source : String) :
    Except Abort Printed := do
  let mode : Mode := { file := t.file?.getD "<input>", strict := settings.strictLexing }
  match runNoticed bounds.run mode source with
  | .error escape => throw (abortOf escape)
  | .ok (o, notices) =>
    let color := settings.colorOn world.terminal world.noColor
    match o.render bounds.exporting (t.format.getD settings.format) settings color with
    | .ok text => return { status := if o.ok then 0 else 1, text := lineOf text.face, notices }
    | .error _ => throw .tooDeep

/-- A token in one line: its place, its class and its text. -/
def tokenLine (t : Token) : String :=
  toString t.location.line ++ ":" ++ toString t.location.column ++ "\t" ++ t.lexeme.cls.text
    ++ "\t" ++ t.text

/-- Print the tokens of a source. -/
def tokens (settings : Settings) (source : String) : Printed :=
  let mode : Mode := { file := "<input>", strict := settings.strictLexing }
  let scan := scanSource mode source
  match scan.result with
  | .ok tokens =>
    { status := 0, text := String.join (tokens.map fun t => lineOf (tokenLine t))
      notices := scan.notices }
  | .error fault =>
    { status := 1, text := printDiagnostic fault.diagnostic, notices := scan.notices }

/-- Print the expression of a source. One that is nested too deeply to be parsed or printed is
a failure of parsing. -/
def ast (bounds : Bounds) (settings : Settings) (source : String) : Printed :=
  let mode : Mode := { file := "<input>", strict := settings.strictLexing }
  let notices := parseNotices mode source
  let failed (f : Fault) : Printed :=
    { status := 1, text := printDiagnostic f.diagnostic, notices }
  match parseSource bounds.parsing mode source with
  | .error (.fault f) => failed f
  | .error _ => failed { cause := .nestingTooDeep "parse" }
  | .ok e =>
    if bounds.printing < e.depth then failed { cause := .nestingTooDeep "parse" }
    else { status := 0, text := lineOf (e.toJson.render (some 2)), notices }

/-- Do a task. -/
def Task.run (bounds : Bounds) (world : World) (settings : Settings) (t : Task) :
    Except Abort Printed := do
  match ← readSource world t with
  | .error text => return { status := 1, text }
  | .ok source =>
    let settings := t.settings settings
    match t.verb with
    | .infer => infer bounds world settings t source
    | .tokens => return tokens settings source
    | .ast => return ast bounds settings source

-- ============================================================= running

/-- What is printed when reading the command line stops. -/
def Stop.result : Stop → Result
  | .help tier => { status := 0, text := tier.help }
  | .version => { status := 0, text := lineOf versionLine }
  | .refused tier message =>
    { status := 2
      remarks := tier.usage.map .words ++ [.words (tier.title ++ ": error: " ++ message)] }

/-- Load the settings of an invocation. -/
def ConfigFile.load (limit : Nat) (world : World) : ConfigFile → Config.Loading Settings
  | nearest => Config.load limit world.decoders world.look world.cwd none "."
  | located path => Config.load limit world.decoders world.look world.cwd (some path) "."
  | takenBack => throw .noPath

/-- Run an invocation. Without a task the help is printed, and that is a failure. -/
def Invocation.run (bounds : Bounds) (world : World) (i : Invocation) : Except Abort Result := do
  match (i.config.load bounds.settings world).run [] with
  | .error abort _ => throw abort
  | .ok settings loaded =>
    let early := loaded.map Remark.bare
    match i.task with
    | none => return { status := 1, text := Tier.program.help, remarks := early }
    | some t =>
      let printed ← t.run bounds world settings
      let rank := threshold i.verbose settings
      let shown := printed.notices.filter fun n => rank ≤ n.level.rank
      return { status := printed.status, text := printed.text
               remarks := early ++ shown.map Remark.full }

/-- Run the program on the words of a command line, with bounds on nesting. -/
def run (bounds : Bounds) (world : World) (words : List String) : Except Abort Result :=
  match Invocation.read words with
  | .error stop => .ok stop.result
  | .ok i => i.run bounds world

/-- The paths that a run on a command line may ask for. -/
def consulted (cwd : Option Names) (words : List String) : List Points :=
  match Invocation.read words with
  | .error _ => []
  | .ok i =>
    let config : List Points := match i.config with
      | .nearest => (Config.searchPaths cwd ".").toOption.getD []
      | .located path => [path]
      | .takenBack => []
    config ++ (i.task.bind Task.file?).toList.map Points.ofString

end InferTrace.Command
