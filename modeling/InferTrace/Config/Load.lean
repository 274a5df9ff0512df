/-
Loading the settings.

Without a path, the configuration file is the nearest one in the directory where the search
starts or above it. A file that cannot be opened or is malformed leaves the defaults in force,
with a notice; so does one that holds no mapping, without a notice. In a mapping each setting
is read on its own, and keys that are no settings are passed over.

How a text is read as a value is left open: `Decoders` may be any functions that give a value or
fail.
-/
import InferTrace.Config.Basic
import InferTrace.Config.Value
import InferTrace.Diagnostic
import InferTrace.Files
import InferTrace.Notice
import InferTrace.Text.Newline

namespace InferTrace

open Text (Points)

/-- What ends the program without a report. -/
inductive Abort where
  | undecodable
  | unopened (fault : PathFault)
  /-- A file is to be opened that has no path. -/
  | noPath
  /-- There is no working directory to search from. -/
  | noDirectory
  /-- A configuration file holds a scalar that is not what it should be. -/
  | scalar (fault : Config.ScalarFault)
  /-- A decoder has failed for a reason of its own. -/
  | decoder (reason : String)
  | tooDeep
  | tooLong
  | rebound (rebound : Rebound)
deriving DecidableEq, Repr

namespace Config

-- ============================================================ settings

/-- Loading settings gives notices, also if it aborts after them. -/
abbrev Loading := EStateM Abort (List Notice)

/-- Give a notice. -/
def notify (n : Notice) : Loading Unit := modify (· ++ [n])

/-- A value as text, nested at most `limit` deep. -/
def readText (limit : Nat) (v : Value) : Loading Points :=
  if limit < v.depth then throw .tooDeep
  else
    match v.display? with
    | .ok text => return text
    | .error fault => throw (.scalar fault)

/-- The format that a value names; any other leaves the format as it was, with a notice. -/
def readFormat (limit : Nat) (kept : Format) (v : Value) : Loading Format := do
  let name ← readText limit v
  match name.string?.bind Format.ofText? with
  | some f => return f
  | none =>
    notify (.unknownFormat name kept.text)
    return kept

/-- What is read from a value, or what is kept if there is none. -/
def readOr {α : Type} (kept : α) (read : Value → Loading α) : Option Value → Loading α
  | some v => read v
  | none => return kept

/-- The settings that the entries of a mapping give. -/
def readEntries (limit : Nat) (entries : List (Value × Value)) : Loading Settings := do
  let defaults : Settings := {}
  let flag (name : String) (kept : Bool) : Bool :=
    ((Value.entry? name entries).map Value.truthy).getD kept
  let format ← readOr defaults.format (readFormat limit defaults.format)
    (Value.entry? "format" entries)
  let logLevel ← readOr defaults.logLevel (fun v => Points.upper <$> readText limit v)
    (Value.entry? "log_level" entries)
  return { strictLexing := flag "strict_lexing" defaults.strictLexing
           format
           showSnapshots := flag "show_snapshots" defaults.showSnapshots
           showAstEvents := flag "show_ast_events" defaults.showAstEvents
           color := flag "color" defaults.color
           logLevel }

/-- The settings that a value gives: the defaults, unless it is a mapping. -/
def readValue (limit : Nat) : Value → Loading Settings
  | .mapping entries => readEntries limit entries
  | _ => return {}

-- ============================================================ searching

/-- The names of a configuration file, the preferred first. -/
def fileNames : List String := [".hmtracerc.yml", ".hmtracerc.yaml", ".hmtracerc.json"]

/-- The paths at which a search tries, in order. There are none if the search is to start from a
working directory, and that is gone. -/
def searchPaths (cwd : Option Names) (start : Points) : Except Abort (List Points) :=
  match isAbsolute start, cwd with
  | false, none => .error .noDirectory
  | _, cwd =>
    .ok ((ancestors (normalize (cwd.getD []) start)).flatMap fun dir =>
      fileNames.map fun name => Names.absolute (rootOf start) (dir ++ [Points.ofString name]))

/-- A path leads to a file. -/
def isFile (look : Points → Except PathFault Item) (path : Points) : Bool :=
  match look path with
  | .ok item => item.isFile
  | .error _ => false

/-- The path of the configuration file: the one that is given, or the nearest one. -/
def locate (look : Points → Except PathFault Item) (cwd : Option Names) (path : Option Points)
    (start : Points) : Except Abort (Option Points) :=
  match path with
  | some path => .ok (some path)
  | none => (searchPaths cwd start).map fun paths => paths.find? (isFile look)

-- ============================================================= loading

/-- How a text is read as a value, in each of two formats. -/
structure Decoders where
  json : String → Except ReadFault Value
  yaml : String → Except ReadFault Value

/-- The bytes of the file at a path. -/
def openFile (look : Points → Except PathFault Item) (path : Points) :
    Except PathFault ByteArray :=
  match look path with
  | .ok (.file bytes) => .ok bytes
  | .ok .directory => .error .isDirectory
  | .ok (.locked reason) => .error (.other reason)
  | .error fault => .error fault

/-- The value that the contents of a file stand for, by the format that its name tells. -/
def readContent (decoders : Decoders) (path : Points) (content : String) :
    Except ReadFault Value :=
  if path.endsWith ".json" then decoders.json content else decoders.yaml content

/-- How a fault of reading ends the program, unless the file is malformed. -/
def ReadFault.abort? : ReadFault → Option Abort
  | .malformed => none
  | .scalar fault => some (.scalar fault)
  | .other reason => some (.decoder reason)
  | .tooDeep => some .tooDeep

/-- The value that a file holds; `none` if it is malformed. -/
def decode (decoders : Decoders) (path : Points) (content : String) : Loading (Option Value) :=
  match readContent decoders path content with
  | .ok v => return some v
  | .error fault =>
    match fault.abort? with
    | none => return none
    | some abort => throw abort

/-- Load the settings of the file at a path. -/
def loadFile (limit : Nat) (decoders : Decoders) (look : Points → Except PathFault Item)
    (path : Points) : Loading Settings := do
  match openFile look path with
  | .error fault =>
    if fault.isOfSystem then
      notify (.unreadableConfig path (fault.report path))
      return {}
    else throw (.unopened fault)
  | .ok bytes =>
    match Text.decodeFile bytes with
    | none => throw .undecodable
    | some content =>
      match ← decode decoders path content with
      | none =>
        notify (.invalidConfig path "malformed")
        return {}
      | some v => readValue limit v

/-- Load the settings from a given file, or from the nearest one. -/
def load (limit : Nat) (decoders : Decoders) (look : Points → Except PathFault Item)
    (cwd : Option Names) (path : Option Points) (start : Points) : Loading Settings :=
  match locate look cwd path start with
  | .error abort => throw abort
  | .ok none => return {}
  | .ok (some path) => loadFile limit decoders look path

end Config

end InferTrace
