/-
Reading the words of a command line.

Every word is classified first, and only then are they taken in order. A word that starts with
a hyphen is a switch if it is a spelling of one, a spelling with `=` and a value, the start of
exactly one long spelling, or a short spelling with its value right behind it. A negative
number, or a word with a space in it, is no switch but an operand. After the word `--` all
words are operands; as the value of a switch it takes back the value.

The words after the command are read once more, by the command's own switches. Words that
nobody takes are refused at the very end, so that any other mistake, and any call for help,
comes first.
-/
import InferTrace.Command.Basic
import InferTrace.Text.Digit
import InferTrace.Text.Quoted

namespace InferTrace.Command

/-- Why reading ended before its end. -/
inductive Stop where
  | help (tier : Tier)
  | version
  | refused (tier : Tier) (message : String)
deriving DecidableEq, Repr

-- ========================================================== classifying

/-- What a word is. A switch may have text attached to it: after `=`, or right behind a short
spelling. -/
inductive Arg where
  | operand (word : String)
  | divider
  | given (word : String) (switch : Switch) (name : String) (attached : Option String)
  | unknown (word : String)
deriving DecidableEq, Repr

/-- The word itself. -/
def Arg.word : Arg → String
  | operand w | given w _ _ _ | unknown w => w
  | divider => "--"

/-- The parts before and after the first `=`. -/
def splitEquals (word : List Char) : List Char × Option (List Char) :=
  let before := word.takeWhile (· != '=')
  match word.drop before.length with
  | _ :: after => (before, some after)
  | [] => (before, none)

/-- The word looks like a negative number. A newline may end it. -/
def isNegativeNumber (word : List Char) : Bool :=
  let number (cs : List Char) : Bool :=
    let whole := cs.takeWhile Text.isDecimalDigit
    match cs.drop whole.length with
    | [] => !whole.isEmpty
    | '.' :: places => !places.isEmpty && places.all Text.isDecimalDigit
    | _ => false
  match word with
  | '-' :: cs => number (if cs.getLast? == some '\n' then cs.dropLast else cs)
  | _ => false

/-- The switches that a word could mean though it is no full spelling of one. -/
def guesses (tier : Tier) (word : List Char) : List (Switch × String × Option String) :=
  if word.take 2 == ['-', '-'] then
    let (stem, value) := splitEquals word
    (tier.spellings.filter fun (name, _) => stem.isPrefixOf name.toList).map fun (name, s) =>
      (s, name, value.map String.ofList)
  else
    tier.spellings.filterMap fun (name, s) =>
      if name.toList == word.take 2 then some (s, name, some (String.ofList (word.drop 2)))
      else if word.isPrefixOf name.toList then some (s, name, none)
      else none

/-- The switch that a word spells in full, with or without a value after `=`. -/
def spelled? (tier : Tier) (word : List Char) : Option (Switch × String × Option String) :=
  let name := String.ofList word
  match tier.spellings.lookup name, splitEquals word with
  | some s, _ => some (s, name, none)
  | none, (before, some value) =>
    let name := String.ofList before
    (tier.spellings.lookup name).map fun s => (s, name, some (String.ofList value))
  | none, (_, none) => none

/-- Classify a word that is not `--`. A word that could mean several switches is refused. -/
def classify (tier : Tier) (word : String) : Except Stop Arg :=
  let cs := word.toList
  if cs.head? != some '-' || cs == ['-'] then .ok (.operand word)
  else
    match spelled? tier cs with
    | some (s, name, attached) => .ok (.given word s name attached)
    | none =>
      match guesses tier cs with
      | [(s, name, attached)] => .ok (.given word s name attached)
      | [] =>
        .ok (if isNegativeNumber cs || cs.contains ' ' then .operand word else .unknown word)
      | several =>
        let names := ", ".intercalate (several.map fun (_, name, _) => name)
        .error (.refused tier ("ambiguous option: " ++ word ++ " could match " ++ names))

/-- Classify all words. -/
def classifyAll (tier : Tier) : List String → Except Stop (List Arg)
  | [] => .ok []
  | word :: rest => do
    if word = "--" then return .divider :: rest.map .operand
    else
      let arg ← classify tier word
      return arg :: (← classifyAll tier rest)

-- ============================================================= switches

/-- A switch as it was given, with its value if it has one. -/
abbrev Given := Switch × Option String

/-- A switch with the text of its value. The divider is no value. -/
def givenText (s : Switch) (text : String) : Given :=
  (s, if text = "--" then none else some text)

/-- What one word of switches comes to: switches with their values, and a last switch whose
value is still to come. -/
structure Cluster where
  given : List Given := []
  pending : Option Switch := none

/-- A mistake in the use of a switch. -/
def misuse {α : Type} (tier : Tier) (s : Switch) (what : String) : Except Stop α :=
  .error (.refused tier ("argument " ++ s.title ++ ": " ++ what))

/-- Refuse the text behind a switch that has no use for it. -/
def refuseText {α : Type} (tier : Tier) (s : Switch) (text : List Char) : Except Stop α :=
  misuse tier s ("ignored explicit argument " ++ Text.quoted (String.ofList text))

/-- Read a switch with the text attached to it. Behind a short switch that takes no value more
short switches may follow; text that is nothing of the kind is a mistake. -/
def cluster (tier : Tier) (short : Bool) : Switch → List Char → Except Stop Cluster
  | s, [] => if s.takesValue then .ok { given := [givenText s ""] } else refuseText tier s []
  | s, c :: rest =>
    if s.takesValue then .ok { given := [givenText s (String.ofList (c :: rest))] }
    else
      match short, tier.spellings.lookup (String.ofList ['-', c]), rest with
      | true, some next, [] => .ok { given := [(s, none)], pending := some next }
      | true, some next, _ :: _ =>
        (cluster tier short next rest).map fun more =>
          { more with given := (s, none) :: more.given }
      | _, _, _ => refuseText tier s (c :: rest)

/-- Give the pending switch of a cluster its value, which is the next word if that is an
operand. -/
def Cluster.complete (tier : Tier) (c : Cluster) (next : Option Arg) :
    Except Stop (List Given × Bool) :=
  match c.pending with
  | none => .ok (c.given, false)
  | some s =>
    if s.takesValue then
      match next with
      | some (.operand word) => .ok (c.given ++ [givenText s word], true)
      | _ => misuse tier s "expected one argument"
    else .ok (c.given ++ [(s, none)], false)

/-- What was read so far: switches with their values, the operand, and words nobody took. -/
structure Reading where
  given : List Given := []
  operand : Option String := none
  done : Bool := false
  extras : List String := []

/-- The message for a value outside the choices. -/
def invalidChoice (value : String) (choices : List String) : String :=
  "invalid choice: " ++ Text.quoted value ++ " (choose from "
    ++ ", ".intercalate (choices.map Text.quoted) ++ ")"

/-- Take switches in order. A call for help or for the version ends the reading. -/
def Reading.take (tier : Tier) : List Given → Reading → Except Stop Reading
  | [], r => .ok r
  | (s, value) :: rest, r =>
    match s with
    | .help => .error (.help tier)
    | .version => .error .version
    | s =>
      match value.filter fun v => !s.choices.isEmpty && !s.choices.contains v with
      | some wrong => misuse tier s (invalidChoice wrong s.choices)
      | none => Reading.take tier rest { r with given := r.given ++ [(s, value)] }

/-- Read one word of switches, given the word after it; says whether that word was taken as a
value. -/
def Reading.takeWord (tier : Tier) (s : Switch) (name : String) (attached : Option String)
    (next : Option Arg) (r : Reading) : Except Stop (Reading × Bool) := do
  let short := name.toList.take 2 != ['-', '-']
  let c ← match attached with
    | none => .ok { pending := some s }
    | some text => cluster tier short s text.toList
  let (given, taken) ← c.complete tier next
  return (← r.take tier given, taken)

-- ============================================================= commands

/-- Read the words after a command; `taken` says that the first of them is a value already. The
first operand is the expression; the divider before or after it goes with it. -/
def readCommand (tier : Tier) : List Arg → Bool → Reading → Except Stop Reading
  | [], _, r => .ok r
  | _ :: rest, true, r => readCommand tier rest false r
  | .given _ s name attached :: rest, false, r => do
    let (r, taken) ← r.takeWord tier s name attached rest.head?
    readCommand tier rest taken r
  | .unknown word :: rest, false, r =>
    readCommand tier rest false { r with extras := r.extras ++ [word] }
  | .operand word :: .divider :: rest, false, r =>
    if r.done then readCommand tier rest false { r with extras := r.extras ++ [word, "--"] }
    else readCommand tier rest false { r with operand := some word, done := true }
  | .divider :: .operand word :: rest, false, r =>
    if r.done then readCommand tier rest false { r with extras := r.extras ++ ["--", word] }
    else readCommand tier rest false { r with operand := some word, done := true }
  | .operand word :: rest, false, r =>
    if r.done then readCommand tier rest false { r with extras := r.extras ++ [word] }
    else readCommand tier rest false { r with operand := some word, done := true }
  | .divider :: rest, false, r =>
    if r.done then readCommand tier rest false { r with extras := r.extras ++ ["--"] }
    else readCommand tier rest false { r with done := true }

/-- The last thing given for a switch: its value, or that the value is taken back. -/
def Reading.last? (r : Reading) (s : Switch) : Option (Option String) :=
  (r.given.reverse.find? fun (t, _) => t == s).map Prod.snd

/-- The last value given for a switch, unless it is taken back. -/
def Reading.value? (r : Reading) (s : Switch) : Option String := (r.last? s).join

/-- The switch was given. -/
def Reading.has (r : Reading) (s : Switch) : Bool := (r.last? s).isSome

/-- The configuration file that was asked for. -/
def Reading.configFile (r : Reading) : ConfigFile :=
  match r.last? .config with
  | none => .nearest
  | some (some path) => .located path
  | some none => .takenBack

/-- Read the words after a command: its task, and the words nobody took. -/
def readTask (verb : Verb) (words : List String) : Except Stop (Task × List String) := do
  let tier := Tier.command verb
  let r ← readCommand tier (← classifyAll tier words) false {}
  let task : Task :=
    { verb, expr := r.operand, file := r.value? .file, strict := r.has .strict
      format := (r.value? .outputFormat).bind Format.ofText?
      noSnapshots := r.has .noSnapshots, noColor := r.has .noColor }
  return (task, r.extras)

-- ============================================================== program

/-- Read the words up to the command: what was given, and the command with all words after
it. A divider alone is no command. Again `taken` says that the first word is a value already. -/
def readProgram : List Arg → Bool → Reading →
    Except Stop (Reading × Option (String × List String))
  | [], _, r => .ok (r, none)
  | _ :: rest, true, r => readProgram rest false r
  | .given _ s name attached :: rest, false, r => do
    let (r, taken) ← r.takeWord .program s name attached rest.head?
    readProgram rest taken r
  | .unknown word :: rest, false, r =>
    readProgram rest false { r with extras := r.extras ++ [word] }
  | [.divider], false, r => .ok ({ r with extras := r.extras ++ ["--"] }, none)
  | arg :: rest, false, r => .ok (r, some (arg.word, rest.map Arg.word))

/-- Read a whole command line. -/
def Invocation.read (words : List String) : Except Stop Invocation := do
  let (r, command) ← readProgram (← classifyAll .program words) false {}
  let (task, more) ← match command with
    | none => .ok (none, [])
    | some (word, words) =>
      match Verb.ofText? word with
      | some verb => (readTask verb words).map fun (task, more) => (some task, more)
      | none =>
        .error (.refused .program
          ("argument command: " ++ invalidChoice word (Verb.all.map Verb.text)))
  match r.extras ++ more with
  | [] => return { config := r.configFile, verbose := r.has .verbose, task }
  | extras =>
    throw (.refused .program ("unrecognized arguments: " ++ " ".intercalate extras))

end InferTrace.Command
