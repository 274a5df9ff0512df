/-
The written forms of a YAML scalar: plain, quoted and block.

A scanner hands over the place at which a scalar starts; a reader of this module gives its
text and the place after it. Inside a scalar a single line end counts as one space, and each
empty line after it as a newline; block scalars keep or fold their lines as their mark says.
-/
import InferTrace.Json.Reader

namespace InferTrace.Yaml

open Text (Point Points)

-- ============================================================== places

/-- A place in the text: what follows it, and where it is. -/
structure Place where
  rest : List Char
  line : Nat := 0
  column : Nat := 0
  index : Nat := 0

/-- The characters that end a line. -/
def isBreak (c : Char) : Bool :=
  c == '\n' || c == '\r' || c == '\u0085' || c == '\u2028' || c == '\u2029'

/-- A blank: a space, a tab or a line end. -/
def isBlank (c : Char) : Bool := c == ' ' || c == '\t' || isBreak c

/-- The text ends here, or a blank follows. -/
def atBlank : List Char → Bool
  | [] => true
  | c :: _ => isBlank c

/-- The text ends here, or the line does. -/
def atBreak : List Char → Bool
  | [] => true
  | c :: _ => isBreak c

/-- A line end as it counts inside a scalar. -/
def breakText (c : Char) : Char := if c == '\u2028' || c == '\u2029' then c else '\n'

/-- A line of three hyphens or three points stands between documents. -/
def atMarker : List Char → Bool
  | '-' :: '-' :: '-' :: rest => atBlank rest
  | '.' :: '.' :: '.' :: rest => atBlank rest
  | _ => false

namespace Place

/-- The place after one character. A byte order mark has no width. -/
def step (p : Place) : Place :=
  match p.rest with
  | [] => p
  | c :: rest =>
    if isBreak c then { rest, line := p.line + 1, column := 0, index := p.index + 1 }
    else
      { rest, line := p.line, column := if c == '\ufeff' then p.column else p.column + 1
        index := p.index + 1 }

/-- The place after `n` characters. -/
def advance : Nat → Place → Place
  | 0, p => p
  | n + 1, p => advance n p.step

/-- The place after all leading characters of a class. -/
def skipWhile (f : Char → Bool) (p : Place) : Place := p.advance (p.rest.takeWhile f).length

end Place

/-- The text that a line end stands for, before the empty lines `more` that follow it. -/
def folded (first : Char) (more : List Char) : List Char :=
  if first != '\n' then first :: more else if more.isEmpty then [' '] else more

-- =============================================================== plain

/-- Brackets, braces and commas, which divide the items of a flow. -/
def isFlowMark (c : Char) : Bool :=
  c == ',' || c == '[' || c == ']' || c == '\x7b' || c == '\x7d'

/-- A word of a plain scalar. It ends at a blank, at a colon that ends a key, and in a flow at
the marks that divide items. -/
def plainWord (flow : Bool) : List Char → List Char
  | [] => []
  | c :: rest =>
    let colon := c == ':' && (atBlank rest || (flow && (rest.head?.map isFlowMark).getD false))
    if isBlank c || colon || (flow && (isFlowMark c || c == '?')) then []
    else c :: plainWord flow rest

/-- A stretch of a plain scalar: the text it stands for, whether it ends by crossing a line end,
and the place after it. -/
structure Stretch where
  text : List Char
  crossed : Bool
  place : Place

/-- The empty lines after a line end, up to a line that holds something or a marker. -/
def emptyLines : Nat → Place → List Char → Option (List Char) × Place
  | 0, p, taken => (some taken.reverse, p)
  | fuel + 1, p, taken =>
    match p.rest with
    | ' ' :: _ => emptyLines fuel p.step taken
    | c :: rest =>
      if isBreak c then
        if atMarker rest then (none, p.step) else emptyLines fuel p.step (breakText c :: taken)
      else (some taken.reverse, p)
    | [] => (some taken.reverse, p)

/-- The gap between two words. A marker between documents ends the scalar, so that gap is
empty. -/
def gapAt (p : Place) : Stretch :=
  let spaces := p.rest.takeWhile (· == ' ')
  let p := p.advance spaces.length
  match p.rest with
  | c :: rest =>
    if isBreak c then
      let p := p.step
      if atMarker rest then { text := [], crossed := true, place := p }
      else
        let (more, p) := emptyLines p.rest.length p []
        match more with
        | none => { text := [], crossed := true, place := p }
        | some more => { text := folded (breakText c) more, crossed := true, place := p }
    else { text := spaces, crossed := false, place := p }
  | [] => { text := spaces, crossed := false, place := p }

/-- The words of a plain scalar from a place on. Its lines are indented by at least `indent`
columns, except in a flow. -/
def plainFrom (flow : Bool) (indent : Int) : Nat → Stretch → List Char → Stretch
  | 0, read, _ => read
  | fuel + 1, read, gap =>
    match read.place.rest with
    | '#' :: _ => read
    | cs =>
      match plainWord flow cs with
      | [] => read
      | word =>
        let after := gapAt (read.place.advance word.length)
        let read :=
          { text := read.text ++ gap ++ word, crossed := after.crossed, place := after.place }
        if after.text.isEmpty || (!flow && (read.place.column : Int) < indent) then read
        else plainFrom flow indent fuel read after.text

/-- The plain scalar at a place. -/
def plainAt (flow : Bool) (indent : Int) (p : Place) : Stretch :=
  plainFrom flow indent p.rest.length { text := [], crossed := false, place := p } []

-- ============================================================== quoted

/-- The characters that a backslash and a letter stand for. -/
def shortEscapes : List (Char × Char) :=
  [('0', '\x00'), ('a', '\x07'), ('b', '\x08'), ('t', '\t'), ('\t', '\t'), ('n', '\n'),
   ('v', '\x0b'), ('f', '\x0c'), ('r', '\r'), ('e', '\x1b'), (' ', ' '), ('"', '"'),
   ('\\', '\\'), ('/', '/'), ('N', '\u0085'), ('_', '\u00a0'), ('L', '\u2028'), ('P', '\u2029')]

/-- How many hexadecimal digits follow a backslash and a letter. -/
def codeLength (c : Char) : Option Nat :=
  if c == 'x' then some 2 else if c == 'u' then some 4 else if c == 'U' then some 8 else none

/-- The point of a code in hexadecimal digits. -/
def codePoint (digits : List Char) : Option Point := do
  let values ← digits.mapM Json.hexValue
  return .ofCode (values.foldl (fun n d => n * 16 + d) 0)

/-- The empty lines inside a quoted scalar; blanks around them are dropped. No marker may
stand there. -/
def quotedLines : Nat → Place → List Char → Option (List Char × Place)
  | 0, p, taken => some (taken.reverse, p)
  | fuel + 1, p, taken =>
    if atMarker p.rest then none
    else
      let p := p.skipWhile fun c => c == ' ' || c == '\t'
      match p.rest with
      | c :: _ =>
        if isBreak c then quotedLines fuel p.step (breakText c :: taken)
        else some (taken.reverse, p)
      | [] => some (taken.reverse, p)

/-- One piece of a quoted scalar: its text and the place after it. -/
def quotedPiece (quote : Char) (p : Place) : Option (Points × Place) :=
  let double := quote == '"'
  let written (cs : List Char) (after : Place) : Points × Place := (.ofChars cs, after)
  match p.rest with
  | [] => none
  | c :: rest =>
    if c == '\\' && double then
      match rest with
      | [] => none
      | e :: rest =>
        match codeLength e with
        | some n =>
          let digits := rest.take n
          if digits.length < n then none
          else (codePoint digits).map fun d => (⟨[d]⟩, p.advance (n + 2))
        | none =>
          if isBreak e then
            (quotedLines (rest.length + 1) (p.advance 2) []).map fun (more, after) =>
              written more after
          else (shortEscapes.lookup e).map fun d => written [d] (p.advance 2)
    else if c == '\'' && !double then
      match rest with
      | '\'' :: _ => some (written ['\''] (p.advance 2))
      | _ => none
    else if isBreak c then
      (quotedLines (rest.length + 1) p.step []).map fun (more, after) =>
        written (folded (breakText c) more) after
    else if c == ' ' || c == '\t' then
      let after := p.skipWhile fun c => c == ' ' || c == '\t'
      if after.rest.isEmpty then none
      else if atBreak after.rest then some (written [] after)
      else some (written (p.rest.takeWhile fun c => c == ' ' || c == '\t') after)
    else some (written [c] p.step)

/-- A quoted scalar after its opening quote: its text and the place after the closing one. It
ends early with a code that is beyond the last code point. -/
def quotedFrom (quote : Char) : Nat → Place → List Point → Option (Points × Place)
  | 0, _, _ => none
  | fuel + 1, p, taken =>
    match p.rest with
    | [] => none
    | c :: rest =>
      if c == quote && (quote == '"' || rest.head? != some '\'') then some (⟨taken⟩, p.step)
      else
        match quotedPiece quote p with
        | none => none
        | some (text, p) =>
          let taken := taken ++ text.toList
          if (text.beyondLast?).isSome then some (⟨taken⟩, p) else quotedFrom quote fuel p taken

/-- The quoted scalar at a place. -/
def quotedAt (quote : Char) (p : Place) : Option (Points × Place) :=
  quotedFrom quote (p.rest.length + 1) p.step []

-- =============================================================== block

/-- What happens to the line ends at the end of a block scalar. -/
inductive Chomp where
  | strip
  | clip
  | keep
deriving DecidableEq

/-- The header of a block scalar. -/
structure Header where
  chomp : Chomp := .clip
  indent : Option Nat := none

/-- The chomping that a mark stands for. -/
def chompOf (c : Char) : Option Chomp :=
  if c == '+' then some .keep else if c == '-' then some .strip else none

/-- The indentation that a digit stands for. -/
def indentOf (c : Char) : Option Nat :=
  if c.isDigit && c != '0' then some (c.toNat - 48) else none

/-- The header after the mark of a block scalar: chomping and indentation in either order. -/
def headerAt (p : Place) : Header × Place :=
  match p.rest with
  | c :: rest =>
    match chompOf c, indentOf c with
    | some chomp, _ =>
      match rest.head?.bind indentOf with
      | some n => ({ chomp, indent := some n }, p.advance 2)
      | none => ({ chomp }, p.step)
    | none, some n =>
      match rest.head?.bind chompOf with
      | some chomp => ({ chomp, indent := some n }, p.advance 2)
      | none => ({ indent := some n }, p.step)
    | none, none => ({}, p)
  | [] => ({}, p)

/-- The rest of a header's line: blanks and a comment. -/
def headerEnd (p : Place) : Option Place :=
  if !(atBreak p.rest || p.rest.head? == some ' ') then none
  else
    let p := p.skipWhile (· == ' ')
    let p := match p.rest with
      | '#' :: _ => p.skipWhile fun c => !isBreak c
      | _ => p
    if atBreak p.rest then some p.step else none

/-- The empty lines at the start of a block scalar, and the widest indentation seen there. -/
def leadingLines : Nat → Place → List Char → Nat → List Char × Nat × Place
  | 0, p, taken, widest => (taken.reverse, widest, p)
  | fuel + 1, p, taken, widest =>
    match p.rest with
    | ' ' :: _ => leadingLines fuel p.step taken (max widest p.step.column)
    | c :: _ =>
      if isBreak c then leadingLines fuel p.step (breakText c :: taken) widest
      else (taken.reverse, widest, p)
    | [] => (taken.reverse, widest, p)

/-- The place after up to `indent` columns of spaces. -/
def indentTo (indent : Nat) (p : Place) : Place :=
  p.advance (min (p.rest.takeWhile (· == ' ')).length (indent - p.column))

/-- The empty lines between two lines of a block scalar. -/
def blockLines (indent : Nat) : Nat → Place → List Char → List Char × Place
  | 0, p, taken => (taken.reverse, p)
  | fuel + 1, p, taken =>
    let p := indentTo indent p
    match p.rest with
    | c :: _ =>
      if isBreak c then blockLines indent fuel p.step (breakText c :: taken)
      else (taken.reverse, p)
    | [] => (taken.reverse, p)

/-- The lines of a block scalar, from a place at its indentation; `breaks` are the empty lines
before it. -/
def blockFrom (fold : Bool) (header : Header) (indent : Nat) :
    Nat → Place → List Char → List Char → List Char × Place
  | 0, p, taken, _ => (taken, p)
  | fuel + 1, p, taken, breaks =>
    let line := p.rest.takeWhile fun c => !isBreak c
    let inset (cs : List Char) : Bool := cs.head? == some ' ' || cs.head? == some '\t'
    let p := p.advance line.length
    let lineEnd := match p.rest with
      | c :: _ => [breakText c]
      | [] => []
    let (more, next) := blockLines indent p.rest.length p.step []
    let taken := taken ++ breaks ++ line
    if next.column = indent ∧ !next.rest.isEmpty then
      let between :=
        if fold && lineEnd == ['\n'] && !inset line && !inset next.rest then
          (if more.isEmpty then [' '] else [])
        else lineEnd
      blockFrom fold header indent fuel next (taken ++ between) more
    else
      let tail := match header.chomp with
        | .strip => []
        | .clip => lineEnd
        | .keep => lineEnd ++ more
      (taken ++ tail, next)

/-- The block scalar after its mark, inside a block indented by `outer` columns. -/
def blockAt (fold : Bool) (outer : Int) (p : Place) : Option (List Char × Place) := do
  let (header, p) := headerAt p
  let p ← headerEnd p
  let least := (max (outer + 1) 1).toNat
  let (breaks, indent, p) := match header.indent with
    | some n =>
      let indent := least + n - 1
      let (breaks, p) := blockLines indent (p.rest.length + 1) p []
      (breaks, indent, p)
    | none =>
      let (breaks, widest, p) := leadingLines p.rest.length p [] 0
      (breaks, max least widest, p)
  if p.column = indent ∧ !p.rest.isEmpty then
    return blockFrom fold header indent (p.rest.length + 1) p [] breaks
  else return (if header.chomp = .keep then breaks else [], p)

end InferTrace.Yaml
