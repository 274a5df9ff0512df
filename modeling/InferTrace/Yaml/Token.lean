/-
Tokens of a YAML text.

Blocks are told by indentation, so the scanner keeps the indentation of each open block and
closes a block where a line starts further left. A key is known to be one only at the colon
after it: what could be a key is remembered as a candidate, one for each open flow, and when
its colon comes the tokens that open a mapping and a key are put in front of it. A candidate
ends with its line. Where a text cannot be read on, its last token says so. A fault of a scalar
comes to light as early as the first candidate, for nothing from there on is handed over until
it is known whether it is a key.
-/
import InferTrace.Yaml.Scalar

namespace InferTrace.Yaml

/-- A token. A tag has the mark that it starts with, unless it is written out in full. -/
inductive Token where
  | version (major : Nat)
  | handle (mark target : String)
  | directive
  | documentStart
  | documentEnd
  | blockSequence
  | blockMapping
  | blockEnd
  | openList
  | closeList
  | openMapping
  | closeMapping
  | item
  | comma
  | key
  | value
  | reference (name : String)
  | anchor (name : String)
  | tag (mark : Option String) (name : String)
  | scalar (text : Text.Points) (plain : Bool)
  | broken
  | faulty (fault : Config.ScalarFault)
deriving DecidableEq, Repr

/-- What could turn out to be a key: the flow it stands in, the number of tokens before it, its
place, and whether its block needs a key here. -/
structure Candidate where
  flow : Nat
  tokens : Nat
  line : Nat
  column : Nat
  index : Nat
  required : Bool

/-- A scanner: where it is, the tokens so far, how many flows are open, the indentation of the
innermost block and of those around it, whether a key may start here, and the candidates. -/
structure Scanner where
  place : Place
  tokens : Array Token := #[]
  flow : Nat := 0
  indent : Int := -1
  outer : List Int := []
  keyAllowed : Bool := true
  candidates : List Candidate := []

namespace Scanner

/-- Add a token. -/
def push (token : Token) (s : Scanner) : Scanner := { s with tokens := s.tokens.push token }

/-- Go `n` characters on. -/
def skip (n : Nat) (s : Scanner) : Scanner := { s with place := s.place.advance n }

/-- Say whether a key may start here. -/
def allowKey (allowed : Bool) (s : Scanner) : Scanner := { s with keyAllowed := allowed }

-- ========================================================== candidates

/-- The longest key, in characters. -/
def maxKeyLength : Nat := 1024

/-- Drop candidates that a line end or their length rules out; a required one may not go. -/
def dropStale (s : Scanner) : Option Scanner :=
  let stale (c : Candidate) : Bool :=
    c.line != s.place.line || maxKeyLength < s.place.index - c.index
  if s.candidates.any fun c => stale c && c.required then none
  else some { s with candidates := s.candidates.filter fun c => !stale c }

/-- Drop the candidate of the flow at hand; a required one may not go. -/
def dropCandidate (s : Scanner) : Option Scanner :=
  if s.candidates.any fun c => c.flow == s.flow && c.required then none
  else some { s with candidates := s.candidates.filter fun c => c.flow != s.flow }

/-- Remember what starts here as a candidate, where a key is allowed. -/
def addCandidate (s : Scanner) : Option Scanner :=
  if s.keyAllowed then do
    let s ← s.dropCandidate
    let c : Candidate :=
      { flow := s.flow, tokens := s.tokens.size, line := s.place.line, column := s.place.column
        index := s.place.index, required := s.flow == 0 && s.indent == (s.place.column : Int) }
    return { s with candidates := c :: s.candidates }
  else some s

-- ============================================================== blocks

/-- Close the blocks that are indented further than `column`. -/
def closeFrom (column : Int) : Int → List Int → Array Token → Int × List Int × Array Token
  | indent, [], tokens => (indent, [], tokens)
  | indent, next :: outer, tokens =>
    if column < indent then closeFrom column next outer (tokens.push .blockEnd)
    else (indent, next :: outer, tokens)

/-- Close the blocks that are indented further than `column`; inside a flow there are none. -/
def closeBlocks (column : Int) (s : Scanner) : Scanner :=
  if s.flow == 0 then
    let (indent, outer, tokens) := closeFrom column s.indent s.outer s.tokens
    { s with indent, outer, tokens }
  else s

/-- Open a block at `column` by putting `token` after the first `position` tokens, unless a block is
already that far in. -/
def openBlock (column position : Nat) (token : Token) (s : Scanner) : Scanner :=
  if s.flow == 0 && s.indent < (column : Int) then
    { s with
      indent := column
      outer := s.indent :: s.outer
      tokens := s.tokens.insertIdxIfInBounds position token }
  else s

-- ============================================================== tokens

/-- Go over spaces, comments and line ends. After a line end a key may start, except in a
flow. -/
def skipBlanks : Nat → Scanner → Scanner
  | 0, s => s
  | fuel + 1, s =>
    let p := s.place.skipWhile (· == ' ')
    let p := match p.rest with
      | '#' :: _ => p.skipWhile fun c => !isBreak c
      | _ => p
    match p.rest with
    | c :: _ =>
      if isBreak c then
        skipBlanks fuel { s with place := p.step, keyAllowed := s.keyAllowed || s.flow == 0 }
      else { s with place := p }
    | [] => { s with place := p }

/-- A line between documents, which ends every open block. -/
def betweenDocuments (token : Token) (length : Nat) (s : Scanner) : Option Scanner := do
  let s ← (s.closeBlocks (-1)).dropCandidate
  return ((s.allowKey false).skip length).push token

/-- The opening bracket of a flow. -/
def openFlow (token : Token) (s : Scanner) : Option Scanner := do
  let s ← s.addCandidate
  return (({ s with flow := s.flow + 1, keyAllowed := true } : Scanner).skip 1).push token

/-- The closing bracket of a flow. -/
def closeFlow (token : Token) (s : Scanner) : Option Scanner := do
  let s ← s.dropCandidate
  if s.flow == 0 then none
  else return (({ s with flow := s.flow - 1, keyAllowed := false } : Scanner).skip 1).push token

/-- The comma between items of a flow. -/
def readComma (s : Scanner) : Option Scanner := do
  let s ← (s.allowKey true).dropCandidate
  return (s.skip 1).push .comma

/-- The hyphen before an item of a block. -/
def readItem (s : Scanner) : Option Scanner := do
  if s.flow == 0 && !s.keyAllowed then none
  else
    let s := s.openBlock s.place.column s.tokens.size .blockSequence
    let s ← (s.allowKey true).dropCandidate
    return (s.skip 1).push .item

/-- The question mark before a key. -/
def readKey (s : Scanner) : Option Scanner := do
  if s.flow == 0 && !s.keyAllowed then none
  else
    let s := s.openBlock s.place.column s.tokens.size .blockMapping
    let s ← (s.allowKey (s.flow == 0)).dropCandidate
    return (s.skip 1).push .key

/-- The colon before a value. If there is a candidate, it is the key. -/
def readValue (s : Scanner) : Option Scanner := do
  match s.candidates.find? fun c => c.flow == s.flow with
  | some c =>
    let s : Scanner :=
      { s with
        candidates := s.candidates.filter fun c => c.flow != s.flow
        tokens := s.tokens.insertIdxIfInBounds c.tokens .key }
    return (((s.openBlock c.column c.tokens .blockMapping).allowKey false).skip 1).push .value
  | none =>
    if s.flow == 0 && !s.keyAllowed then none
    else
      let s := s.openBlock s.place.column s.tokens.size .blockMapping
      let s ← (s.allowKey (s.flow == 0)).dropCandidate
      return (s.skip 1).push .value

/-- The characters of a name. -/
def isNameChar (c : Char) : Bool := c.isAlphanum || c == '-' || c == '_'

/-- A name after its mark, by which a node is remembered or recalled. -/
def readName (token : String → Token) (s : Scanner) : Option Scanner := do
  let s ← s.addCandidate
  let rest := s.place.rest.drop 1
  let name := rest.takeWhile isNameChar
  let ended := match rest.drop name.length with
    | [] => true
    | c :: _ => isBlank c || "?:,]\x7d%@`".toList.contains c
  if name.isEmpty || !ended then none
  else return ((s.allowKey false).skip (name.length + 1)).push (token (String.ofList name))

/-- The text or the line ends here, or a space follows. -/
def atWordEnd : List Char → Bool
  | [] => true
  | c :: _ => c == ' ' || isBreak c

/-- The mark that a tag starts with: an exclamation mark, or a name between two of them. -/
def tagMark : List Char → Option String
  | '!' :: rest =>
    if rest.head? == some ' ' then some "!"
    else
      let name := rest.takeWhile isNameChar
      match rest.drop name.length with
      | '!' :: _ => some (String.ofList ('!' :: name ++ ['!']))
      | _ => none
  | _ => none

/-- The characters of a tag's name. -/
def isTagChar (c : Char) : Bool :=
  c.isAlphanum || "-;/?:@&=+$,_.!~*'()[]%".toList.contains c

/-- The bytes of a tag's name, where a percent sign and two digits stand for a byte. -/
def tagBytes : List Char → Option (List UInt8)
  | [] => some []
  | '%' :: a :: b :: rest => do
    let high ← Json.hexValue a
    let low ← Json.hexValue b
    return (high * 16 + low).toUInt8 :: (← tagBytes rest)
  | c :: rest => do
    if c = '%' then none
    else return c.toNat.toUInt8 :: (← tagBytes rest)

/-- The name of a tag at a place, and the place after it. -/
def tagNameAt (p : Place) : Option (String × Place) := do
  let name := p.rest.takeWhile isTagChar
  if name.isEmpty then none
  else return (← String.fromUTF8? ⟨(← tagBytes name).toArray⟩, p.advance name.length)

/-- The tag at a place: its mark, its name, and the place after it. -/
def tagAt (p : Place) : Option (Option String × String × Place) :=
  match p.rest.drop 1 with
  | '<' :: _ => do
    let (name, p) ← tagNameAt (p.advance 2)
    if p.rest.head? == some '>' then return (none, name, p.step) else none
  | rest =>
    if atBlank rest then some (none, "!", p.step)
    else do
      let word := rest.takeWhile fun c => !(c == ' ' || isBreak c)
      let mark ← if word.contains '!' then tagMark p.rest else some "!"
      let (name, p) ← tagNameAt (p.advance mark.length)
      return (some mark, name, p)

/-- A tag, which says what kind of value a node is. -/
def readTag (s : Scanner) : Option Scanner := do
  let s ← s.addCandidate
  let (mark, name, place) ← tagAt s.place
  if atWordEnd place.rest then
    return ({ s with place, keyAllowed := false } : Scanner).push (.tag mark name)
  else none

/-- The version of the format that a directive asks for. The digits of its numbers are
limited. -/
def versionAt (p : Place) : Option (Token × Place) :=
  let p := p.skipWhile (· == ' ')
  let major := p.rest.takeWhile Char.isDigit
  let p := p.advance major.length
  let minor := (p.rest.drop 1).takeWhile Char.isDigit
  if Number.maxDigits < major.length then some (.faulty (.numberTooLong major.length), p)
  else if major.isEmpty || p.rest.head? != some '.' || minor.isEmpty then none
  else if Number.maxDigits < minor.length then some (.faulty (.numberTooLong minor.length), p)
  else some (.version (Nat.ofDigitChars 10 major 0), p.advance (minor.length + 1))

/-- What a directive lets the mark of a tag stand for. -/
def handleAt (p : Place) : Option (Token × Place) := do
  let p := p.skipWhile (· == ' ')
  let mark ← tagMark p.rest
  let p := p.advance mark.length
  if p.rest.head? != some ' ' then none
  else
    let (target, p) ← tagNameAt (p.skipWhile (· == ' '))
    return (.handle mark target, p)

/-- End the text with a fault, after the tokens that are settled. -/
def endWith (settled : Nat) (fault : Config.ScalarFault) (s : Scanner) : Scanner :=
  { s with
    place := { s.place with rest := [] }
    tokens := (s.tokens.take settled).push (.faulty fault) }

/-- A directive, which ends every open block. -/
def readDirective (settled : Nat) (s : Scanner) : Option Scanner := do
  let s ← (s.closeBlocks (-1)).dropCandidate
  let p := s.place.step
  let name := p.rest.takeWhile isNameChar
  let p := p.advance name.length
  if name.isEmpty || !atWordEnd p.rest then none
  else
    let (token, p) ←
      if name == "YAML".toList then versionAt p
      else if name == "TAG".toList then handleAt p
      else some (.directive, p.skipWhile fun c => !isBreak c)
    match token with
    | .faulty fault => return s.endWith settled fault
    | token =>
      let place ← headerEnd p
      return ({ s with place, keyAllowed := false } : Scanner).push token

/-- A plain scalar. -/
def readPlain (s : Scanner) : Option Scanner := do
  let s ← s.addCandidate
  let found := plainAt (s.flow != 0) (s.indent + 1) s.place
  return ({ s with place := found.place, keyAllowed := found.crossed } : Scanner).push
    (.scalar (.ofChars found.text) true)

/-- The number of tokens that can be handed over as they are: those before any candidate. -/
def settled (s : Scanner) : Nat :=
  s.candidates.foldl (fun n c => min n c.tokens) s.tokens.size

/-- A quoted scalar. With a code beyond the last code point the text ends. -/
def readQuoted (settled : Nat) (quote : Char) (s : Scanner) : Option Scanner := do
  let s ← s.addCandidate
  let (text, place) ← quotedAt quote s.place
  match text.beyondLast? with
  | some code => return s.endWith settled (.noSuchCode code)
  | none => return ({ s with place, keyAllowed := false } : Scanner).push (.scalar text false)

/-- A block scalar. -/
def readBlock (fold : Bool) (s : Scanner) : Option Scanner := do
  let s ← (s.allowKey true).dropCandidate
  let (text, place) ← blockAt fold s.indent s.place.step
  return ({ s with place } : Scanner).push (.scalar (.ofChars text) false)

/-- The characters that have a meaning of their own at the start of a token. -/
def isIndicator (c : Char) : Bool :=
  isBlank c || "-?:,[]\x7b\x7d#&*!|>'\"%@`".toList.contains c

/-- A plain scalar may start here. -/
def startsPlain (flow : Bool) (c : Char) (rest : List Char) : Bool :=
  !isIndicator c || (!atBlank rest && (c == '-' || (!flow && (c == '?' || c == ':'))))

/-- Read one token at a character that is no blank, where so many tokens are settled. -/
def readToken (settled : Nat) (c : Char) (rest : List Char) (s : Scanner) : Option Scanner :=
  let flow := s.flow != 0
  if c == '%' && s.place.column == 0 then s.readDirective settled
  else if s.place.column == 0 && atMarker (c :: rest) then
    s.betweenDocuments (if c == '-' then .documentStart else .documentEnd) 3
  else if c == '[' then s.openFlow .openList
  else if c == '\x7b' then s.openFlow .openMapping
  else if c == ']' then s.closeFlow .closeList
  else if c == '\x7d' then s.closeFlow .closeMapping
  else if c == ',' then s.readComma
  else if c == '-' && atBlank rest then s.readItem
  else if c == '?' && (flow || atBlank rest) then s.readKey
  else if c == ':' && (flow || atBlank rest) then s.readValue
  else if c == '*' then s.readName .reference
  else if c == '&' then s.readName .anchor
  else if c == '!' then s.readTag
  else if c == '|' && !flow then s.readBlock false
  else if c == '>' && !flow then s.readBlock true
  else if c == '\'' || c == '"' then s.readQuoted settled c
  else if startsPlain flow c rest then s.readPlain
  else none

/-- Read on by one token; says whether the text has ended. Fewer than `fuel` characters are
left. -/
def next (fuel : Nat) (s : Scanner) : Option (Bool × Scanner) := do
  let s ← s.dropStale
  let settled := s.settled
  let s ← (skipBlanks fuel s).dropStale
  match s.place.rest with
  | [] => return (true, ← (s.closeBlocks (-1)).dropCandidate)
  | c :: rest => return (false, ← (s.closeBlocks s.place.column).readToken settled c rest)

/-- Read all tokens. Every token has a character, and fewer than `fuel` characters are left. -/
def readTokens : Nat → Scanner → Array Token
  | 0, s => s.tokens.push .broken
  | fuel + 1, s =>
    match s.next (fuel + 1) with
    | none => s.tokens.push .broken
    | some (true, s) => s.tokens
    | some (false, s) => readTokens fuel s

end Scanner

/-- The characters that a text may hold. -/
def isAllowed (c : Char) : Bool :=
  let n := c.toNat
  c == '\t' || c == '\n' || c == '\r' || (0x20 ≤ n && n ≤ 0x7E) || n == 0x85
    || (0xA0 ≤ n && n ≤ 0xFFFD) || 0x10000 ≤ n

/-- The tokens of a text. A byte order mark at its start is skipped. -/
def Token.scan (text : String) : List Token :=
  let cs := text.toList
  if cs.all isAllowed then
    let place : Place := { rest := cs }
    let place := if cs.head? == some '\ufeff' then place.step else place
    (Scanner.readTokens (cs.length + 1) { place }).toList
  else [.broken]

end InferTrace.Yaml
