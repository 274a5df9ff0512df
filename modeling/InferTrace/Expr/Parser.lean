/-
Parsing: from tokens to an expression by recursive descent.

    expr    := let IDENT = expr in expr | fun IDENT -> expr | if expr then expr else expr
             | binary
    binary  := app | app OP binary                        (any operator but "=")
    app     := atom atom ... atom                         (one or more, nested to the left)
    atom    := NUM | BOOL | IDENT | ( expr ) | [ ] | [ expr ] | [ expr , expr ]

All operators share one level and nest to the right. The parser reads a `Feed`: the tokens
that are left before the end of input, which is never passed. A parser that fails leaves the
feed where it stopped, and says which token it found there. A number with too many digits
cannot be said; then the parser stops without a report.

Nesting is limited: `expression limit` gives up when expressions stand inside one another
more than `limit` deep. The parts of an expression are parsed by the parser they are given
for nested expressions, so that `expression` alone counts.
-/
import InferTrace.Diagnostic
import InferTrace.Expr.Basic
import InferTrace.Token.Basic

namespace InferTrace

-- ============================================================== feeds

/-- The tokens that are left, how many have been passed, and where the input ends. -/
structure Feed where
  pos : Nat := 0
  rest : List Token
  stop : Location
deriving DecidableEq, Repr, Inhabited

namespace Feed

/-- A feed of all tokens. If the last is no end of input, the input ends where it starts; no
tokens at all end at the first line and column. -/
def ofTokens (tokens : List Token) : Feed :=
  match tokens.getLast? with
  | none => { rest := [], stop := { line := 1, column := 1 } }
  | some last =>
    if last.lexeme = .endOfInput then { rest := tokens.dropLast, stop := last.location }
    else { rest := tokens, stop := last.location }

/-- The next token; after all others, the end of input. -/
def current (f : Feed) : Token :=
  match f.rest with
  | [] => { lexeme := .endOfInput, location := f.stop }
  | t :: _ => t

/-- Past the next token, but never past the end of input. -/
def advance (f : Feed) : Feed :=
  match f.rest with
  | [] => f
  | _ :: rest => { f with pos := f.pos + 1, rest := rest }

/-- The next token is of the class and, if one is given, has the value. -/
def check (f : Feed) (cls : Lexeme.Class) (value : Option Lexeme.Value := none) : Bool :=
  f.current.lexeme.cls == cls && value.all f.current.lexeme.hasValue

/-- An atom can start here. -/
def startsAtom (f : Feed) : Bool :=
  match f.current.lexeme with
  | .number _ | .boolean _ | .identifier _ => true
  | _ => f.check .punctuation (some "(") || f.check .punctuation (some "[")

end Feed

-- ============================================================ parsers

/-- The halt at a token, which stands in the place of what is expected. -/
def unexpected (expected : String) (token : Token) : Halt :=
  match token.text? with
  | none => .tooLong
  | some text =>
    let found := if token.lexeme = .endOfInput then text else "'" ++ text ++ "'"
    .fault { cause := .unexpectedToken expected found, location := some token.location }

/-- A parser of one thing from the front of a feed. -/
abbrev Parse := EStateM Halt Feed

namespace Parse

/-- The next token, which is not passed. -/
def current : Parse Token := return (← get).current

/-- Take the next token. -/
def advance : Parse Token := modifyGet fun f => (f.current, f.advance)

/-- Fail at the next token. -/
def fail {α : Type} (expected : String) : Parse α := do
  throw (unexpected expected (← current))

/-- Take the next token if it is the one asked for. -/
def accept (cls : Lexeme.Class) (value : Option Lexeme.Value := none) : Parse (Option Token) := do
  if (← get).check cls value then return some (← advance) else return none

/-- Take the next token, which has to be the one asked for. -/
def expect (cls : Lexeme.Class) (value : Option Lexeme.Value := none) : Parse Token := do
  if (← get).check cls value then advance
  else
    match value with
    | none => fail cls.text
    | some v =>
      match v.text? with
      | none => throw .tooLong
      | some text => fail ("'" ++ text ++ "'")

/-- Take an identifier. -/
def name : Parse String := return (← expect .identifier).lexeme.word?.getD ""

/-- The rest of a list literal, after its opening bracket. -/
def listTail (inner : Parse Expr) : Parse Expr := do
  if (← accept .punctuation (some "]")).isSome then return .nil
  let head ← inner
  if (← accept .punctuation (some ",")).isSome then
    let second ← inner
    let _ ← expect .punctuation (some "]")
    return .cons head (.cons second .nil)
  else
    let _ ← expect .punctuation (some "]")
    return .cons head .nil

/-- An atom. -/
def atom (inner : Parse Expr) : Parse Expr := do
  match (← current).lexeme with
  | .number n =>
    let _ ← advance
    return .int n
  | .boolean b =>
    let _ ← advance
    return .bool b
  | .identifier x =>
    let _ ← advance
    return .var x
  | _ =>
    if (← accept .punctuation (some "(")).isSome then
      let e ← inner
      let _ ← expect .punctuation (some ")")
      return e
    else if (← accept .punctuation (some "[")).isSome then listTail inner
    else fail "an expression"

/-- Apply `func` to the atoms that follow. `fuel` bounds their number. -/
def arguments (inner : Parse Expr) : Nat → Expr → Parse Expr
  | 0, func => return func
  | fuel + 1, func => do
    if (← get).startsAtom then
      let arg ← atom inner
      arguments inner fuel (.app func arg)
    else return func

/-- An atom applied to the atoms after it. -/
def application (inner : Parse Expr) : Parse Expr := do
  let func ← atom inner
  arguments inner (← get).rest.length func

/-- Applications joined by operators. `fuel` bounds the number of operators. -/
def binaryChain (inner : Parse Expr) : Nat → Parse Expr
  | 0 => application inner
  | fuel + 1 => do
    let left ← application inner
    match (← current).lexeme with
    | .operator op =>
      if op = "=" then return left
      else
        let _ ← advance
        let right ← binaryChain inner fuel
        return .binary op left right
    | _ => return left

/-- Applications joined by operators. -/
def binary (inner : Parse Expr) : Parse Expr := do
  binaryChain inner (← get).rest.length

/-- The rest of a `let`, after its keyword. -/
def letTail (inner : Parse Expr) : Parse Expr := do
  let x ← name
  let _ ← expect .operator (some "=")
  let value ← inner
  let _ ← expect .keyword (some "in")
  let body ← inner
  return .letIn x value body

/-- The rest of a function, after its keyword. -/
def funTail (inner : Parse Expr) : Parse Expr := do
  let x ← name
  let _ ← expect .arrow
  let body ← inner
  return .lambda x body

/-- The rest of a conditional, after its keyword. -/
def ifTail (inner : Parse Expr) : Parse Expr := do
  let cond ← inner
  let _ ← expect .keyword (some "then")
  let yes ← inner
  let _ ← expect .keyword (some "else")
  let no ← inner
  return .ite cond yes no

/-- An expression whose nested expressions `inner` parses. -/
def expressionWith (inner : Parse Expr) : Parse Expr := do
  if (← accept .keyword (some "let")).isSome then letTail inner
  else if (← accept .keyword (some "fun")).isSome then funTail inner
  else if (← accept .keyword (some "if")).isSome then ifTail inner
  else binary inner

/-- An expression with at most `limit` levels of nesting. -/
def expression : Nat → Parse Expr
  | 0 => throw .tooDeep
  | limit + 1 => expressionWith (expression limit)

/-- An expression that takes all tokens. -/
def program (limit : Nat) : Parse Expr := do
  let e ← expression limit
  if (← current).lexeme = .endOfInput then return e else fail "end of input"

end Parse

/-- Parse a token list. -/
def parseTokens (limit : Nat) (tokens : List Token) : Except Halt Expr :=
  match Parse.program limit (Feed.ofTokens tokens) with
  | .ok e _ => .ok e
  | .error halt _ => .error halt

end InferTrace
