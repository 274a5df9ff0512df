/-
Tokens: a lexeme and where it starts.

The classes of lexemes are fixed; which words are keywords and which symbols are operators is
the scanner's business, so that a token stream from elsewhere may hold any.
-/
import InferTrace.Number.Digits
import InferTrace.Source.Location
import InferTrace.Text.Quoted

namespace InferTrace

/-- What a token says. -/
inductive Lexeme where
  | number (value : Int)
  | boolean (value : Bool)
  | keyword (word : String)
  | arrow (symbol : String)
  | operator (symbol : String)
  | identifier (name : String)
  | punctuation (symbol : String)
  | endOfInput
deriving DecidableEq, Repr, Inhabited

/-- The class of a lexeme. -/
inductive Lexeme.Class where
  | number
  | boolean
  | keyword
  | arrow
  | operator
  | identifier
  | punctuation
  | endOfInput
deriving DecidableEq, Repr, Inhabited

/-- What a lexeme may be asked to say, beside its class. -/
inductive Lexeme.Value where
  | word (word : String)
  | number (value : Int)
  | truth (value : Bool)
deriving DecidableEq, Repr, Inhabited

instance : Coe String Lexeme.Value := ⟨.word⟩

/-- The text of a value, if it can be written. -/
def Lexeme.Value.text? : Value → Option String
  | word s => some s
  | number n => Number.text? n
  | truth b => some (if b then "True" else "False")

namespace Lexeme

/-- The class of a lexeme. -/
def cls : Lexeme → Class
  | number _ => .number
  | boolean _ => .boolean
  | keyword _ => .keyword
  | arrow _ => .arrow
  | operator _ => .operator
  | identifier _ => .identifier
  | punctuation _ => .punctuation
  | endOfInput => .endOfInput

/-- The word or symbol of a lexeme that has one. -/
def word? : Lexeme → Option String
  | number _ | boolean _ | endOfInput => none
  | keyword s | arrow s | operator s | identifier s | punctuation s => some s

/-- The number of a lexeme that has one. A truth value counts as one or zero. -/
def amount? : Lexeme → Option Int
  | number n => some n
  | boolean b => some b.toInt
  | _ => none

/-- The lexeme has the value. -/
def hasValue (l : Lexeme) : Value → Bool
  | .word s => l.word? == some s
  | .number n => l.amount? == some n
  | .truth b => l.amount? == some b.toInt

/-- A lexeme as it stands in a source; the end of input is given words of its own. -/
def text : Lexeme → String
  | number n => toString n
  | boolean b => if b then "true" else "false"
  | keyword s | arrow s | operator s | identifier s | punctuation s => s
  | endOfInput => "end of input"

/-- A lexeme that can be written: any but a number with too many digits. -/
def isShort : Lexeme → Bool
  | number n => Number.isShort n
  | _ => true

/-- A lexeme as it is shown to the user, if it can be written. -/
def text? (l : Lexeme) : Option String := if l.isShort then some l.text else none

/-- The value of a lexeme, as it is shown in a token's summary, if it can be written. -/
def valueText? : Lexeme → Option String
  | number n => Number.text? n
  | boolean b => some (if b then "True" else "False")
  | keyword s | arrow s | operator s | identifier s | punctuation s => some (Text.quoted s)
  | endOfInput => some "None"

end Lexeme

namespace Lexeme.Class

/-- The name of a class. -/
def text : Class → String
  | number => "NUM"
  | boolean => "BOOL"
  | keyword => "KEYWORD"
  | arrow => "ARROW"
  | operator => "OP"
  | identifier => "IDENT"
  | punctuation => "PUNCT"
  | endOfInput => "EOF"

/-- Every class. -/
def all : List Class :=
  [number, boolean, keyword, arrow, operator, identifier, punctuation, endOfInput]

/-- The class of a name. -/
def ofText? (name : String) : Option Class := all.find? fun c => c.text == name

end Lexeme.Class

/-- A lexeme and where it starts. -/
structure Token where
  lexeme : Lexeme
  location : Location
deriving DecidableEq, Repr, Inhabited

namespace Token

/-- The token as it stands in a source. -/
def text (t : Token) : String := t.lexeme.text

/-- The token as it is shown to the user, if it can be written. -/
def text? (t : Token) : Option String := t.lexeme.text?

/-- Class, value and place in one line, if the value can be written. -/
def summary? (t : Token) : Option Text.Points :=
  t.lexeme.valueText?.map fun value =>
    "Token(" ++ t.lexeme.cls.text ++ ", " ++ value ++ ", " ++ t.location.text ++ ")"

end Token

end InferTrace
