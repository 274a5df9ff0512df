/-
Quoted text: how a piece of text is shown inside a message.

The text stands between apostrophes, or between double quotes if it holds an apostrophe and
no double quote. The quote in use and the backslash are escaped by a backslash; newline,
carriage return and tab have short escapes; every other unprintable character is written by
its code in the shortest of the three forms `\xNN`, `\uNNNN`, `\UNNNNNNNN`.
-/
import InferTrace.Text.Printable

namespace InferTrace.Text

/-- The lower-case hexadecimal digits of `n`, padded with zeros to at least `width`. -/
def hexDigits (width n : Nat) : List Char :=
  let digits := Nat.toDigits 16 n
  List.replicate (width - digits.length) '0' ++ digits

/-- The quote that stands around `cs`. -/
def quoteFor (cs : List Char) : Char :=
  if cs.contains '\'' && !cs.contains '"' then '"' else '\''

/-- What cannot be printed, by its code. -/
def codeEscape (n : Nat) : List Char :=
  if n < 0x100 then '\\' :: 'x' :: hexDigits 2 n
  else if n < 0x10000 then '\\' :: 'u' :: hexDigits 4 n
  else '\\' :: 'U' :: hexDigits 8 n

/-- One character of the text, as it stands between quotes. -/
def quoteChar (quote c : Char) : List Char :=
  if c = quote ∨ c = '\\' then ['\\', c]
  else if c = '\n' then ['\\', 'n']
  else if c = '\r' then ['\\', 'r']
  else if c = '\t' then ['\\', 't']
  else if isPrintable c then [c]
  else codeEscape c.toNat

/-- The text between quotes. -/
def quoted (text : String) : String :=
  let cs := text.toList
  let quote := quoteFor cs
  String.ofList (quote :: cs.flatMap (quoteChar quote) ++ [quote])

end InferTrace.Text
