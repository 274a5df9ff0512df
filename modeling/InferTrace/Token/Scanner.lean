/-
Scanning a source text into tokens.

A `Cursor` is a position and the text that is left. Each reader takes a lexeme from the front
of that text and moves the cursor past it; readers may be called anywhere, also where they do
not apply. `Cursor.scan` is the whole scanner: it skips blanks and takes the longest lexeme at
each place. A character that starts no lexeme is refused in strict mode and dropped otherwise.

The operators are tried longest first, and the arrow before them, so that `==` wins over `=`
and `->` over `-`.
-/
import InferTrace.Diagnostic
import InferTrace.Text.Blank
import InferTrace.Token.Basic

namespace InferTrace

-- ==================================================== lexeme classes

/-- The words that are not names. -/
def keywords : List String := ["let", "in", "if", "then", "else", "fun"]

/-- The operators, longest first. -/
def operators : List String :=
  ["==", "!=", "<=", ">=", "::", "+", "-", "*", "/", "<", ">", "="]

/-- The symbol between a parameter and its body. -/
def arrowSymbol : String := "->"

/-- The characters that are a lexeme each. -/
def punctuationMarks : List Char := ['(', ')', '[', ']', ',']

/-- A character that starts a word. -/
def isWordStart (c : Char) : Bool := c == '_' || c.isAlpha

/-- A character that continues a word. -/
def isWordChar (c : Char) : Bool := isWordStart c || c.isDigit

/-- A word is a keyword, a truth value, or else a name. -/
def wordLexeme (word : String) : Lexeme :=
  if word ∈ keywords then .keyword word
  else if word = "true" then .boolean true
  else if word = "false" then .boolean false
  else .identifier word

/-- The arrow or the first operator at the front of the text. -/
def symbolLexeme? (cs : List Char) : Option (Lexeme × Nat) :=
  if arrowSymbol.toList.isPrefixOf cs then some (.arrow arrowSymbol, 2)
  else (operators.find? fun op => op.toList.isPrefixOf cs).map fun op => (.operator op, op.length)

-- =========================================================== cursors

/-- How a source is scanned: the name under which places are reported, and whether a
character outside every lexeme is refused. -/
structure Mode where
  file : Text.Points := "<input>"
  strict : Bool := false
deriving DecidableEq, Repr, Inhabited

/-- A place in a source text: how far it has been read, and what is left. -/
structure Cursor where
  position : Position := {}
  rest : List Char
deriving DecidableEq, Repr, Inhabited

namespace Cursor

/-- At the start of a text. -/
def ofSource (source : String) : Cursor := { rest := source.toList }

/-- The place of the cursor. -/
def location (c : Cursor) (file : Text.Points) : Location := c.position.location file

/-- Past the next `n` characters. -/
def pass (c : Cursor) (n : Nat) : Cursor :=
  { position := c.position.after (c.rest.take n), rest := c.rest.drop n }

/-- Past the longest run of characters in `p`. -/
def passWhile (p : Char → Bool) (c : Cursor) : Cursor :=
  { position := c.position.after (c.rest.takeWhile p), rest := c.rest.dropWhile p }

/-- The next character. -/
def peek (c : Cursor) : Option Char := c.rest.head?

/-- Take the next character; `none` at the end of the text. -/
def advance? (c : Cursor) : Option (Char × Cursor) :=
  match c.rest with
  | [] => none
  | ch :: _ => some (ch, c.pass 1)

/-- Past the blanks. -/
def skipBlanks (c : Cursor) : Cursor := c.passWhile Text.isBlank

/-- Take a run of digits. It is a literal unless it is empty or too long; the cursor passes it
in any case. -/
def readNumber (c : Cursor) (file : Text.Points) : Except Fault Token × Cursor :=
  let digits := c.rest.takeWhile Char.isDigit
  let place := c.location file
  let result :=
    if digits.isEmpty || Number.maxDigits < digits.length then
      .error { cause := .literalTooLarge digits.length, location := some place }
    else .ok { lexeme := .number (Nat.ofDigitChars 10 digits 0), location := place }
  (result, c.passWhile Char.isDigit)

/-- Take a word, which may be empty. -/
def readWord (c : Cursor) (file : Text.Points) : Token × Cursor :=
  let word := String.ofList (c.rest.takeWhile isWordChar)
  ({ lexeme := wordLexeme word, location := c.location file }, c.passWhile isWordChar)

/-- Take the arrow or an operator, if one is next. -/
def readSymbol? (c : Cursor) (file : Text.Points) : Option (Token × Cursor) :=
  (symbolLexeme? c.rest).map fun (lexeme, length) =>
    ({ lexeme := lexeme, location := c.location file }, c.pass length)

-- ========================================================== scanning

/-- What stands at a place that is not blank. -/
inductive Item where
  | token (token : Token)
  | dropped (char : Char) (place : Location)
  | fault (fault : Fault)
deriving Repr

/-- The item at the cursor, whose next character is `ch`, and the cursor after it. A refused
character is not passed. -/
def item (c : Cursor) (mode : Mode) (ch : Char) : Item × Cursor :=
  if ch.isDigit then
    match c.readNumber mode.file with
    | (.ok token, c) => (.token token, c)
    | (.error fault, c) => (.fault fault, c)
  else if isWordStart ch then
    let (token, c) := c.readWord mode.file
    (.token token, c)
  else if ch ∈ punctuationMarks then
    (.token { lexeme := .punctuation (String.singleton ch), location := c.location mode.file },
      c.pass 1)
  else
    match c.readSymbol? mode.file with
    | some (token, c) => (.token token, c)
    | none =>
      let place := c.location mode.file
      if mode.strict then
        (.fault { cause := .strayCharacter (String.singleton ch), location := some place }, c)
      else (.dropped ch place, c.pass 1)

/-- A scan: the tokens with the end of input last, or the fault that ended it; the characters
dropped on the way; and where it stopped. -/
structure Scan where
  result : Except Fault (List Token)
  dropped : List (Char × Location) := []
  stop : Cursor

theorem length_passWhile_le (p : Char → Bool) (c : Cursor) :
    (c.passWhile p).rest.length ≤ c.rest.length :=
  (List.dropWhile_sublist p).length_le

theorem length_passWhile_lt {p : Char → Bool} {c : Cursor} {ch : Char} {cs : List Char}
    (h : c.rest = ch :: cs) (hp : p ch = true) :
    (c.passWhile p).rest.length < c.rest.length := by
  have hle := (List.dropWhile_sublist p (l := cs)).length_le
  simp only [passWhile, h, List.dropWhile_cons_of_pos hp, List.length_cons]
  omega

theorem length_pass_lt {c : Cursor} {n : Nat} (hn : 0 < n) (h : c.rest ≠ []) :
    (c.pass n).rest.length < c.rest.length := by
  have := List.length_pos_iff.2 h
  simp only [pass, List.length_drop]
  omega

/-- A symbol has at least one character. -/
theorem symbolLexeme?_length_pos {cs : List Char} {l : Lexeme} {n : Nat}
    (h : symbolLexeme? cs = some (l, n)) : 0 < n := by
  unfold symbolLexeme? at h
  split at h
  · cases h
    decide
  · obtain ⟨op, hop, heq⟩ := Option.map_eq_some_iff.1 h
    cases heq
    have hall : ∀ op ∈ operators, 0 < op.length := by decide
    exact hall op (List.mem_of_find?_eq_some hop)

/-- Unless the item is a refused character, the cursor moves on. -/
theorem item_shorter {c : Cursor} {mode : Mode} {ch : Char} {cs : List Char}
    (h : c.rest = ch :: cs) :
    (∃ fault, (c.item mode ch).1 = .fault fault)
      ∨ (c.item mode ch).2.rest.length < c.rest.length := by
  have hne : c.rest ≠ [] := by simp [h]
  unfold item
  split
  · next hd =>
    have hlt := length_passWhile_lt h hd
    split
    · next heq =>
      have hc : c.passWhile Char.isDigit = _ := congrArg Prod.snd heq
      exact Or.inr (hc ▸ hlt)
    · exact Or.inl ⟨_, rfl⟩
  · split
    · next hw => exact Or.inr (length_passWhile_lt h (by simp [isWordChar, hw]))
    · split
      · exact Or.inr (length_pass_lt Nat.one_pos hne)
      · split
        · next heq =>
          obtain ⟨⟨l, n⟩, hs, hc⟩ := Option.map_eq_some_iff.1 heq
          cases hc
          exact Or.inr (length_pass_lt (symbolLexeme?_length_pos hs) hne)
        · dsimp only
          split
          · exact Or.inl ⟨_, rfl⟩
          · exact Or.inr (length_pass_lt Nat.one_pos hne)

/-- Put a token in front of a scan. -/
def Scan.after (token : Token) (s : Scan) : Scan :=
  { s with result := s.result.map (token :: ·) }

/-- Put a dropped character in front of a scan. -/
def Scan.dropping (char : Char) (place : Location) (s : Scan) : Scan :=
  { s with dropped := (char, place) :: s.dropped }

/-- An item after the blanks, unless it is a fault, leaves less text than there was. -/
theorem next_shorter {c next : Cursor} {mode : Mode} {ch : Char} {cs : List Char} {i : Item}
    (h : c.skipBlanks.rest = ch :: cs) (hi : c.skipBlanks.item mode ch = (i, next))
    (hf : ∀ fault, i ≠ .fault fault) : next.rest.length < c.rest.length := by
  have hle : c.skipBlanks.rest.length ≤ c.rest.length := length_passWhile_le Text.isBlank c
  rcases @item_shorter _ mode _ _ h with ⟨fault, hfault⟩ | hlt
  · rw [hi] at hfault
    exact absurd hfault (hf fault)
  · rw [hi] at hlt
    exact Nat.lt_of_lt_of_le hlt hle

/-- Scan from the cursor to the end of the text or to the first fault. -/
def scan (c : Cursor) (mode : Mode) : Scan :=
  match h : c.skipBlanks.rest with
  | [] =>
    { result := .ok [{ lexeme := .endOfInput, location := c.skipBlanks.location mode.file }]
      stop := c.skipBlanks }
  | ch :: _ =>
    match hi : c.skipBlanks.item mode ch with
    | (.token token, next) =>
      have := next_shorter h hi nofun
      (next.scan mode).after token
    | (.dropped char place, next) =>
      have := next_shorter h hi nofun
      (next.scan mode).dropping char place
    | (.fault fault, next) => { result := .error fault, stop := next }
termination_by c.rest.length

end Cursor

/-- Scan a whole source text. -/
def scanSource (mode : Mode) (source : String) : Cursor.Scan :=
  (Cursor.ofSource source).scan mode

end InferTrace
