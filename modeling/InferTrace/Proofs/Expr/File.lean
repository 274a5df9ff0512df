/-
The name of the file goes into places, and nowhere else.

What is scanned under another name for the file is the same but for the
places, which say the other name (`scanSource_inFile`). The parser is fed
with other tokens then, but with the same lexemes. So it does the same,
and where it halts it has the same lexemes left. The token that it
reports is thus the same one in both feeds, and its place has the other
name as well (`parseSource_inFile`).
-/
import InferTrace.Proofs.Expr.FirstFault
import InferTrace.Proofs.Expr.Rejoined
import InferTrace.Proofs.Token.Calls

namespace InferTrace

variable {file : Text.Points} {mode : Mode}

-- ============================================================= places

/-- The same place in another file. -/
def Location.inFile (file : Text.Points) (l : Location) : Location :=
  { l with file }

def Token.inFile (file : Text.Points) (t : Token) : Token :=
  { t with location := t.location.inFile file }

def Fault.inFile (file : Text.Points) (f : Fault) : Fault :=
  { f with location := f.location.map (·.inFile file) }

def Diagnostic.inFile (file : Text.Points) (d : Diagnostic) : Diagnostic :=
  { d with location := d.location.map (·.inFile file) }

def Halt.inFile (file : Text.Points) : Halt → Halt
  | .fault f => .fault (f.inFile file)
  | halt => halt

def Mode.inFile (file : Text.Points) (mode : Mode) : Mode := { mode with file }

theorem Fault.diagnostic_inFile (f : Fault) :
    (f.inFile file).diagnostic = f.diagnostic.inFile file := rfl

-- ============================================================ scanning

/-- What a scan gives, in another file. -/
def resultInFile (file : Text.Points) :
    Except Fault (List Token) → Except Fault (List Token)
  | .ok tokens => .ok (tokens.map (Token.inFile file))
  | .error f => .error (f.inFile file)

/-- A token in front is renamed with the others. -/
theorem resultInFile_map (t : Token) (result : Except Fault (List Token)) :
    resultInFile file (result.map (t :: ·))
      = (resultInFile file result).map (t.inFile file :: ·) := by
  cases result <;> rfl

namespace Cursor

variable {cur next : Cursor} {ch : Char} {r : List Char} {n : Nat} {s : Sight}

def Item.inFile (file : Text.Points) : Item → Item
  | token t => token (t.inFile file)
  | dropped c place => dropped c (place.inFile file)
  | fault f => fault (f.inFile file)

/-- What is seen is the same in every file, but for its place. -/
theorem Sight.item_inFile (s : Sight) (place : Location) :
    s.item (place.inFile file) = (s.item place).inFile file := by
  cases s with
  | lexeme l => rfl
  | stray c => rfl
  | bad cause => rfl

/-- The file is not seen. -/
theorem Sees.inFile (h : Sees mode ch r s n) (file : Text.Points) :
    Sees (mode.inFile file) ch r s n := by
  cases h with
  | number hdigit hne hshort => exact .number hdigit hne hshort
  | long hdigit hlong => exact .long hdigit hlong
  | word hstart => exact .word hstart
  | mark hmark => exact .mark hmark
  | symbol hword hmark hl => exact .symbol hword hmark hl
  | refused hword hmark hl hstrict => exact .refused hword hmark hl hstrict
  | dropped hword hmark hl hstrict => exact .dropped hword hmark hl hstrict

/-- So is the item there. -/
theorem item_inFile {i : Item} (hr : cur.rest = ch :: r)
    (hitem : cur.item mode ch = (i, next)) (file : Text.Points) :
    cur.item (mode.inFile file) ch = (i.inFile file, next) := by
  obtain ⟨s, n, hsees, rfl, rfl⟩ := sees_of_item hr hitem
  rw [← hr] at hsees
  rw [item_of_sees (hsees.inFile file), ← Sight.item_inFile]
  rfl

/-- A scan is the same in every file, but for its places; by the
recursion of the scan. -/
theorem scan_inFile (cur : Cursor) (mode : Mode) (file : Text.Points) :
    (cur.scan (mode.inFile file)).result
      = resultInFile file (cur.scan mode).result := by
  fun_induction Cursor.scan cur mode with
  | case1 cur hrest =>
      rw [scan_nil hrest]
      rfl
  | case2 cur ch r hrest token next hitem hlt ih =>
      rw [scan_cons hrest, item_inFile hrest hitem file]
      show Except.map _ (next.scan (mode.inFile file)).result = _
      rw [ih]
      exact (resultInFile_map token _).symm
  | case3 cur ch r hrest char place next hitem hlt ih =>
      rw [scan_cons hrest, item_inFile hrest hitem file]
      exact ih
  | case4 cur ch r hrest fault next hitem =>
      rw [scan_cons hrest, item_inFile hrest hitem file]
      rfl

end Cursor

theorem scanSource_inFile (mode : Mode) (source : String) (file : Text.Points) :
    (scanSource (mode.inFile file) source).result
      = resultInFile file (scanSource mode source).result :=
  Cursor.scan_inFile _ mode file

-- ============================================================= parsing

namespace Feed

variable {f f' g' : Feed} {w : List Lexeme}

def inFile (file : Text.Points) (f : Feed) : Feed :=
  { f with rest := f.rest.map (Token.inFile file)
           stop := f.stop.inFile file }

/-- The lexemes do not depend on the file. -/
theorem lexemes_inFile (f : Feed) : (f.inFile file).lexemes = f.lexemes := by
  simp [lexemes, inFile, Token.inFile]

/-- The next token is the same, but for its place. -/
theorem current_inFile (f : Feed) :
    (f.inFile file).current = f.current.inFile file := by
  unfold current inFile
  cases f.rest <;> rfl

theorem ofTokens_inFile (body : List Token) (place : Location) :
    ofTokens ((body ++ [Token.mk .endOfInput place]).map (Token.inFile file))
      = (ofTokens (body ++ [Token.mk .endOfInput place])).inFile file := by
  simp [ofTokens, inFile, Token.inFile]

/-- With as many tokens left, the next one is the same in both feeds. -/
theorem current_inFile_of_takes {w' : List Lexeme} (h : f.Takes w f')
    (h' : (f.inFile file).Takes w' g') (hleft : f'.lexemes = g'.lexemes) :
    g'.current = f'.current.inFile file := by
  obtain ⟨taken, -, hrest⟩ := h.rest
  obtain ⟨taken', -, hrest'⟩ := h'.rest
  have hsplit : taken.map (Token.inFile file) ++ f'.rest.map (Token.inFile file)
      = taken' ++ g'.rest := by
    rw [← hrest', ← List.map_append, ← hrest]
    rfl
  have hlength : (f'.rest.map (Token.inFile file)).length = g'.rest.length := by
    rw [List.length_map, ← length_lexemes, hleft, length_lexemes]
  have hsame : g'.rest = (f'.inFile file).rest :=
    (List.append_inj_right' hsplit hlength).symm
  have hstop : g'.stop = (f'.inFile file).stop := by
    rw [h'.stop, inFile, inFile, h.stop]
  rw [← current_inFile]
  unfold current
  rw [hsame, hstop]

end Feed

/-- A token that is out of place ends no levels, wherever it is. -/
theorem anywhere_unexpected_ne_tooDeep (expected : String) (t : Token) :
    (unexpected expected t).anywhere ≠ .tooDeep := by
  unfold unexpected
  cases t.text? with
  | none | some => simp [Halt.anywhere]

/-- Two reports of a token that say the same, but for the place, say the
same of it in the other file. -/
theorem unexpected_inFile_of_anywhere {expected expected' : String}
    {t : Token}
    (h : (unexpected expected t).anywhere
      = (unexpected expected' (t.inFile file)).anywhere) :
    unexpected expected' (t.inFile file)
      = (unexpected expected t).inFile file := by
  have htext : (t.inFile file).text? = t.text? := rfl
  unfold unexpected at h ⊢
  rw [htext] at h ⊢
  generalize t.text? = text at h ⊢
  cases text with
  | none => rfl
  | some text =>
      simp only [Halt.anywhere, Halt.fault.injEq, Fault.mk.injEq,
        Cause.unexpectedToken.injEq] at h
      rw [h.1.1]
      rfl

/-- Where the parser halts on one feed, it halts at the same token on the
other. -/
theorem Parse.halt_inFile {limit : Nat} {f f' g' : Feed} {halt halt' : Halt}
    (hrun : program limit f = .error halt f')
    (hrun' : program limit (f.inFile file) = .error halt' g') :
    halt' = halt.inFile file := by
  have hsame := agree_program limit f (f.inFile file) f.lexemes_inFile.symm
  rw [hrun, hrun'] at hsame
  cases hsame with
  | error hhalt hleft =>
      obtain ⟨w, -, -, hw, -⟩ := (stops_program limit f).of_error hrun
      obtain ⟨w', -, -, hw', -⟩ := (stops_program limit _).of_error hrun'
      have hcurrent := Feed.current_inFile_of_takes hw hw' hleft
      rcases (sound_program limit f).of_error hrun with
        ⟨expected, rfl⟩ | ⟨rfl, -⟩
      · rcases (sound_program limit _).of_error hrun' with
          ⟨expected', rfl⟩ | ⟨rfl, -⟩
        · rw [hcurrent] at hhalt ⊢
          exact unexpected_inFile_of_anywhere hhalt
        · exact absurd hhalt (anywhere_unexpected_ne_tooDeep _ _)
      · rcases (sound_program limit _).of_error hrun' with
          ⟨expected', rfl⟩ | ⟨rfl, -⟩
        · exact absurd hhalt.symm (anywhere_unexpected_ne_tooDeep _ _)
        · rfl

/-- The parser reports the same token in both files. -/
theorem parseTokens_inFile (limit : Nat) (body : List Token)
    (place : Location) (file : Text.Points) :
    parseTokens limit
        ((body ++ [Token.mk .endOfInput place]).map (Token.inFile file))
      = (parseTokens limit (body ++ [Token.mk .endOfInput place])).mapError
          (Halt.inFile file) := by
  unfold parseTokens
  rw [Feed.ofTokens_inFile]
  generalize Feed.ofTokens (body ++ [Token.mk .endOfInput place]) = f
  have hsame := Parse.agree_program limit f (f.inFile file)
    f.lexemes_inFile.symm
  cases hrun : Parse.program limit f with
  | ok e f' =>
      rw [hrun] at hsame
      generalize Parse.program limit (f.inFile file) = q at hsame
      cases hsame with
      | ok he _ =>
          rw [he]
          rfl
  | error halt f' =>
      cases hrun' : Parse.program limit (f.inFile file) with
      | ok e g' =>
          rw [hrun, hrun'] at hsame
          cases hsame
      | error halt' g' =>
          exact congrArg Except.error (Parse.halt_inFile hrun hrun')

theorem parseSource_inFile (limit : Nat) (mode : Mode) (source : String) (file : Text.Points) :
    parseSource limit (mode.inFile file) source
      = (parseSource limit mode source).mapError (Halt.inFile file) := by
  have hfair := Cursor.fair_scan (.ofSource source) mode
  unfold parseSource
  rw [scanSource_inFile]
  unfold scanSource
  cases hscan : ((Cursor.ofSource source).scan mode).result with
  | error fault => rfl
  | ok tokens =>
      rw [hscan] at hfair
      obtain ⟨body, place, rfl, -⟩ := hfair
      exact parseTokens_inFile limit body place file

-- ============================================================== faults

variable {limit : Nat} {source : String} {fault : Fault}

/-- A fault of the tokens is a token that does not fit. -/
theorem unexpected_of_parseTokens {tokens : List Token}
    (h : parseTokens limit tokens = .error (.fault fault)) :
    ∃ expected t, .fault fault = unexpected expected t := by
  rcases halt_of_parseTokens h with ⟨expected, t, hfault, -⟩ | ⟨hdeep, -⟩
  · exact ⟨expected, t, hfault⟩
  · cases hdeep

/-- A fault of the source is one of the scan or one of the tokens. -/
theorem scan_or_tokens_of_parseSource
    (h : parseSource limit mode source = .error (.fault fault)) :
    (scanSource mode source).result = .error fault ∨
      ∃ expected t, .fault fault = unexpected expected t := by
  unfold parseSource at h
  cases hscan : (scanSource mode source).result with
  | error f =>
      rw [hscan] at h
      cases h
      exact Or.inl rfl
  | ok tokens =>
      rw [hscan] at h
      exact Or.inr (unexpected_of_parseTokens h)

/-- A lexical fault of the source is one of the scan. -/
theorem scanSource_of_lexical
    (h : parseSource limit mode source = .error (.fault fault))
    (hkind : fault.cause.kind = .lexical) :
    (scanSource mode source).result = .error fault := by
  rcases scan_or_tokens_of_parseSource h with hscan | ⟨expected, t, hfault⟩
  · exact hscan
  · obtain ⟨found, rfl⟩ := eq_of_unexpected hfault.symm
    cases hkind

/-- A fault of a scan has a place and no node, and a character that it
complains of is one of the text. -/
theorem place_of_scanSource
    (h : (scanSource mode source).result = .error fault) :
    fault.location.isSome ∧ fault.node = none ∧
      ∀ p, fault.cause = .strayCharacter p →
        ∃ c, p = .ofString (String.singleton c) := by
  obtain ⟨k, hreports, -⟩ := (Cursor.Marks.start source).scan mode
  rw [show ((Cursor.ofSource source).scan mode).result = .error fault from h]
    at hreports
  cases hreports with
  | error _ hfault =>
      cases hfault with
      | stray =>
          refine ⟨rfl, rfl, fun p hp => ?_⟩
          cases hp
          exact ⟨_, rfl⟩
      | literal => exact ⟨rfl, rfl, nofun⟩

/-- A fault of the source has a place in its file, and no node. -/
theorem place_of_parseSource
    (h : parseSource limit mode source = .error (.fault fault)) :
    (∃ l, fault.location = some l ∧ l.file = mode.file) ∧
      fault.node = none := by
  have hplace : fault.location.isSome ∧ fault.node = none := by
    rcases scan_or_tokens_of_parseSource h with hscan | ⟨expected, t, hfault⟩
    · exact (place_of_scanSource hscan).imp_right And.left
    · obtain ⟨found, rfl⟩ := eq_of_unexpected hfault.symm
      exact ⟨rfl, rfl⟩
  obtain ⟨l, hl⟩ := Option.isSome_iff_exists.1 hplace.1
  refine ⟨⟨l, hl, ?_⟩, hplace.2⟩
  -- to call the file what it is called changes nothing
  have hsame := parseSource_inFile limit mode source mode.file
  rw [show mode.inFile mode.file = mode from rfl, h] at hsame
  have hfault : fault = fault.inFile mode.file := by
    simpa [Except.mapError, Halt.inFile] using hsame
  have hlocation := congrArg Fault.location hfault
  rw [Fault.inFile, hl] at hlocation
  exact congrArg Location.file (Option.some.inj hlocation)

end InferTrace
