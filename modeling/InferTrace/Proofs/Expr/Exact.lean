/-
The parser accepts exactly the grammar.

A token list counts up to its first end of input. With what is parsed
(soundness), what is read and where the parser gives up (completeness)
each outcome has one reason: the lexemes derive the expression that is
given; they derive none, and some token does not fit; or they nest
beyond the limit, whatever else is wrong with them
(`parseTokens_exact`). That no list derives two expressions needs no
argument of its own: a parser with a limit to spare would give both.

A token that does not fit is reported with its text. A number with too
many digits has none, so a list may be no program and still be given no
report (`parseTokens_unsaid`).
-/
import InferTrace.Proofs.Expr.Completeness
import InferTrace.Proofs.Expr.Lookahead

namespace InferTrace

variable {f : Feed} {w rest : List Lexeme} {e e' : Expr} {limit : Nat}
  {tokens : List Token}

-- ================================================= the end of input

/-- The lexemes before the first end of input. -/
def beforeEnd (w : List Lexeme) : List Lexeme :=
  w.takeWhile fun l => decide (l ≠ .endOfInput)

theorem beforeEnd_append (hw : Lexeme.endOfInput ∉ w)
    (hrest : rest.head?.getD .endOfInput = .endOfInput) :
    beforeEnd (w ++ rest) = w := by
  have hpos : ∀ l ∈ w, decide (l ≠ Lexeme.endOfInput) = true := by
    intro l hl
    exact decide_eq_true fun h => hw (h ▸ hl)
  rw [beforeEnd, List.takeWhile_append_of_pos hpos]
  cases rest with
  | nil => exact List.append_nil w
  | cons l rest =>
      cases hrest
      exact List.append_nil w

theorem beforeEnd_concat (w : List Lexeme) :
    beforeEnd (w ++ [.endOfInput]) = beforeEnd w := by
  unfold beforeEnd
  induction w with
  | nil => rfl
  | cons l w ih =>
      rw [List.cons_append, List.takeWhile_cons, List.takeWhile_cons, ih]

/-- What is left out begins with an end of input, if there is any. -/
theorem exists_beforeEnd_append (w : List Lexeme) :
    ∃ rest, w = beforeEnd w ++ rest ∧
      rest.head?.getD .endOfInput = .endOfInput := by
  refine ⟨w.dropWhile fun l => decide (l ≠ .endOfInput),
    List.takeWhile_append_dropWhile.symm, ?_⟩
  have hhead := List.head?_dropWhile_not (fun l => decide (l ≠ .endOfInput)) w
  cases hw : w.dropWhile fun l => decide (l ≠ .endOfInput) with
  | nil => rfl
  | cons l rest =>
      rw [hw] at hhead
      exact Decidable.not_not.1 (of_decide_eq_false hhead)

/-- A prefix without the end of input is a prefix of what counts. -/
theorem exists_of_append_eq {pre tail : List Lexeme}
    (h : w ++ tail = pre ++ rest) (hpre : Lexeme.endOfInput ∉ pre)
    (htail : tail.head?.getD .endOfInput = .endOfInput) :
    ∃ mid, w = pre ++ mid ∧ rest = mid ++ tail := by
  rcases List.append_eq_append_iff.1 h with ⟨mid, rfl, rfl⟩ | hmid
  · cases mid with
    | nil => exact ⟨[], by simp, rfl⟩
    | cons l mid =>
        cases htail
        simp at hpre
  · exact hmid

/-- Only the part before the end of input counts as what is nested. -/
theorem nestedWithin_beforeEnd (h : NestedWithin limit (beforeEnd w))
    {n : Nat} {pre : List Lexeme} (hw : w = pre ++ rest)
    (hopens : Opens rest n pre) : n ≤ limit := by
  obtain ⟨tail, htail, hhead⟩ := exists_beforeEnd_append w
  obtain ⟨mid, hmid, rfl⟩ := exists_of_append_eq (htail.symm.trans hw)
    hopens.endOfInput_notMem hhead
  exact h n pre mid hmid ((opens_append_iff hhead).1 hopens)

/-- A token list is fed without the end of input that it may end
with. -/
theorem beforeEnd_ofTokens (tokens : List Token) :
    beforeEnd (Feed.ofTokens tokens).lexemes
      = beforeEnd (tokens.map Token.lexeme) := by
  rcases List.eq_nil_or_concat tokens with rfl | ⟨init, last, rfl⟩
  · rfl
  · rw [List.concat_eq_append, Feed.ofTokens, List.getLast?_concat]
    by_cases hlast : last.lexeme = .endOfInput
    · simp only [if_pos hlast, List.dropLast_concat, Feed.lexemes,
        List.map_append, List.map_cons, List.map_nil]
      rw [hlast, beforeEnd_concat]
    · simp only [if_neg hlast]
      rfl

-- ========================================================= programs

namespace Parse

/-- Where the lexemes that are parsed end at the end of input, they are
all that count. -/
theorem sound_program (limit : Nat) (f : Feed) :
    Ends (program limit) f (fun e _ => Derives .expr (beforeEnd f.lexemes) e)
      (Fails (¬ NestedWithin limit (beforeEnd f.lexemes))) := by
  rw [program, ends_bind]
  refine (sound_expression limit f).mono ?_ fun _ _ hf => hf.mono ?_
  · rintro e f' ⟨w, hw, he⟩
    rw [ends_bind, ends_current]
    by_cases hend : f'.current.lexeme = .endOfInput
    · rw [Feed.current_lexeme] at hend
      rw [if_pos (Feed.current_lexeme.trans hend), ends_pure, hw.lexemes,
        beforeEnd_append he.endOfInput_notMem hend]
      exact he
    · rw [if_neg hend]
      exact fails_unexpected
  · rintro ⟨pre, rest, hrest, hopens⟩ hnested
    have := nestedWithin_beforeEnd hnested hrest hopens
    omega

/-- An expression that is all that counts is given, unless the parser
gives up. -/
theorem complete_program (h : Derives .expr (beforeEnd f.lexemes) e)
    (limit : Nat) :
    Ends (program limit) f (fun e' _ => e' = e)
      fun halt _ => halt = .tooDeep := by
  obtain ⟨rest, hrest, hhead⟩ := exists_beforeEnd_append f.lexemes
  rw [program]
  refine (reads_of_derives h limit).bind hrest ?_ fun f' hf' => ?_
  · intro l hl
    rw [hl] at hhead
    cases hhead
    simp [Phrase.GoesOn, Lexeme.StartsAtom]
  · have hend : f'.current.lexeme = .endOfInput := by
      rw [Feed.current_lexeme, hf']
      exact hhead
    rw [ends_bind, ends_current, if_pos hend]
    exact rfl

theorem givesUp_program (h : ¬ NestedWithin limit (beforeEnd f.lexemes)) :
    GivesUp (program limit) f := by
  obtain ⟨tail, htail, hhead⟩ := exists_beforeEnd_append f.lexemes
  simp only [NestedWithin, Classical.not_forall, Nat.not_le] at h
  obtain ⟨n, pre, rest, hpre, hopens, hn⟩ := h
  refine (givesUp_of_opens ((opens_append_iff hhead).2 hopens) limit hn f ?_).bind
  rw [← List.append_assoc, ← hpre]
  exact htail

/-- Within the limit the expression that the lexemes derive is
given. -/
theorem program_of_derives (h : Derives .expr (beforeEnd f.lexemes) e)
    (hnested : NestedWithin limit (beforeEnd f.lexemes)) :
    Ends (program limit) f (fun e' _ => e' = e) fun _ _ => False := by
  cases hrun : program limit f with
  | ok e' f' =>
      rw [Ends, hrun]
      exact (complete_program h limit).of_ok hrun
  | error halt f' =>
      obtain rfl := (complete_program h limit).of_error hrun
      rcases (sound_program limit f).of_error hrun with ⟨_, hc⟩ | ⟨-, hdeep⟩
      · exact absurd hc.symm (unexpected_ne_tooDeep _ _)
      · exact absurd hnested hdeep

end Parse

-- ====================================================== token lists

/-- A feed of lexemes alone. -/
def Feed.ofLexemes (w : List Lexeme) : Feed :=
  { rest := w.map (Token.mk · default), stop := default }

theorem Feed.lexemes_ofLexemes (w : List Lexeme) :
    (Feed.ofLexemes w).lexemes = w := by
  simp [Feed.ofLexemes, Feed.lexemes, Function.comp_def]

theorem Derives.beforeEnd_ofLexemes (h : Derives .expr w e) :
    beforeEnd (Feed.ofLexemes w).lexemes = w := by
  have hend : beforeEnd (w ++ []) = w :=
    beforeEnd_append h.endOfInput_notMem rfl
  rw [Feed.lexemes_ofLexemes]
  rw [List.append_nil] at hend
  exact hend

/-- No list of lexemes derives two expressions: the parser, with more
levels than the list has lexemes, gives each of them. -/
theorem Derives.unique (h : Derives .expr w e) (h' : Derives .expr w e') :
    e = e' := by
  have hf := h.beforeEnd_ofLexemes
  have hnested : NestedWithin (w.length + 1)
      (beforeEnd (Feed.ofLexemes w).lexemes) := by
    rw [hf]
    exact nestedWithin_of_length_lt (Nat.lt_succ_self _)
  rw [← hf] at h h'
  cases hrun : Parse.program (w.length + 1) (Feed.ofLexemes w) with
  | ok e₁ f₁ =>
      have he := (Parse.program_of_derives h hnested).of_ok hrun
      have he' := (Parse.program_of_derives h' hnested).of_ok hrun
      exact he.symm.trans he'
  | error halt f₁ =>
      exact ((Parse.program_of_derives h hnested).of_error hrun).elim

/-- The expression that a token list is parsed to derives from it. -/
theorem derives_of_parseTokens (h : parseTokens limit tokens = .ok e) :
    Derives .expr (beforeEnd (tokens.map Token.lexeme)) e := by
  rw [← beforeEnd_ofTokens]
  unfold parseTokens at h
  cases hrun : Parse.program limit (Feed.ofTokens tokens) with
  | ok e₁ f₁ =>
      rw [hrun] at h
      cases h
      exact (Parse.sound_program limit _).of_ok hrun
  | error halt f₁ =>
      rw [hrun] at h
      cases h

/-- A token list that derives an expression is parsed to it, within the
limit. -/
theorem parseTokens_of_derives
    (h : Derives .expr (beforeEnd (tokens.map Token.lexeme)) e)
    (hnested : NestedWithin limit (beforeEnd (tokens.map Token.lexeme))) :
    parseTokens limit tokens = .ok e := by
  rw [← beforeEnd_ofTokens] at h hnested
  unfold parseTokens
  cases hrun : Parse.program limit (Feed.ofTokens tokens) with
  | ok e₁ f₁ => rw [(Parse.program_of_derives h hnested).of_ok hrun]
  | error halt f₁ =>
      exact ((Parse.program_of_derives h hnested).of_error hrun).elim

/-- The only token that has no text is a number with too many digits. -/
theorem Token.exists_number_of_text? {t : Token} (h : t.text? = none) :
    ∃ n, t.lexeme = .number n ∧ Number.isShort n = false := by
  unfold Token.text? Lexeme.text? at h
  cases hl : t.lexeme with
  | number n =>
      refine ⟨n, rfl, ?_⟩
      simpa [hl, Lexeme.isShort] using h
  | _ => simp [hl, Lexeme.isShort] at h

/-- Where a feed has come to, its next token is one of the list it was
made from, or the end of input. -/
theorem Feed.Takes.current_mem {f' : Feed}
    (h : (Feed.ofTokens tokens).Takes w f')
    (hne : f'.current.lexeme ≠ .endOfInput) : f'.current ∈ tokens := by
  obtain ⟨taken, -, hrest⟩ := h.rest
  have hsub : ∀ t ∈ (Feed.ofTokens tokens).rest, t ∈ tokens := by
    intro t ht
    unfold Feed.ofTokens at ht
    split at ht
    · cases ht
    · split at ht
      · exact List.dropLast_subset _ ht
      · exact ht
  apply hsub
  rw [hrest]
  unfold Feed.current at hne ⊢
  cases hf' : f'.rest with
  | nil => simp [hf'] at hne
  | cons t rest => simp

/-- Tokens that are not parsed nest beyond the limit, or one of them does
not fit. It is reported, unless it is one of the list and a number with
too many digits to be written. -/
theorem halt_of_parseTokens {halt : Halt}
    (h : parseTokens limit tokens = .error halt) :
    (∃ expected token, halt = unexpected expected token ∧
      (token.text? = none → token ∈ tokens ∧
        ∃ n, token.lexeme = .number n ∧ Number.isShort n = false)) ∨
    (halt = .tooDeep ∧
      ¬ NestedWithin limit (beforeEnd (tokens.map Token.lexeme))) := by
  rw [← beforeEnd_ofTokens]
  unfold parseTokens at h
  cases hrun : Parse.program limit (Feed.ofTokens tokens) with
  | ok e f =>
      rw [hrun] at h
      cases h
  | error halt' f =>
      rw [hrun] at h
      cases h
      refine ((Parse.sound_program limit _).of_error hrun).imp_left ?_
      rintro ⟨expected, rfl⟩
      refine ⟨expected, f.current, rfl, fun htext => ?_⟩
      obtain ⟨n, hn, hlong⟩ := Token.exists_number_of_text? htext
      obtain ⟨w, hw, -⟩ := (Parse.localAt_program limit _).of_error hrun
      exact ⟨hw.current_mem (by simp [hn]), n, hn, hlong⟩

/-- The outcomes of parsing a token list. If the lexemes before the end
of input nest within the limit, an expression is given exactly if they
derive it, and if they derive none, the parser fails at a token that does
not fit. It reports that token, unless it is one of the list and a number
with too many digits to be written. If the lexemes nest beyond the limit,
the parser gives up. No list derives more than one expression. -/
theorem parseTokens_exact (limit : Nat) (tokens : List Token) :
    let w := beforeEnd (tokens.map Token.lexeme)
    (NestedWithin limit w →
      (∀ e, parseTokens limit tokens = .ok e ↔ Derives .expr w e) ∧
      ((¬ ∃ e, Derives .expr w e) →
        ∃ expected token,
          parseTokens limit tokens = .error (unexpected expected token) ∧
          (token.text? = none → token ∈ tokens ∧
            ∃ n, token.lexeme = .number n ∧ Number.isShort n = false))) ∧
    (¬ NestedWithin limit w → parseTokens limit tokens = .error .tooDeep) ∧
    ∀ w e e', Derives .expr w e → Derives .expr w e' → e = e' := by
  intro w
  refine ⟨fun hnested => ⟨fun e => ⟨derives_of_parseTokens, fun he => ?_⟩,
    fun hnone => ?_⟩, fun hdeep => ?_, fun _ _ _ => Derives.unique⟩
  · exact parseTokens_of_derives he hnested
  · cases hrun : parseTokens limit tokens with
    | ok e => exact absurd ⟨e, derives_of_parseTokens hrun⟩ hnone
    | error halt =>
        rcases halt_of_parseTokens hrun with
          ⟨expected, token, rfl, hlong⟩ | ⟨-, hdeep⟩
        · exact ⟨expected, token, rfl, hlong⟩
        · exact absurd hnested hdeep
  · have hgivesUp : Parse.GivesUp (Parse.program limit) (.ofTokens tokens) :=
      Parse.givesUp_program (by rwa [beforeEnd_ofTokens])
    unfold parseTokens
    cases hrun : Parse.program limit (Feed.ofTokens tokens) with
    | ok e f => exact (hgivesUp.of_ok hrun).elim
    | error halt f =>
        obtain rfl := hgivesUp.of_error hrun
        rfl

/-- `[1, f 2 - 3]`: the derivation is had from the parser. -/
theorem parseTokens_exact_pair :
    let w : List Lexeme := [.punctuation "[", .number 1, .punctuation ",",
      .identifier "f", .number 2, .operator "-", .number 3, .punctuation "]"]
    NestedWithin 9 w ∧ Derives .expr w
      (.cons (.int 1)
        (.cons (.binary "-" (.app (.var "f") (.int 2)) (.int 3)) .nil)) := by
  intro w
  have hnested : NestedWithin 9 w := nestedWithin_of_length_lt (by decide)
  have hexact := parseTokens_exact 9 <|
    (w ++ [Lexeme.endOfInput]).map fun l => { lexeme := l, location := default }
  refine ⟨hnested, ((hexact.1 ?_).1 _).1 ?_⟩
  · exact hnested
  · rfl

/-- `let` before a number that cannot be written: no program, and no
report. An arrow token is taken for the arrow whatever its symbol. -/
theorem parseTokens_unsaid :
    let w : List Lexeme := [.keyword "let", .number Number.firstLong]
    (NestedWithin 9 w ∧ (¬ ∃ e, Derives .expr w e) ∧
      ∀ fault, parseTokens 9 (w.map (Token.mk · default))
        ≠ .error (.fault fault)) ∧
    parseTokens 9 ([.keyword "fun", .identifier "x", .arrow "=>",
        .identifier "x"].map (Token.mk · default))
      = .ok (.lambda "x" (.var "x")) := by
  intro w
  have hnested : NestedWithin 9 w := nestedWithin_of_length_lt (by decide)
  have htext : Lexeme.text? (.number Number.firstLong) = none := by
    rw [Lexeme.text?, Lexeme.isShort, Number.isShort_firstLong]
    rfl
  have hunsaid : unexpected "IDENT" ⟨.number Number.firstLong, default⟩
      = .tooLong := by
    rw [unexpected, Token.text?, htext]
  have hrun : parseTokens 9 (w.map (Token.mk · default)) = .error .tooLong := by
    rw [← hunsaid]
    rfl
  refine ⟨⟨hnested, ?_, fun fault => ?_⟩, rfl⟩
  · rintro ⟨e, he⟩
    have hparse : parseTokens 9 (w.map (Token.mk · default)) = .ok e :=
      parseTokens_of_derives he hnested
    rw [hrun] at hparse
    cases hparse
  · rw [hrun]
    simp

end InferTrace
