/-
The token that is reported is the first that is impossible.

Wherever the parser halts, what it has passed is the beginning of a phrase
(`Viable`): each construct that is still open can be closed again, with a
literal for every expression that is missing. So the tokens before the one
that is reported can be completed to a program.

With that one they cannot. The parser looks no further, so on a program
that begins with them it would fail there as well, and of a program it
never reports a token. At the end of input only the second half is needed,
for the token list itself (`parseTokens_first_fault`).
-/
import InferTrace.Proofs.Expr.Exact
import InferTrace.Proofs.Expr.Lookahead

namespace InferTrace

variable {f f₁ f' : Feed} {v w : List Lexeme} {p q : Phrase} {n limit : Nat}

-- ============================================================ viable

/-- What is passed from `f` to `f'` is the beginning of a phrase. -/
def Viable (p : Phrase) (f f' : Feed) : Prop :=
  ∃ w more e, f.Takes w f' ∧ Derives p (w ++ more) e

/-- The beginning of a part begins the phrase, if the phrase can be closed
behind every such part. -/
theorem Viable.lift (h : Viable q f₁ f') (hv : f.Takes v f₁)
    (hclose : ∀ u e, Derives q u e →
      ∃ more e', Derives p (v ++ (u ++ more)) e') :
    Viable p f f' := by
  obtain ⟨w, more, e, hw, hderives⟩ := h
  obtain ⟨more', e', hwhole⟩ := hclose _ e hderives
  refine ⟨v ++ w, more ++ more', e', hv.trans hw, ?_⟩
  simpa using hwhole

/-- Zero is a program, to complete others with. -/
theorem derives_zero : Derives .expr [.number 0] (.int 0) := .ofAtom .number

namespace Parse

variable {inner : Parse Expr}

/-- Where the parser halts, it has passed the beginning of a phrase. -/
def Stops (p : Phrase) (f : Feed) : Halt → Feed → Prop := fun _ f' =>
  Viable p f f'

/-- A parser of nested expressions that stops so. -/
def Careful (inner : Parse Expr) : Prop :=
  ∀ f, Ends inner f (Parsed .expr f) (Stops .expr f)

-- ============================================================= atoms

/-- In a list, the tokens before the fault can be completed, and with it
they cannot. -/
theorem stops_listTail (hinner : Careful inner)
    (h : f.Takes [.punctuation "["] f₁) :
    Ends (listTail inner) f₁ (fun _ _ => True) (Stops .atom f) := by
  rw [listTail]
  refine ends_accept (.punctuation "]") rfl rfl (fun _ => trivial) fun _ => ?_
  rw [ends_bind]
  refine (hinner f₁).mono ?_ ?_
  · intro head f₂ hread
    obtain ⟨w, hw, hhead⟩ := hread
    refine ends_accept (.punctuation ",") rfl rfl (fun hcomma => ?_) fun _ => ?_
    · have h₃ := h.trans (hw.trans (Feed.takes_advance hcomma (by simp)))
      rw [ends_bind]
      refine (hinner _).mono ?_ ?_
      · intro second f₄ hread
        obtain ⟨w', hw', hsecond⟩ := hread
        rw [ends_bind]
        refine ends_expect (.punctuation "]") rfl rfl (fun _ => trivial) ?_
        refine ⟨_, [.punctuation "]"], .cons head (.cons second .nil),
          h₃.trans hw', ?_⟩
        simpa using Derives.pair hhead hsecond
      · intro _ f' hviable
        refine hviable.lift h₃ fun u e hu => ?_
        refine ⟨[.punctuation "]"], .cons head (.cons e .nil), ?_⟩
        simpa using Derives.pair hhead hu
    · rw [ends_bind]
      refine ends_expect (.punctuation "]") rfl rfl (fun _ => trivial) ?_
      exact ⟨_, [.punctuation "]"], _, h.trans hw, .single hhead⟩
  · intro _ f' hviable
    refine hviable.lift h fun u e hu => ?_
    exact ⟨[.punctuation "]"], _, .single hu⟩

/-- So they can in an atom. -/
theorem stops_atom (hinner : Careful inner) (f : Feed) :
    Ends (atom inner) f (fun _ _ => True) (Stops .atom f) := by
  rw [atom, ends_bind, ends_current]
  split
  · trivial
  · trivial
  · trivial
  · refine ends_accept (.punctuation "(") rfl rfl (fun hparen => ?_) fun _ => ?_
    · have h₁ := Feed.takes_advance hparen (by simp)
      rw [ends_bind]
      refine (hinner _).mono ?_ ?_
      · intro e f₂ hread
        obtain ⟨w, hw, he⟩ := hread
        rw [ends_bind]
        refine ends_expect (.punctuation ")") rfl rfl (fun _ => trivial) ?_
        exact ⟨_, [.punctuation ")"], _, h₁.trans hw, .parens he⟩
      · intro _ f' hviable
        refine hviable.lift h₁ fun u e hu => ?_
        exact ⟨[.punctuation ")"], _, .parens hu⟩
    · refine ends_accept (.punctuation "[") rfl rfl (fun hbracket => ?_)
        fun _ => ?_
      · exact stops_listTail hinner (Feed.takes_advance hbracket (by simp))
      · exact ⟨[], [.number 0], _, .refl f, .number⟩

-- ===================================== applications and operators

/-- So they can among the arguments, whatever was read before. -/
theorem stops_arguments (hsound : Sound n inner) (hinner : Careful inner) :
    ∀ (fuel : Nat) (func : Expr) (f₁ : Feed) (w : List Lexeme),
      f.Takes w f₁ → Derives .app w func →
        Ends (arguments inner fuel func) f₁ (fun _ _ => True)
          (Stops .app f) := by
  intro fuel
  induction fuel with
  | zero => exact fun _ _ _ _ _ => trivial
  | succ fuel ih =>
      intro func f₁ w h hfunc
      rw [arguments, ends_bind, ends_get]
      by_cases hstart : f₁.startsAtom = true
      · rw [if_pos hstart, ends_bind]
        refine ((sound_atom hsound f₁).join (stops_atom hinner f₁)).mono ?_ ?_
        · intro arg f₂ hread
          obtain ⟨w', hw', harg⟩ := hread
          exact ih _ _ _ (h.trans hw') (.app hfunc harg)
        · intro _ f' hviable
          refine hviable.lift h fun u e hu => ?_
          refine ⟨[], .app func e, ?_⟩
          simpa using Derives.app hfunc hu
      · rw [if_neg hstart]
        exact trivial

/-- So they can in an application. -/
theorem stops_application (hsound : Sound n inner) (hinner : Careful inner)
    (f : Feed) :
    Ends (application inner) f (fun _ _ => True) (Stops .app f) := by
  rw [application, ends_bind]
  refine ((sound_atom hsound f).join (stops_atom hinner f)).mono ?_ ?_
  · intro func f₁ hread
    obtain ⟨w, hw, hfunc⟩ := hread
    rw [ends_bind, ends_get]
    exact stops_arguments hsound hinner _ _ _ _ hw (.atom hfunc)
  · intro _ f' hviable
    refine hviable.lift (.refl f) fun u e hu => ?_
    refine ⟨[], e, ?_⟩
    simpa using Derives.atom hu

/-- So they can in a chain of operands; by induction on its fuel. -/
theorem stops_binaryChain (hsound : Sound n inner) (hinner : Careful inner) :
    ∀ (fuel : Nat) (f : Feed),
      Ends (binaryChain inner fuel) f (fun _ _ => True) (Stops .binary f) := by
  have hoperand : ∀ {f f'}, Viable .app f f' → Viable .binary f f' := by
    intro f f' hviable
    refine hviable.lift (.refl f) fun u e hu => ?_
    refine ⟨[], e, ?_⟩
    simpa using Derives.operand hu
  intro fuel
  induction fuel with
  | zero =>
      intro f
      exact (stops_application hsound hinner f).mono (fun _ _ h => h)
        fun _ _ => hoperand
  | succ fuel ih =>
      intro f
      rw [binaryChain, ends_bind]
      refine ((sound_application hsound f).join
        (stops_application hsound hinner f)).mono ?_ fun _ _ => hoperand
      intro left f₁ hread
      obtain ⟨w, hw, hleft⟩ := hread
      rw [ends_bind, ends_current]
      split
      · next op hop =>
        by_cases heq : op = "="
        · rw [if_pos heq]
          exact trivial
        · have h₂ := hw.trans (Feed.takes_advance hop (by simp))
          rw [if_neg heq, ends_bind, ends_advance, ends_bind]
          refine (ih _).mono (fun _ _ h => h) ?_
          intro _ f' hviable
          refine hviable.lift h₂ fun u e hu => ?_
          refine ⟨[], .binary op left e, ?_⟩
          simpa using Derives.operation heq hleft hu
      · exact trivial

/-- So they can where a chain is an expression. -/
theorem stops_binary (hsound : Sound n inner) (hinner : Careful inner)
    (f : Feed) : Ends (binary inner) f (fun _ _ => True) (Stops .expr f) := by
  rw [binary, ends_bind, ends_get]
  refine (stops_binaryChain hsound hinner _ f).mono (fun _ _ h => h) ?_
  intro _ f' hviable
  refine hviable.lift (.refl f) fun u e hu => ?_
  refine ⟨[], e, ?_⟩
  simpa using Derives.binary hu

-- ======================================================= expressions

/-- So they can in a `let`. -/
theorem stops_letTail (hinner : Careful inner)
    (h : f.Takes [.keyword "let"] f₁) :
    Ends (letTail inner) f₁ (fun _ _ => True) (Stops .expr f) := by
  rw [letTail, ends_bind]
  refine ends_name (fun x hx => ?_) ?_
  · have h₂ := h.trans (Feed.takes_advance hx (by simp))
    rw [ends_bind]
    refine ends_expect (.operator "=") rfl rfl (fun heq => ?_) ?_
    · have h₃ := h₂.trans (Feed.takes_advance heq (by simp))
      rw [ends_bind]
      refine (hinner _).mono ?_ ?_
      · intro value f₄ hread
        obtain ⟨v, hv, hvalue⟩ := hread
        rw [ends_bind]
        refine ends_expect (.keyword "in") rfl rfl (fun hin => ?_) ?_
        · have h₅ := h₃.trans (hv.trans (Feed.takes_advance hin (by simp)))
          rw [ends_bind]
          refine (hinner _).mono (fun _ _ _ => trivial) ?_
          intro _ f' hviable
          refine hviable.lift h₅ fun u e hu => ?_
          refine ⟨[], .letIn x value e, ?_⟩
          simpa using Derives.letIn hvalue hu
        · refine ⟨_, [.keyword "in", .number 0], .letIn x value (.int 0),
            h₃.trans hv, ?_⟩
          simpa using Derives.letIn hvalue derives_zero
      · intro _ f' hviable
        refine hviable.lift h₃ fun u e hu => ?_
        exact ⟨[.keyword "in", .number 0], _, .letIn hu derives_zero⟩
    · exact ⟨_, [.operator "=", .number 0, .keyword "in", .number 0], _, h₂,
        .letIn derives_zero derives_zero⟩
  · exact ⟨_, [.identifier "x", .operator "=", .number 0, .keyword "in",
      .number 0], _, h, .letIn derives_zero derives_zero⟩

/-- So they can in a function. -/
theorem stops_funTail (hinner : Careful inner)
    (h : f.Takes [.keyword "fun"] f₁) :
    Ends (funTail inner) f₁ (fun _ _ => True) (Stops .expr f) := by
  rw [funTail, ends_bind]
  refine ends_name (fun x hx => ?_) ?_
  · have h₂ := h.trans (Feed.takes_advance hx (by simp))
    rw [ends_bind]
    refine ends_arrow (fun s hs => ?_) ?_
    · have h₃ := h₂.trans (Feed.takes_advance hs (by simp))
      rw [ends_bind]
      refine (hinner _).mono (fun _ _ _ => trivial) ?_
      intro _ f' hviable
      refine hviable.lift h₃ fun u e hu => ?_
      refine ⟨[], .lambda x e, ?_⟩
      simpa using Derives.lambda hu
    · exact ⟨_, [.arrow "->", .number 0], _, h₂, .lambda derives_zero⟩
  · exact ⟨_, [.identifier "x", .arrow "->", .number 0], _, h,
      .lambda derives_zero⟩

/-- So they can in a conditional. -/
theorem stops_ifTail (hinner : Careful inner)
    (h : f.Takes [.keyword "if"] f₁) :
    Ends (ifTail inner) f₁ (fun _ _ => True) (Stops .expr f) := by
  rw [ifTail, ends_bind]
  refine (hinner f₁).mono ?_ ?_
  · intro cond f₂ hread
    obtain ⟨c, hc, hcond⟩ := hread
    rw [ends_bind]
    refine ends_expect (.keyword "then") rfl rfl (fun hthen => ?_) ?_
    · have h₃ := h.trans (hc.trans (Feed.takes_advance hthen (by simp)))
      rw [ends_bind]
      refine (hinner _).mono ?_ ?_
      · intro yes f₄ hread
        obtain ⟨y, hy, hyes⟩ := hread
        rw [ends_bind]
        refine ends_expect (.keyword "else") rfl rfl (fun helse => ?_) ?_
        · have h₅ := h₃.trans (hy.trans (Feed.takes_advance helse (by simp)))
          rw [ends_bind]
          refine (hinner _).mono (fun _ _ _ => trivial) ?_
          intro _ f' hviable
          refine hviable.lift h₅ fun u e hu => ?_
          refine ⟨[], .ite cond yes e, ?_⟩
          simpa using Derives.ite hcond hyes hu
        · refine ⟨_, [.keyword "else", .number 0], .ite cond yes (.int 0),
            h₃.trans hy, ?_⟩
          simpa using Derives.ite hcond hyes derives_zero
      · intro _ f' hviable
        refine hviable.lift h₃ fun u e hu => ?_
        refine ⟨[.keyword "else", .number 0], .ite cond e (.int 0), ?_⟩
        simpa using Derives.ite hcond hu derives_zero
    · refine ⟨_, [.keyword "then", .number 0, .keyword "else", .number 0],
        .ite cond (.int 0) (.int 0), h.trans hc, ?_⟩
      simpa using Derives.ite hcond derives_zero derives_zero
  · intro _ f' hviable
    refine hviable.lift h fun u e hu => ?_
    exact ⟨[.keyword "then", .number 0, .keyword "else", .number 0], _,
      .ite hu derives_zero derives_zero⟩

theorem stops_expressionWith (hsound : Sound n inner)
    (hinner : Careful inner) (f : Feed) :
    Ends (expressionWith inner) f (fun _ _ => True) (Stops .expr f) := by
  rw [expressionWith]
  refine ends_accept (.keyword "let") rfl rfl (fun hlet => ?_) fun _ => ?_
  · exact stops_letTail hinner (Feed.takes_advance hlet (by simp))
  refine ends_accept (.keyword "fun") rfl rfl (fun hfun => ?_) fun _ => ?_
  · exact stops_funTail hinner (Feed.takes_advance hfun (by simp))
  refine ends_accept (.keyword "if") rfl rfl (fun hif => ?_) fun _ => ?_
  · exact stops_ifTail hinner (Feed.takes_advance hif (by simp))
  exact stops_binary hsound hinner f

/-- So they can in every expression; by induction on the limit. -/
theorem careful_expression (limit : Nat) : Careful (expression limit) := by
  induction limit with
  | zero => exact fun f => ⟨[], [.number 0], _, .refl f, derives_zero⟩
  | succ limit ih =>
      intro f
      exact (sound_expression (limit + 1) f).join
        (stops_expressionWith (sound_expression limit) ih f)

/-- Wherever the parser halts, it has passed the beginning of a
program. -/
theorem stops_program (limit : Nat) (f : Feed) :
    Ends (program limit) f (fun _ _ => True) (Stops .expr f) := by
  rw [program, ends_bind]
  refine (careful_expression limit f).mono ?_ fun _ _ h => h
  intro e f₁ hread
  obtain ⟨w, hw, he⟩ := hread
  rw [ends_bind, ends_current]
  by_cases hend : f₁.current.lexeme = .endOfInput
  · rw [if_pos hend]
    exact trivial
  · rw [if_neg hend]
    refine ⟨w, [], e, hw, ?_⟩
    simpa using he

end Parse

-- ====================================================== token lists

variable {halt : Halt}

/-- No program begins with what the parser has passed and the token that
it reports. -/
theorem not_derives_of_unexpected (hw : f.Takes w f')
    (hrun : Parse.program limit f = .error halt f')
    (hhalt : halt ≠ .tooDeep) (more : List Lexeme) (e : Expr) :
    ¬ Derives .expr (w ++ f'.current.lexeme :: more) e := by
  intro hderives
  obtain ⟨v, hv, hall⟩ := (Parse.localAt_program limit f).of_error hrun
  obtain rfl : v = w :=
    List.append_cancel_right (hv.lexemes.symm.trans hw.lexemes)
  -- on the program the parser would fail at the same place
  have hnext : ahead (f'.current.lexeme :: more) = ahead f'.lexemes :=
    Feed.current_ahead
  have hsame := hall (.ofLexemes _) _ (Feed.lexemes_ofLexemes _) hnext
  have hcomplete := Parse.complete_program
    (hderives.beforeEnd_ofLexemes.symm ▸ hderives) limit
  cases hprogram : Parse.program limit
      (.ofLexemes (v ++ f'.current.lexeme :: more)) with
  | ok e' g' => exact hsame.of_ok hprogram
  | error halt' g' =>
      have htooDeep := hcomplete.of_error hprogram
      exact hhalt (hsame.of_error hprogram htooDeep)

/-- Where a feed that has passed some tokens stands in the token list it
was made from. -/
theorem Feed.Takes.exists_split {body : List Token} {last : Token}
    (h : (Feed.ofTokens (body ++ [last])).Takes w f')
    (hlast : last.lexeme = .endOfInput)
    (hbody : ∀ t ∈ body, t.lexeme ≠ .endOfInput) :
    ∃ before after, body ++ [last] = before ++ f'.current :: after ∧
      before.map Token.lexeme = w ∧
      (f'.current.lexeme = .endOfInput → before = body) := by
  have hfeed : Feed.ofTokens (body ++ [last])
      = { rest := body, stop := last.location } := by
    unfold Feed.ofTokens
    rw [List.getLast?_concat]
    simp [hlast]
  rw [hfeed] at h
  obtain ⟨taken, htaken, hrest⟩ := h.rest
  replace hrest : body = taken ++ f'.rest := hrest
  have hstop : f'.stop = last.location := h.stop
  unfold Feed.current
  cases hf' : f'.rest with
  | nil =>
      rw [hf', List.append_nil] at hrest
      refine ⟨taken, [], ?_, htaken, fun _ => hrest.symm⟩
      rw [hrest, hstop, ← hlast]
  | cons t rest =>
      rw [hf'] at hrest
      refine ⟨taken, rest ++ [last], ?_, htaken, fun hend => ?_⟩
      · rw [hrest, List.append_assoc]
        rfl
      · refine absurd hend (hbody t ?_)
        rw [hrest]
        simp

/-- Of a program the parser reports no token. -/
theorem not_derives_of_error {tokens : List Token} {e : Expr}
    (hrun : Parse.program limit (Feed.ofTokens tokens) = .error halt f')
    (hhalt : halt ≠ .tooDeep) :
    ¬ Derives .expr (beforeEnd (tokens.map Token.lexeme)) e := by
  intro hderives
  rw [← beforeEnd_ofTokens] at hderives
  exact hhalt ((Parse.complete_program hderives limit).of_error hrun)

/-- Syntax errors. If the only end of input is the last token, the token
that is reported, with its text and its place, is the first that is
impossible: what stands before it can be completed to a program, and
together with it cannot. Where it is the end of input, what stands before
it is the beginning of a program, but none. -/
theorem parseTokens_first_fault {body : List Token} {last : Token}
    {fault : Fault} (hlast : last.lexeme = .endOfInput)
    (hbody : ∀ t ∈ body, t.lexeme ≠ .endOfInput)
    (h : parseTokens limit (body ++ [last]) = .error (.fault fault)) :
    ∃ before token after expected,
      body ++ [last] = before ++ token :: after ∧
      .fault fault = unexpected expected token ∧
      (∃ more e, Derives .expr (before.map Token.lexeme ++ more) e) ∧
      (token.lexeme ≠ .endOfInput → ∀ more e, ¬ Derives .expr
        (before.map Token.lexeme ++ token.lexeme :: more) e) ∧
      (token.lexeme = .endOfInput →
        before = body ∧ (∃ more e, more ≠ [] ∧
          Derives .expr (before.map Token.lexeme ++ more) e) ∧
        ∀ e, ¬ Derives .expr (before.map Token.lexeme) e) := by
  unfold parseTokens at h
  cases hrun : Parse.program limit (Feed.ofTokens (body ++ [last])) with
  | ok e f' =>
      rw [hrun] at h
      cases h
  | error halt f' =>
      rw [hrun] at h
      cases h
      obtain ⟨w, more, e, hw, hderives⟩ :=
        (Parse.stops_program limit _).of_error hrun
      obtain ⟨before, after, hsplit, rfl, hwhole⟩ :=
        hw.exists_split hlast hbody
      rcases (Parse.sound_program limit _).of_error hrun with
        ⟨expected, hexpected⟩ | ⟨hdeep, -⟩
      · refine ⟨before, f'.current, after, expected, hsplit, hexpected,
          ⟨more, e, hderives⟩, fun _ => ?_, fun hend => ?_⟩
        · exact not_derives_of_unexpected hw hrun (by simp)
        · have hnone : ∀ e, ¬ Derives .expr (before.map Token.lexeme) e := by
            intro e' he'
            have hbefore : beforeEnd ((body ++ [last]).map Token.lexeme)
                = before.map Token.lexeme := by
              rw [← hwhole hend, List.map_append]
              refine beforeEnd_append he'.endOfInput_notMem ?_
              simpa using hlast
            rw [← hbefore] at he'
            exact not_derives_of_error hrun (by simp) he'
          refine ⟨hwhole hend, ⟨more, e, ?_, hderives⟩, hnone⟩
          intro hmore
          rw [hmore, List.append_nil] at hderives
          exact hnone e hderives
      · cases hdeep

/-- `let x = [1, 2 then`: the list can only be closed. -/
theorem parseTokens_first_fault_list :
    let body := [.keyword "let", .identifier "x", .operator "=",
      .punctuation "[", .number 1, .punctuation ",", .number 2,
      .keyword "then"].map (Token.mk · default)
    let fault : Fault := { cause := .unexpectedToken "']'" "'then'"
                           location := some default }
    parseTokens 9 (body ++ [Token.mk .endOfInput default])
      = .error (.fault fault) ∧
    ∃ before token after expected,
      body ++ [Token.mk .endOfInput default] = before ++ token :: after ∧
      .fault fault = unexpected expected token ∧
      (∃ more e, Derives .expr (before.map Token.lexeme ++ more) e) ∧
      (token.lexeme ≠ .endOfInput → ∀ more e, ¬ Derives .expr
        (before.map Token.lexeme ++ token.lexeme :: more) e) := by
  intro body fault
  have hrun : parseTokens 9 (body ++ [Token.mk .endOfInput default])
      = .error (.fault fault) := rfl
  have hbody : ∀ t ∈ body, t.lexeme ≠ .endOfInput := by decide
  obtain ⟨before, token, after, expected, hsplit, hfault, hmore, hnone, -⟩ :=
    parseTokens_first_fault rfl hbody hrun
  exact ⟨hrun, before, token, after, expected, hsplit, hfault, hmore, hnone⟩

end InferTrace
