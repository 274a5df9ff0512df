/-
A source text may be written anew from its tokens.

The lexemes of a scan are legible, so that they are scanned again from
the text that shows them with a blank between any two. Their places are
others, and so the parser reads other tokens. It does the same with them:
what a parser does is settled by lexemes, and places only go into the
reports of faults.

`Parse.Agree` says that two parsers do the same on feeds with the same
lexemes. What they give on the way may have a place in it, so the values
are related as well, tokens by their lexemes and expressions by equality.
Each way to build a parser keeps it, and it goes through the layers of
the grammar from the parser of nested expressions (`agree_expression`).
-/
import InferTrace.Proofs.Expr.Source

namespace InferTrace

-- ========================================================= faults

/-- What stops a computation, without the place in the source. -/
def Halt.anywhere : Halt → Halt
  | .fault f => .fault { f with location := none }
  | halt => halt

namespace Parse

variable {α β : Type} {V : α → α → Prop} {W : β → β → Prop}
  {x y x' y' : Parse α} {inner : Parse Expr} {f g : Feed}
  {cls : Lexeme.Class} {value : Option Lexeme.Value}

-- ========================================================== agreement

/-- Both have given related values, or have halted in the same way but
for the place, with the same lexemes left. -/
inductive SameWords (V : α → α → Prop) :
    EStateM.Result Halt Feed α → EStateM.Result Halt Feed α → Prop
  | ok {a b : α} {f g : Feed} : V a b → f.lexemes = g.lexemes →
      SameWords V (.ok a f) (.ok b g)
  | error {halt halt' : Halt} {f g : Feed} :
      halt.anywhere = halt'.anywhere → f.lexemes = g.lexemes →
      SameWords V (.error halt f) (.error halt' g)

/-- On feeds with the same lexemes the parsers do the same, but for
places. -/
def Agree (V : α → α → Prop) (x y : Parse α) : Prop :=
  ∀ f g, f.lexemes = g.lexemes → SameWords V (x f) (y g)

theorem agree_pure {a b : α} (h : V a b) : Agree V (pure a) (pure b) :=
  fun _ _ hfg => .ok h hfg

theorem agree_throw (halt : Halt) :
    Agree V (throw halt : Parse α) (throw halt) :=
  fun _ _ hfg => .error rfl hfg

/-- Parsers that agree, one after the other, agree. -/
theorem Agree.bind {k k' : α → Parse β} (h : Agree V x y)
    (hk : ∀ a b, V a b → Agree W (k a) (k' b)) :
    Agree W (x >>= k) (y >>= k') := by
  intro f g hfg
  have hends := h f g hfg
  generalize hx : x f = p at hends
  generalize hy : y g = q at hends
  cases hends with
  | ok hab hrest =>
      rw [bind_of_ok hx, bind_of_ok hy]
      exact hk _ _ hab _ _ hrest
  | error hhalt hrest =>
      rw [bind_of_error hx, bind_of_error hy]
      exact .error hhalt hrest

/-- Values without places are the same. -/
theorem Agree.next {k k' : α → Parse β} (h : Agree Eq x y)
    (hk : ∀ a, Agree W (k a) (k' a)) : Agree W (x >>= k) (y >>= k') := by
  refine h.bind fun a b hab => ?_
  rw [hab]
  exact hk b

/-- A test that does not look at places keeps parsers in agreement. -/
theorem Agree.ite {c : Prop} [Decidable c] (h : Agree V x y)
    (h' : Agree V x' y') :
    Agree V (if c then x else x') (if c then y else y') := by
  by_cases hc : c
  · rw [if_pos hc, if_pos hc]
    exact h
  · rw [if_neg hc, if_neg hc]
    exact h'

-- =========================================================== readers

/-- Tokens that differ in their places at most. -/
def SameLexeme (s t : Token) : Prop := s.lexeme = t.lexeme

/-- Feeds that differ in the places of tokens at most. -/
def SameLexemes (f g : Feed) : Prop := f.lexemes = g.lexemes

/-- The next tokens have one lexeme. -/
theorem SameLexemes.current (h : SameLexemes f g) :
    SameLexeme f.current g.current := by
  show f.current.lexeme = g.current.lexeme
  rw [Feed.current_lexeme, Feed.current_lexeme, h]

/-- A check comes out the same. -/
theorem SameLexemes.check (h : SameLexemes f g) :
    f.check cls value = g.check cls value := by
  have hcurrent : f.current.lexeme = g.current.lexeme := h.current
  unfold Feed.check
  rw [hcurrent]

/-- An atom starts in both feeds or in neither. -/
theorem SameLexemes.startsAtom (h : SameLexemes f g) :
    f.startsAtom = g.startsAtom := by
  have hcurrent : f.current.lexeme = g.current.lexeme := h.current
  rw [Bool.eq_iff_iff, Feed.startsAtom_iff, Feed.startsAtom_iff, hcurrent]

/-- As many tokens are left. -/
theorem SameLexemes.length (h : SameLexemes f g) :
    f.rest.length = g.rest.length := by
  rw [← Feed.length_lexemes, ← Feed.length_lexemes, h]

theorem agree_get : Agree SameLexemes (get : Parse Feed) get :=
  fun _ _ h => .ok h h

theorem agree_current : Agree SameLexeme current current :=
  fun _ _ h => .ok (SameLexemes.current h) h

theorem agree_advance : Agree SameLexeme advance advance := by
  intro f g h
  refine .ok (SameLexemes.current h) ?_
  rw [Feed.lexemes_advance, Feed.lexemes_advance, h]

/-- A report says what was expected and what was found, wherever that
is. -/
theorem agree_fail (expected : String) :
    Agree V (fail expected) (fail expected) := by
  refine agree_current.bind fun s t hst => ?_
  intro f g hfg
  refine SameWords.error ?_ hfg
  have hlexeme : s.lexeme = t.lexeme := hst
  unfold unexpected Token.text?
  rw [hlexeme]
  cases t.lexeme.text? with
  | none | some => rfl

/-- To accept a token leads both feeds the same way. -/
theorem agree_accept (hx : Agree V x y) (hx' : Agree V x' y') :
    Agree V (do if (← accept cls value).isSome then x else x')
      (do if (← accept cls value).isSome then y else y') := by
  have haccept : Agree (fun a b => a.isSome = b.isSome)
      (accept cls value) (accept cls value) := by
    refine agree_get.bind fun f g hfg => ?_
    rw [hfg.check]
    exact .ite (agree_advance.bind fun _ _ _ => agree_pure rfl)
      (agree_pure rfl)
  refine haccept.bind fun a b hab => ?_
  rw [hab]
  exact .ite hx hx'

/-- To expect a token succeeds in both feeds or fails in both. -/
theorem agree_expect :
    Agree SameLexeme (expect cls value) (expect cls value) := by
  refine agree_get.bind fun f g hfg => ?_
  rw [hfg.check]
  refine .ite agree_advance ?_
  cases value with
  | none => exact agree_fail _
  | some v =>
      cases htext : v.text? with
      | none => simpa [htext] using agree_throw _
      | some text => simpa [htext] using agree_fail _

theorem agree_name : Agree Eq name name := by
  refine agree_expect.bind fun s t hst => agree_pure ?_
  have hlexeme : s.lexeme = t.lexeme := hst
  rw [hlexeme]

-- ============================================================ layers

/-- The rest of a list is read alike. -/
theorem agree_listTail (h : Agree Eq inner inner) :
    Agree Eq (listTail inner) (listTail inner) := by
  refine agree_accept (agree_pure rfl) (h.next fun head => ?_)
  refine agree_accept (h.next fun second => ?_) ?_
  · exact agree_expect.bind fun _ _ _ => agree_pure rfl
  · exact agree_expect.bind fun _ _ _ => agree_pure rfl

/-- An atom is read alike. -/
theorem agree_atom (h : Agree Eq inner inner) :
    Agree Eq (atom inner) (atom inner) := by
  refine agree_current.bind fun s t hst => ?_
  have hlexeme : s.lexeme = t.lexeme := hst
  rw [hlexeme]
  cases t.lexeme with
  | number | boolean | identifier =>
      exact agree_advance.bind fun _ _ _ => agree_pure rfl
  | _ =>
      refine agree_accept (h.next fun e => ?_) ?_
      · exact agree_expect.bind fun _ _ _ => agree_pure rfl
      · exact agree_accept (agree_listTail h) (agree_fail _)

/-- The arguments of a function are read alike, round by round. -/
theorem agree_arguments (h : Agree Eq inner inner) (fuel : Nat)
    (func : Expr) :
    Agree Eq (arguments inner fuel func) (arguments inner fuel func) := by
  induction fuel generalizing func with
  | zero => exact agree_pure rfl
  | succ fuel ih =>
      refine agree_get.bind fun f g hfg => ?_
      rw [hfg.startsAtom]
      exact .ite ((agree_atom h).next fun arg => ih _) (agree_pure rfl)

/-- An application is read alike. -/
theorem agree_application (h : Agree Eq inner inner) :
    Agree Eq (application inner) (application inner) := by
  refine (agree_atom h).next fun func => agree_get.bind fun f g hfg => ?_
  rw [hfg.length]
  exact agree_arguments h _ func

/-- A chain of operands is read alike, round by round. -/
theorem agree_binaryChain (h : Agree Eq inner inner) (fuel : Nat) :
    Agree Eq (binaryChain inner fuel) (binaryChain inner fuel) := by
  induction fuel with
  | zero => exact agree_application h
  | succ fuel ih =>
      refine (agree_application h).next fun left => ?_
      refine agree_current.bind fun s t hst => ?_
      have hlexeme : s.lexeme = t.lexeme := hst
      rw [hlexeme]
      cases t.lexeme with
      | operator op =>
          refine .ite (agree_pure rfl) (agree_advance.bind fun _ _ _ => ?_)
          exact ih.next fun right => agree_pure rfl
      | _ => exact agree_pure rfl

/-- A chain of operands is read alike. -/
theorem agree_binary (h : Agree Eq inner inner) :
    Agree Eq (binary inner) (binary inner) := by
  refine agree_get.bind fun f g hfg => ?_
  rw [hfg.length]
  exact agree_binaryChain h _

theorem agree_letTail (h : Agree Eq inner inner) :
    Agree Eq (letTail inner) (letTail inner) := by
  refine agree_name.next fun x => agree_expect.bind fun _ _ _ => ?_
  refine h.next fun value => agree_expect.bind fun _ _ _ => ?_
  exact h.next fun body => agree_pure rfl

theorem agree_funTail (h : Agree Eq inner inner) :
    Agree Eq (funTail inner) (funTail inner) := by
  refine agree_name.next fun x => agree_expect.bind fun _ _ _ => ?_
  exact h.next fun body => agree_pure rfl

theorem agree_ifTail (h : Agree Eq inner inner) :
    Agree Eq (ifTail inner) (ifTail inner) := by
  refine h.next fun cond => agree_expect.bind fun _ _ _ => ?_
  refine h.next fun yes => agree_expect.bind fun _ _ _ => ?_
  exact h.next fun no => agree_pure rfl

/-- An expression is read alike, by induction on the limit. -/
theorem agree_expression (limit : Nat) :
    Agree Eq (expression limit) (expression limit) := by
  induction limit with
  | zero => exact agree_throw .tooDeep
  | succ limit ih =>
      apply agree_accept (agree_letTail ih)
      apply agree_accept (agree_funTail ih)
      apply agree_accept (agree_ifTail ih)
      exact agree_binary ih

/-- A program is read alike. -/
theorem agree_program (limit : Nat) :
    Agree Eq (program limit) (program limit) := by
  refine (agree_expression limit).next fun e => ?_
  refine agree_current.bind fun s t hst => ?_
  have hlexeme : s.lexeme = t.lexeme := hst
  rw [hlexeme]
  exact .ite (agree_pure rfl) (agree_fail _)

end Parse

-- ====================================================== token lists

variable {tokens tokens' : List Token}

/-- The end of input at the end of a token list is not fed. -/
theorem lexemes_ofTokens {w : List Lexeme}
    (h : tokens.map Token.lexeme = w ++ [.endOfInput]) :
    (Feed.ofTokens tokens).lexemes = w := by
  obtain ⟨init, ends, rfl, hinit, hends⟩ := List.map_eq_append_iff.1 h
  obtain ⟨last, rfl, hlast⟩ := List.map_eq_singleton_iff.1 hends
  unfold Feed.ofTokens
  rw [List.getLast?_concat]
  simp [hlast, Feed.lexemes, hinit]

/-- Token lists with the same lexemes are parsed alike. -/
theorem parseTokens_anywhere (limit : Nat)
    (h : (Feed.ofTokens tokens).lexemes = (Feed.ofTokens tokens').lexemes) :
    (parseTokens limit tokens).mapError Halt.anywhere
      = (parseTokens limit tokens').mapError Halt.anywhere := by
  have hsame := Parse.agree_program limit _ _ h
  unfold parseTokens
  generalize Parse.program limit (Feed.ofTokens tokens) = p at hsame
  generalize Parse.program limit (Feed.ofTokens tokens') = q at hsame
  cases hsame with
  | ok he _ => rw [he]
  | error hhalt _ => exact congrArg Except.error hhalt

-- ========================================================== sources

/-- The tokens before the end of input as they are shown, with a blank
between any two. -/
def rejoined (tokens : List Token) : String :=
  " ".intercalate ((tokens.filter fun t => decide (t.lexeme ≠ .endOfInput)).map
    Token.text)

/-- Only the end of input is left out of a scan. -/
theorem rejoined_eq_spaced {place : Location}
    (h : ∀ t ∈ tokens, t.lexeme.Legible) :
    rejoined (tokens ++ [{ lexeme := .endOfInput, location := place }])
      = spaced (tokens.map Token.lexeme) := by
  have hkeep : ∀ t ∈ tokens, decide (t.lexeme ≠ .endOfInput) = true :=
    fun t ht => decide_eq_true (h t ht).spells.ne_endOfInput
  unfold rejoined spaced
  rw [List.filter_append, List.filter_eq_self.2 hkeep, List.map_map,
    List.filter_cons_of_neg (by simp), List.filter_nil, List.append_nil]
  rfl

/-- The text of the tokens of a source stands for the source. In any
mode it is scanned to the same lexemes, and parsed to the same
expression or to the same report, but for the place. -/
theorem scanSource_rejoined {mode : Mode} {source : String}
    {tokens : List Token} (h : (scanSource mode source).result = .ok tokens)
    (mode' : Mode) :
    (∃ tokens', (scanSource mode' (rejoined tokens)).result = .ok tokens' ∧
      tokens'.map Token.lexeme = tokens.map Token.lexeme) ∧
    ∀ limit,
      (parseSource limit mode' (rejoined tokens)).mapError Halt.anywhere
        = (parseSource limit mode source).mapError Halt.anywhere := by
  have hfair := Cursor.fair_scan (.ofSource source) mode
  have hscan : ((Cursor.ofSource source).scan mode).result = .ok tokens := h
  rw [hscan] at hfair
  obtain ⟨body, place, rfl, hbody⟩ := hfair
  have hlegible : ∀ l ∈ body.map Token.lexeme, l.Legible := by
    intro l hl
    obtain ⟨t, ht, rfl⟩ := List.mem_map.1 hl
    exact hbody t ht
  rw [rejoined_eq_spaced hbody]
  obtain ⟨tokens', hscan', hlexemes⟩ := scanSource_spaced mode' hlegible
  have hsource : (body ++ [Token.mk .endOfInput place]).map Token.lexeme
      = body.map Token.lexeme ++ [.endOfInput] :=
    List.map_append
  refine ⟨⟨tokens', hscan', hlexemes.trans hsource.symm⟩, fun limit => ?_⟩
  unfold parseSource
  rw [h, hscan']
  apply parseTokens_anywhere
  rw [lexemes_ofTokens hlexemes, lexemes_ofTokens hsource]

/-- `let x=007@in[x,y` ends too early, and its `@` is dropped; rejoined, its
tokens are `let x = 7 in [ x , y`. -/
theorem scanSource_rejoined_unclosed :
    ∃ tokens, (scanSource (.mk "a.ml" false) "let x=007@in[x,y").result
        = .ok tokens ∧
      rejoined tokens = "let x = 7 in [ x , y" ∧
      (∃ tokens', (scanSource (.mk "<input>" true)
          (rejoined tokens)).result = .ok tokens' ∧
        tokens'.map Token.lexeme = tokens.map Token.lexeme) ∧
      ∀ limit, (parseSource limit (.mk "<input>" true)
          (rejoined tokens)).mapError Halt.anywhere
        = (parseSource limit (.mk "a.ml" false)
            "let x=007@in[x,y").mapError Halt.anywhere := by
  have hok : ∃ tokens, (scanSource (.mk "a.ml" false)
      "let x=007@in[x,y").result = .ok tokens ∧
        rejoined tokens = "let x = 7 in [ x , y" := by
    refine ⟨_, by cbv, ?_⟩
    cbv
  obtain ⟨tokens, hscan, htext⟩ := hok
  exact ⟨tokens, hscan, htext, scanSource_rejoined hscan _⟩

end InferTrace
