/-
The parser looks one lexeme ahead.

What a parser does is settled by the lexemes that it passes and the one
where it stops: on every other feed that goes on so, it does the same
(`LocalAt`). The rules follow the ways in which parsers are built. A test
of the next token is settled by that token (`localAt_step`), and a
sequence takes the lexeme after its first part from its second part, or,
if that passes none, from what is left behind both (`LocalAt.bind`).

The two loops count down from the number of tokens that are left, which
differs from feed to feed. That number is enough for every run
(`arguments_fuel`, `binaryChain_fuel`), so that each loop satisfies an
equation without it (`argumentsLeft_eq`, `binary_eq`).
-/
import InferTrace.Proofs.Expr.Soundness

namespace InferTrace

variable {f f₁ f' g : Feed} {v w rest rest' : List Lexeme} {l : Lexeme}
  {n : Nat} {α β : Type}

-- =================================================== the next lexeme

/-- The next lexeme of what is left. -/
def ahead (rest : List Lexeme) : Lexeme := rest.head?.getD .endOfInput

/-- The token that is next is what lies ahead of the lexemes left. -/
theorem Feed.current_ahead : f.current.lexeme = ahead f.lexemes :=
  Feed.current_lexeme

/-- What lies ahead of a text and its rest depends on the rest only by
what lies ahead of it. -/
theorem ahead_append (w : List Lexeme) (h : ahead rest = ahead rest') :
    ahead (w ++ rest) = ahead (w ++ rest') := by
  cases w with
  | nil => exact h
  | cons l w => rfl

namespace Parse

/-- On every feed that begins with these lexemes and goes on with the
lexeme that is next in `f'`, the parser ends as is said. -/
def OnAll (x : Parse α) (w : List Lexeme) (f' : Feed)
    (done : List Lexeme → α → Feed → Prop) (halted : Halt → Feed → Prop) :
    Prop :=
  ∀ g rest, g.lexemes = w ++ rest → ahead rest = ahead f'.lexemes →
    Ends x g (done rest) halted

/-- Where `x` ends from here, it ends so on all feeds with the same lexemes
up to there and the same lexeme next: with the same value, or for want of
depth only if it does here. -/
def LocalAt (x : Parse α) (f : Feed) : Prop :=
  Ends x f
    (fun a f' => ∃ w, f.Takes w f' ∧
      OnAll x w f' (fun rest b g' => b = a ∧ g'.lexemes = rest)
        fun _ _ => False)
    fun halt f' => ∃ w, f.Takes w f' ∧
      OnAll x w f' (fun _ _ _ => False)
        fun halt' _ => halt' = .tooDeep → halt = .tooDeep

variable {x y : Parse α} {k : α → Parse β} {cls : Lexeme.Class} {s : String}
  {done : List Lexeme → α → Feed → Prop} {halted : Halt → Feed → Prop}

theorem localAt_pure (a : α) (f : Feed) : LocalAt (pure a) f :=
  ⟨[], .refl f, fun _ _ hg _ => ⟨rfl, hg⟩⟩

theorem localAt_throw (halt : Halt) (f : Feed) :
    LocalAt (throw halt : Parse α) f :=
  ⟨[], .refl f, fun _ _ _ _ => id⟩

/-- Behind the first part of a sequence stands what the second passes, and
then what is left. -/
theorem OnAll.bind {a : α} {done : List Lexeme → β → Feed → Prop}
    (hx : OnAll x w f₁ (fun rest b g' => b = a ∧ g'.lexemes = rest)
      fun _ _ => False)
    (hv : f₁.Takes v f') (hk : OnAll (k a) v f' done halted) :
    OnAll (x >>= k) (w ++ v) f' done halted := by
  intro g rest hg hahead
  have hnext : ahead (v ++ rest) = ahead f₁.lexemes := by
    rw [hv.lexemes]
    exact ahead_append v hahead
  rw [List.append_assoc] at hg
  rw [ends_bind]
  refine (hx g _ hg hnext).mono ?_ fun _ _ h => h.elim
  intro b g₁ ⟨hb, hg₁⟩
  rw [hb]
  exact hk g₁ rest hg₁ hahead

/-- Steps that are local where they are taken are local one after the
other. -/
theorem LocalAt.bind (hx : LocalAt x f)
    (hk : ∀ a f₁, x f = .ok a f₁ → LocalAt (k a) f₁) :
    LocalAt (x >>= k) f := by
  unfold LocalAt
  rw [ends_bind, Ends]
  cases hrun : x f with
  | error halt f' =>
      obtain ⟨w, hw, hall⟩ := hx.of_error hrun
      refine ⟨w, hw, fun g rest hg hahead => ?_⟩
      rw [ends_bind]
      exact (hall g rest hg hahead).mono (fun _ _ h => h.elim) fun _ _ h => h
  | ok a f₁ =>
      obtain ⟨w, hw, hall⟩ := hx.of_ok hrun
      refine (hk a f₁ hrun).mono ?_ ?_
      · intro b f' ⟨v, hv, hall'⟩
        exact ⟨w ++ v, hw.trans hv, hall.bind hv hall'⟩
      · intro halt f' ⟨v, hv, hall'⟩
        exact ⟨w ++ v, hw.trans hv, hall.bind hv hall'⟩

/-- Where the next lexeme settles what is passed first, and how it goes
on. -/
theorem localAt_step (hv : f.Takes v f₁) (hy : LocalAt y f₁)
    (hf : ∀ {done halted}, Ends y f₁ done halted → Ends x f done halted)
    (hg : ∀ {g : Feed} {rest} {done halted}, g.lexemes = v ++ rest →
      g.current.lexeme = f.current.lexeme →
        (∀ g₁ : Feed, g₁.lexemes = rest → Ends y g₁ done halted) →
          Ends x g done halted) :
    LocalAt x f := by
  have hlift : ∀ {w f' done halted}, f₁.Takes w f' →
      OnAll y w f' done halted → OnAll x (v ++ w) f' done halted := by
    intro w f' done halted hw hall g rest hrest hahead
    rw [List.append_assoc] at hrest
    refine hg hrest ?_ fun g₁ hg₁ => hall g₁ rest hg₁ hahead
    rw [Feed.current_ahead, Feed.current_ahead, hrest, hv.lexemes, hw.lexemes]
    exact ahead_append v (ahead_append w hahead)
  refine hf (hy.mono ?_ ?_)
  · intro a f' ⟨w, hw, hall⟩
    exact ⟨v ++ w, hv.trans hw, hlift hw hall⟩
  · intro halt f' ⟨w, hw, hall⟩
    exact ⟨v ++ w, hv.trans hw, hlift hw hall⟩

/-- Where the next lexeme settles that the parser fails here. -/
theorem localAt_fails
    (hx : ∀ g : Feed, g.current.lexeme = f.current.lexeme → Ends x g
      (fun _ _ => False) fun halt g' => halt ≠ .tooDeep ∧ g' = g) :
    LocalAt x f := by
  refine (hx f rfl).mono (fun _ _ h => h.elim) ?_
  intro halt f' ⟨_, hf'⟩
  rw [hf']
  refine ⟨[], .refl f, fun g rest hg hahead => ?_⟩
  have hnext : g.current.lexeme = f.current.lexeme := by
    rw [Feed.current_ahead, Feed.current_ahead, hg]
    exact hahead
  refine (hx g hnext).mono (fun _ _ h => h) ?_
  intro halt' _ h htooDeep
  exact absurd htooDeep h.1

-- =========================================================== readers

/-- A lexeme that is a word does not end the input. -/
theorem ne_endOfInput_of_word? (hl : l.word? = some s) : l ≠ .endOfInput := by
  intro hc
  rw [hc] at hl
  cases hl

/-- The next token decides between two ways on. -/
theorem localAt_accept (l : Lexeme) (hcls : l.cls = cls)
    (hl : l.word? = some s)
    (hx : f.current.lexeme = l → LocalAt x f.advance)
    (hy : f.current.lexeme ≠ l → LocalAt y f) :
    LocalAt (do if (← accept cls (some s)).isSome then x else y) f := by
  by_cases h : f.current.lexeme = l
  · have hne := ne_endOfInput_of_word? hl
    refine localAt_step (Feed.takes_advance h hne) (hx h) (fun hend => ?_)
      fun hg _ hend => ?_
    · exact ends_accept l hcls hl (fun _ => hend) fun hc => absurd h hc
    · exact takes_accepted hg hcls hl hend
  · refine localAt_step (.refl f) (hy h) (fun hend => ?_)
      fun hg hnext hend => ?_
    · exact passes_over l hcls hl h hend
    · refine passes_over l hcls hl ?_ (hend _ hg)
      rw [hnext]
      exact h

/-- The next token has to be the one asked for. -/
theorem localAt_expect (l : Lexeme) (hcls : l.cls = cls)
    (hl : l.word? = some s)
    (hy : f.current.lexeme = l → LocalAt y f.advance) :
    LocalAt (do let _ ← expect cls (some s); y) f := by
  by_cases h : f.current.lexeme = l
  · have hne := ne_endOfInput_of_word? hl
    refine localAt_step (Feed.takes_advance h hne) (hy h) (fun hend => ?_)
      fun hg _ hend => ?_
    · rw [ends_bind, expect, ends_bind, ends_get,
        if_pos ((Feed.check_iff cls hcls hl).2 h)]
      exact hend
    · rw [ends_bind]
      exact takes_expected hg hcls hl fun _ => hend
  · refine localAt_fails fun g hnext => ?_
    rw [ends_bind]
    refine ends_expect l hcls hl (fun hc => ?_) ⟨?_, rfl⟩
    · exact absurd (hnext.symm.trans hc) h
    · exact fun hc => absurd hc (unexpected_ne_tooDeep _ _)

/-- To expect an arrow and go on is local if going on behind any arrow
is. -/
theorem localAt_arrow
    (hy : ∀ s, f.current.lexeme = .arrow s → LocalAt y f.advance) :
    LocalAt (do let _ ← expect .arrow; y) f := by
  by_cases h : ∃ s, f.current.lexeme = .arrow s
  · obtain ⟨s, hs⟩ := h
    refine localAt_step (Feed.takes_advance hs (by simp)) (hy s hs)
      (fun hend => ?_)
      fun hg _ hend => ?_
    · rw [ends_bind, expect, ends_bind, ends_get,
        if_pos (Feed.check_class_iff.2 (by rw [hs]; rfl))]
      exact hend
    · rw [ends_bind]
      exact takes_class hg rfl fun _ g₁ _ => hend g₁
  · refine localAt_fails fun g hnext => ?_
    rw [ends_bind]
    refine ends_arrow (fun s hs => ?_) ⟨?_, rfl⟩
    · exact absurd ⟨s, hnext.symm.trans hs⟩ h
    · exact fun hc => absurd hc (unexpected_ne_tooDeep _ _)

/-- To read a name is local. -/
theorem localAt_name (f : Feed) : LocalAt name f := by
  by_cases h : ∃ x, f.current.lexeme = .identifier x
  · obtain ⟨x, hx⟩ := h
    refine localAt_step (Feed.takes_advance hx (by simp)) (localAt_pure x _)
      (fun hend => ?_) fun hg _ hend => ?_
    · rw [name, ends_bind, expect, ends_bind, ends_get,
        if_pos (Feed.check_class_iff.2 (by rw [hx]; rfl)), ends_advance,
        ends_pure, hx]
      exact hend
    · exact takes_name hg hend
  · refine localAt_fails fun g hnext => ?_
    refine ends_name (fun x hx => ?_) ⟨?_, rfl⟩
    · exact absurd ⟨x, hnext.symm.trans hx⟩ h
    · exact fun hc => absurd hc (unexpected_ne_tooDeep _ _)

/-- A choice by the next lexeme, which is not passed. -/
theorem localAt_get {k : Feed → Parse α}
    (hk : ∀ g : Feed, g.current.lexeme = f.current.lexeme → k g = k f)
    (h : LocalAt (k f) f) : LocalAt (get >>= k) f := by
  refine localAt_step (.refl f) h (fun hend => ?_) fun hg hnext hend => ?_
  · rw [ends_bind, ends_get]
    exact hend
  · rw [ends_bind, ends_get, hk _ hnext]
    exact hend _ hg

/-- To look at the next token is local if nothing but its lexeme is
used. -/
theorem localAt_current {k : Token → Parse α}
    (hk : ∀ t, t.lexeme = f.current.lexeme → k t = k f.current)
    (h : LocalAt (k f.current) f) : LocalAt (current >>= k) f := by
  refine localAt_step (.refl f) h (fun hend => ?_) fun hg hnext hend => ?_
  · rw [ends_bind, ends_current]
    exact hend
  · rw [ends_bind, ends_current, hk _ hnext]
    exact hend _ hg

/-- To pass a token that is not the end of input and go on is local. -/
theorem localAt_advance (hl : f.current.lexeme = l) (hne : l ≠ .endOfInput)
    (hy : LocalAt y f.advance) : LocalAt (do let _ ← advance; y) f := by
  refine localAt_step (Feed.takes_advance hl hne) hy (fun hend => ?_)
    fun hg _ hend => ?_
  · rw [ends_bind, ends_advance]
    exact hend
  · rw [ends_bind, ends_advance]
    exact hend _ (advance_eq hg)

theorem localAt_fail (expected : String) (f : Feed) :
    LocalAt (fail expected : Parse α) f := by
  refine localAt_fails fun g _ => ?_
  exact ⟨fun hc => absurd hc (unexpected_ne_tooDeep _ _), rfl⟩

-- ============================================================= atoms

variable {inner : Parse Expr}

/-- Reading the rest of a list is local. -/
theorem localAt_listTail (hinner : ∀ f, LocalAt inner f) (f : Feed) :
    LocalAt (listTail inner) f := by
  rw [listTail]
  refine localAt_accept (.punctuation "]") rfl rfl (fun _ => ?_) fun _ => ?_
  · exact localAt_pure _ _
  refine (hinner f).bind fun head f₁ _ => ?_
  refine localAt_accept (.punctuation ",") rfl rfl (fun _ => ?_) fun _ => ?_
  · refine (hinner _).bind fun second f₂ _ => ?_
    refine localAt_expect (.punctuation "]") rfl rfl fun _ => ?_
    exact localAt_pure _ _
  · refine localAt_expect (.punctuation "]") rfl rfl fun _ => ?_
    exact localAt_pure _ _

/-- Reading an atom is local, whatever it starts with. -/
theorem localAt_atom (hinner : ∀ f, LocalAt inner f) (f : Feed) :
    LocalAt (atom inner) f := by
  rw [atom]
  refine localAt_current (fun t ht => by rw [ht]) ?_
  split
  · next n hc => exact localAt_advance hc (by simp) (localAt_pure _ _)
  · next b hc => exact localAt_advance hc (by simp) (localAt_pure _ _)
  · next x hc => exact localAt_advance hc (by simp) (localAt_pure _ _)
  · refine localAt_accept (.punctuation "(") rfl rfl (fun _ => ?_) fun _ => ?_
    · refine (hinner _).bind fun e f₁ _ => ?_
      refine localAt_expect (.punctuation ")") rfl rfl fun _ => ?_
      exact localAt_pure _ _
    · refine localAt_accept (.punctuation "[") rfl rfl (fun _ => ?_) fun _ => ?_
      · exact localAt_listTail hinner _
      · exact localAt_fail _ _

-- ============================================================= loops

/-- What follows a step matters only where the step leads. -/
theorem bind_congr {k k' : α → Parse β}
    (h : ∀ a f', x f = .ok a f' → k a f' = k' a f') :
    (x >>= k) f = (x >>= k') f := by
  show EStateM.bind x k f = EStateM.bind x k' f
  unfold EStateM.bind
  cases hx : x f with
  | ok a f' => exact h a f' hx
  | error halt f' => rfl

/-- A phrase takes tokens. -/
theorem length_lt_of_parsed {p : Phrase} {e : Expr} (h : Parsed p f e f') :
    f'.rest.length < f.rest.length := by
  obtain ⟨w, hw, he⟩ := h
  obtain ⟨l, w', rfl, -⟩ := he.exists_cons
  have hlength := congrArg List.length hw.lexemes
  rw [List.length_append, List.length_cons, Feed.length_lexemes,
    Feed.length_lexemes] at hlength
  omega

/-- One round of the loop over the arguments. -/
theorem arguments_succ (fuel : Nat) (func : Expr) (f : Feed) :
    arguments inner (fuel + 1) func f =
      if f.startsAtom then
        (do let arg ← atom inner; arguments inner fuel (.app func arg)) f
      else .ok func f := by
  rw [arguments]
  show (if f.startsAtom then _ else _ : Parse Expr) f = _
  by_cases h : f.startsAtom = true
  · rw [if_pos h, if_pos h]
  · rw [if_neg h, if_neg h]
    rfl

/-- At the end of input there are no arguments. -/
theorem arguments_nil (fuel : Nat) (func : Expr) (h : f.rest.length = 0) :
    arguments inner fuel func f = .ok func f := by
  cases fuel with
  | zero => rfl
  | succ fuel =>
      have hstart : f.startsAtom = false := by
        unfold Feed.startsAtom Feed.check Feed.current
        rw [List.length_eq_zero_iff.1 h]
        rfl
      rw [arguments_succ, hstart]
      rfl

/-- No more arguments can be taken than there are tokens. -/
theorem arguments_fuel (hinner : Sound n inner) : ∀ (fuel fuel' : Nat)
    (func : Expr) (f : Feed), f.rest.length ≤ fuel → f.rest.length ≤ fuel' →
      arguments inner fuel func f = arguments inner fuel' func f := by
  intro fuel
  induction fuel with
  | zero =>
      intro fuel' func f hf _
      rw [arguments_nil _ _ (Nat.le_zero.1 hf),
        arguments_nil _ _ (Nat.le_zero.1 hf)]
  | succ fuel ih =>
      intro fuel' func f hf hf'
      cases fuel' with
      | zero =>
          rw [arguments_nil _ _ (Nat.le_zero.1 hf'),
            arguments_nil _ _ (Nat.le_zero.1 hf')]
      | succ fuel' =>
          rw [arguments_succ, arguments_succ]
          congr 1
          refine bind_congr fun arg f₁ hrun => ?_
          have hlt := length_lt_of_parsed ((sound_atom hinner f).of_ok hrun)
          exact ih fuel' _ f₁ (by omega) (by omega)

/-- All the arguments that follow. -/
def argumentsLeft (inner : Parse Expr) (func : Expr) : Parse Expr := do
  arguments inner (← get).rest.length func

/-- The loop over the arguments without its fuel: another round wherever
an atom starts. -/
theorem argumentsLeft_eq (hinner : Sound n inner) (func : Expr) :
    argumentsLeft inner func = do
      if (← get).startsAtom then
        let arg ← atom inner
        argumentsLeft inner (.app func arg)
      else return func := by
  funext f
  show arguments inner f.rest.length func f =
    (if f.startsAtom then _ else _ : Parse Expr) f
  rw [arguments_fuel hinner _ (f.rest.length + 1) func f (Nat.le_refl _)
    (Nat.le_succ _), arguments_succ]
  by_cases h : f.startsAtom = true
  · rw [if_pos h, if_pos h]
    refine bind_congr fun arg f₁ hrun => ?_
    have hlt := length_lt_of_parsed ((sound_atom hinner f).of_ok hrun)
    exact arguments_fuel hinner _ _ _ f₁ (by omega) (Nat.le_refl _)
  · rw [if_neg h, if_neg h]
    rfl

/-- The loop is local, by induction on what is left to be read. -/
theorem localAt_argumentsLeft (hsound : Sound n inner)
    (hinner : ∀ f, LocalAt inner f) : ∀ (length : Nat) (func : Expr) (f : Feed),
      f.rest.length = length → LocalAt (argumentsLeft inner func) f := by
  intro length
  induction length using Nat.strongRecOn with
  | ind length ih =>
  intro func f hlength
  rw [argumentsLeft_eq hsound]
  refine localAt_get (fun g hg => ?_) ?_
  · have hstart : g.startsAtom = f.startsAtom := by
      rw [Bool.eq_iff_iff, Feed.startsAtom_iff, Feed.startsAtom_iff, hg]
    rw [hstart]
  · by_cases hstart : f.startsAtom = true
    · rw [if_pos hstart]
      refine (localAt_atom hinner f).bind fun arg f₁ hrun => ?_
      have hlt := length_lt_of_parsed ((sound_atom hsound f).of_ok hrun)
      exact ih _ (hlength ▸ hlt) _ f₁ rfl
    · rw [if_neg hstart]
      exact localAt_pure _ _

/-- Reading an application is local. -/
theorem localAt_application (hsound : Sound n inner)
    (hinner : ∀ f, LocalAt inner f) (f : Feed) :
    LocalAt (application inner) f := by
  rw [application]
  refine (localAt_atom hinner f).bind fun func f₁ _ => ?_
  exact localAt_argumentsLeft hsound hinner _ func f₁ rfl

/-- The operators that follow, each with the chain behind it. -/
def operations (chain : Parse Expr) (left : Expr) : Parse Expr := do
  match (← current).lexeme with
  | .operator op =>
    if op = "=" then return left
    else
      let _ ← advance
      let right ← chain
      return .binary op left right
  | _ => return left

/-- One round of the loop over the operands. -/
theorem binaryChain_succ (fuel : Nat) :
    binaryChain inner (fuel + 1)
      = application inner >>= operations (binaryChain inner fuel) :=
  rfl

/-- What comes after an operand asks of the chain only what it does
behind the operator. -/
theorem operations_congr {chain chain' : Parse Expr} (left : Expr)
    (h : chain f.advance = chain' f.advance) :
    operations chain left f = operations chain' left f := by
  unfold operations
  refine bind_congr fun t f' hrun => ?_
  cases hrun
  cases hop : f.current.lexeme with
  | operator op =>
      by_cases heq : op = "="
      · simp only [if_pos heq]
      · simp only [if_neg heq]
        refine bind_congr fun t' f' hrun => ?_
        cases hrun
        show EStateM.bind chain _ _ = EStateM.bind chain' _ _
        unfold EStateM.bind
        rw [h]
  | _ => rfl

/-- At the end of input there is no application. -/
theorem application_nil (hinner : Sound n inner) (h : f.rest.length = 0) :
    ∃ halt f', application inner f = .error halt f' := by
  cases hrun : application inner f with
  | error halt f' => exact ⟨halt, f', rfl⟩
  | ok e f' =>
      have hlt := length_lt_of_parsed ((sound_application hinner f).of_ok hrun)
      omega

/-- At the end of the tokens the chain is one application. -/
theorem binaryChain_nil (hinner : Sound n inner) (fuel : Nat)
    (h : f.rest.length = 0) :
    binaryChain inner fuel f = application inner f := by
  cases fuel with
  | zero => rfl
  | succ fuel =>
      obtain ⟨halt, f', hrun⟩ := application_nil hinner h
      rw [binaryChain_succ, bind_of_error hrun, hrun]

/-- To advance leaves no more tokens than there were. -/
theorem length_advance_le (f : Feed) :
    f.advance.rest.length ≤ f.rest.length := by
  have hlength := congrArg List.length (Feed.lexemes_advance (f := f))
  rw [Feed.length_lexemes, List.length_tail, Feed.length_lexemes] at hlength
  omega

/-- No more operators can be taken than there are tokens. -/
theorem binaryChain_fuel (hinner : Sound n inner) : ∀ (fuel fuel' : Nat)
    (f : Feed), f.rest.length ≤ fuel → f.rest.length ≤ fuel' →
      binaryChain inner fuel f = binaryChain inner fuel' f := by
  intro fuel
  induction fuel with
  | zero =>
      intro fuel' f hf _
      rw [binaryChain_nil hinner _ (Nat.le_zero.1 hf),
        binaryChain_nil hinner _ (Nat.le_zero.1 hf)]
  | succ fuel ih =>
      intro fuel' f hf hf'
      cases fuel' with
      | zero =>
          rw [binaryChain_nil hinner _ (Nat.le_zero.1 hf'),
            binaryChain_nil hinner _ (Nat.le_zero.1 hf')]
      | succ fuel' =>
          rw [binaryChain_succ, binaryChain_succ]
          refine bind_congr fun left f₁ hrun => operations_congr left ?_
          have hlt := length_lt_of_parsed
            ((sound_application hinner f).of_ok hrun)
          have hle := length_advance_le f₁
          exact ih fuel' _ (by omega) (by omega)

/-- The chain of operands without its fuel. -/
theorem binary_eq (hinner : Sound n inner) :
    binary inner = application inner >>= operations (binary inner) := by
  funext f
  show binaryChain inner f.rest.length f = _
  rw [binaryChain_fuel hinner _ (f.rest.length + 1) f (Nat.le_refl _)
    (Nat.le_succ _), binaryChain_succ]
  refine bind_congr fun left f₁ hrun => operations_congr left ?_
  have hlt := length_lt_of_parsed ((sound_application hinner f).of_ok hrun)
  have hle := length_advance_le f₁
  exact binaryChain_fuel hinner _ _ _ (by omega) (Nat.le_refl _)

/-- Reading a chain of operands is local, by induction on what is left
to be read. -/
theorem localAt_binary (hsound : Sound n inner)
    (hinner : ∀ f, LocalAt inner f) : ∀ (length : Nat) (f : Feed),
      f.rest.length = length → LocalAt (binary inner) f := by
  intro length
  induction length using Nat.strongRecOn with
  | ind length ih =>
  intro f hlength
  rw [binary_eq hsound]
  refine (localAt_application hsound hinner f).bind fun left f₁ hrun => ?_
  have hlt := length_lt_of_parsed ((sound_application hsound f).of_ok hrun)
  have hle := length_advance_le f₁
  unfold operations
  refine localAt_current (fun t ht => by rw [ht]) ?_
  split
  · next op hop =>
    by_cases heq : op = "="
    · rw [if_pos heq]
      exact localAt_pure _ _
    · rw [if_neg heq]
      refine localAt_advance hop (by simp) ?_
      refine (ih _ (by omega) f₁.advance rfl).bind fun right f₂ _ => ?_
      exact localAt_pure _ _
  · exact localAt_pure _ _

-- ======================================================= expressions

/-- Reading the rest of a `let` is local. -/
theorem localAt_letTail (hinner : ∀ f, LocalAt inner f) (f : Feed) :
    LocalAt (letTail inner) f := by
  rw [letTail]
  refine (localAt_name f).bind fun x f₁ _ => ?_
  refine localAt_expect (.operator "=") rfl rfl fun _ => ?_
  refine (hinner _).bind fun value f₂ _ => ?_
  refine localAt_expect (.keyword "in") rfl rfl fun _ => ?_
  refine (hinner _).bind fun body f₃ _ => ?_
  exact localAt_pure _ _

/-- Reading the rest of a function is local. -/
theorem localAt_funTail (hinner : ∀ f, LocalAt inner f) (f : Feed) :
    LocalAt (funTail inner) f := by
  rw [funTail]
  refine (localAt_name f).bind fun x f₁ _ => ?_
  refine localAt_arrow fun _ _ => ?_
  refine (hinner _).bind fun body f₂ _ => ?_
  exact localAt_pure _ _

/-- Reading the rest of a conditional is local. -/
theorem localAt_ifTail (hinner : ∀ f, LocalAt inner f) (f : Feed) :
    LocalAt (ifTail inner) f := by
  rw [ifTail]
  refine (hinner f).bind fun cond f₁ _ => ?_
  refine localAt_expect (.keyword "then") rfl rfl fun _ => ?_
  refine (hinner _).bind fun yes f₂ _ => ?_
  refine localAt_expect (.keyword "else") rfl rfl fun _ => ?_
  refine (hinner _).bind fun no f₃ _ => ?_
  exact localAt_pure _ _

/-- Reading an expression is local, if it is so one level down. -/
theorem localAt_expressionWith (hsound : Sound n inner)
    (hinner : ∀ f, LocalAt inner f) (f : Feed) :
    LocalAt (expressionWith inner) f := by
  rw [expressionWith]
  refine localAt_accept (.keyword "let") rfl rfl (fun _ => ?_) fun _ => ?_
  · exact localAt_letTail hinner _
  refine localAt_accept (.keyword "fun") rfl rfl (fun _ => ?_) fun _ => ?_
  · exact localAt_funTail hinner _
  refine localAt_accept (.keyword "if") rfl rfl (fun _ => ?_) fun _ => ?_
  · exact localAt_ifTail hinner _
  exact localAt_binary hsound hinner _ f rfl

/-- Reading an expression is local under every limit. -/
theorem localAt_expression (limit : Nat) :
    ∀ f, LocalAt (expression limit) f := by
  induction limit with
  | zero => exact localAt_throw _
  | succ limit ih =>
      exact localAt_expressionWith (sound_expression limit) ih

/-- The whole parser looks one lexeme ahead. -/
theorem localAt_program (limit : Nat) (f : Feed) :
    LocalAt (program limit) f := by
  rw [program]
  refine (localAt_expression limit f).bind fun e f₁ _ => ?_
  refine localAt_current (fun t ht => by rw [ht]) ?_
  by_cases hend : f₁.current.lexeme = .endOfInput
  · rw [if_pos hend]
    exact localAt_pure _ _
  · rw [if_neg hend]
    exact localAt_fail _ _

end Parse

end InferTrace
