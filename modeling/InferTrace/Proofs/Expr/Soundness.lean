/-
What is parsed is a phrase of the grammar.

From any feed, each parser ends in one of three ways. It gives an
expression, and the lexemes that it has passed derive it (`Parsed`). It
fails at a token that does not fit. Or it gives up for want of depth,
and then some prefix of what was left opens an expression that far
inside (`Fails`).

The parts of an expression are parsed by the parser given for nested
expressions; what is known of that one, `Sound n`, is turned into the
same for the whole, one level further out (`sound_expression`).
-/
import InferTrace.Proofs.Expr.Feed

namespace InferTrace

variable {f f₁ f' : Feed} {w : List Lexeme} {p q : Phrase} {n : Nat}
  {halt : Halt}

-- ========================================================= outcomes

/-- The lexemes from `f` to `f'` form a phrase, and it is `e`. -/
def Parsed (p : Phrase) (f : Feed) (e : Expr) (f' : Feed) : Prop :=
  ∃ w, f.Takes w f' ∧ Derives p w e

/-- Some prefix of what is left opens an expression, the `n`-th from
the outside if one that begins here is the first. -/
def Feed.Opens (f : Feed) (n : Nat) : Prop :=
  ∃ pre rest, f.lexemes = pre ++ rest ∧ InferTrace.Opens rest n pre

/-- The same of the expressions inside a phrase that begins here. -/
def Feed.OpensIn (f : Feed) (p : Phrase) (n : Nat) : Prop :=
  ∃ mid pre rest, f.lexemes = mid ++ (pre ++ rest) ∧
    Leads (pre ++ rest) p mid ∧ InferTrace.Opens rest n pre

/-- A parser fails at a token that does not fit, or for want of depth
where nesting is `deep`. -/
def Fails (deep : Prop) (halt : Halt) (f' : Feed) : Prop :=
  (∃ expected, halt = unexpected expected f'.current) ∨
    (halt = .tooDeep ∧ deep)

theorem Fails.mono {deep deep' : Prop} (h : Fails deep halt f')
    (hdeep : deep → deep') : Fails deep' halt f' :=
  h.imp id fun hd => ⟨hd.1, hdeep hd.2⟩

/-- To miss a token is to fail at it. -/
theorem fails_unexpected {deep : Prop} {expected : String} :
    Fails deep (unexpected expected f'.current) f' :=
  Or.inl ⟨expected, rfl⟩

/-- An expression that is opened after a lead is opened in the
phrase. -/
theorem Feed.Takes.opensIn (h : f.Takes w f₁)
    (hlead : Leads f₁.lexemes p w) (hopens : f₁.Opens n) :
    f.OpensIn p n := by
  obtain ⟨pre, rest, hrest, hpre⟩ := hopens
  refine ⟨w, pre, rest, ?_, ?_, hpre⟩
  · rw [h.lexemes, hrest]
  · rw [← hrest]
    exact hlead

/-- What is opened in a part is opened in the phrase, if what stands
before the part leads on to it. -/
theorem Feed.Takes.opensIn_of (h : f.Takes w f₁)
    (hlead : ∀ rest mid, Leads rest q mid → Leads rest p (w ++ mid))
    (hopens : f₁.OpensIn q n) : f.OpensIn p n := by
  obtain ⟨mid, pre, rest, hrest, hmid, hpre⟩ := hopens
  refine ⟨w ++ mid, pre, rest, ?_, hlead _ mid hmid, hpre⟩
  rw [h.lexemes, hrest, List.append_assoc]

namespace Parse

/-- A parser of nested expressions: what it gives is an expression, and
it gives up only at one that is the `n`-th from where it starts. -/
def Sound (n : Nat) (inner : Parse Expr) : Prop :=
  ∀ f, Ends inner f (Parsed .expr f) (Fails (f.Opens n))

variable {inner : Parse Expr}

-- ============================================================ atoms

/-- The rest of a list derives what it is parsed as. -/
theorem sound_listTail (hinner : Sound n inner)
    (h : f.Takes [.punctuation "["] f₁) :
    Ends (listTail inner) f₁ (Parsed .atom f)
      (Fails (f.OpensIn .atom n)) := by
  rw [listTail]
  refine ends_accept (.punctuation "]") rfl rfl (fun hnil => ?_) fun hne => ?_
  · exact ⟨_, h.trans (Feed.takes_advance hnil nofun), .nil⟩
  have hhead : f₁.lexemes.head? ≠ some (.punctuation "]") := by
    intro hc
    rw [Feed.current_lexeme, hc] at hne
    exact hne rfl
  rw [ends_bind]
  refine (hinner f₁).mono ?_ fun _ _ hf => hf.mono (h.opensIn (.head hhead))
  rintro head f₂ ⟨w, hw, hhead⟩
  refine ends_accept (.punctuation ",") rfl rfl (fun hcomma => ?_) fun _ => ?_
  · have h₃ := Feed.takes_advance hcomma nofun
    rw [ends_bind]
    refine (hinner _).mono ?_ fun _ _ hf =>
      hf.mono ((h.trans (hw.trans h₃)).opensIn (.second hhead))
    rintro second f₄ ⟨w', hw', hsecond⟩
    rw [ends_bind]
    refine ends_expect (.punctuation "]") rfl rfl (fun hclose => ?_)
      fails_unexpected
    have h₅ := Feed.takes_advance hclose nofun
    exact ⟨_, h.trans (hw.trans (h₃.trans (hw'.trans h₅))),
      .pair hhead hsecond⟩
  · rw [ends_bind]
    refine ends_expect (.punctuation "]") rfl rfl (fun hclose => ?_)
      fails_unexpected
    exact ⟨_, h.trans (hw.trans (Feed.takes_advance hclose nofun)),
      .single hhead⟩

/-- An atom derives what it is parsed as. -/
theorem sound_atom (hinner : Sound n inner) (f : Feed) :
    Ends (atom inner) f (Parsed .atom f) (Fails (f.OpensIn .atom n)) := by
  rw [atom, ends_bind, ends_current]
  split
  · next k hc => exact ⟨_, Feed.takes_advance hc nofun, .number⟩
  · next b hc => exact ⟨_, Feed.takes_advance hc nofun, .boolean⟩
  · next x hc => exact ⟨_, Feed.takes_advance hc nofun, .identifier⟩
  · refine ends_accept (.punctuation "(") rfl rfl (fun hparen => ?_) fun _ => ?_
    · have h₁ := Feed.takes_advance hparen nofun
      rw [ends_bind]
      refine (hinner _).mono ?_ fun _ _ hf => hf.mono (h₁.opensIn .parens)
      rintro e f₂ ⟨w, hw, he⟩
      rw [ends_bind]
      refine ends_expect (.punctuation ")") rfl rfl (fun hclose => ?_)
        fails_unexpected
      exact ⟨_, h₁.trans (hw.trans (Feed.takes_advance hclose nofun)),
        .parens he⟩
    · refine ends_accept (.punctuation "[") rfl rfl (fun hbracket => ?_)
        fun _ => fails_unexpected
      exact sound_listTail hinner (Feed.takes_advance hbracket nofun)

-- ===================================== applications and operators

/-- The loop over the arguments makes an application longer. -/
theorem sound_arguments (hinner : Sound n inner) : ∀ (fuel : Nat)
    (func : Expr) (f₁ : Feed) (w : List Lexeme), f.Takes w f₁ →
      Derives .app w func →
        Ends (arguments inner fuel func) f₁ (Parsed .app f)
          (Fails (f.OpensIn .app n)) := by
  intro fuel
  induction fuel with
  | zero => exact fun func f₁ w h hfunc => ⟨w, h, hfunc⟩
  | succ fuel ih =>
      intro func f₁ w h hfunc
      rw [arguments, ends_bind, ends_get]
      by_cases hstart : f₁.startsAtom = true
      · rw [if_pos hstart, ends_bind]
        refine (sound_atom hinner f₁).mono ?_ fun _ _ hf =>
          hf.mono (h.opensIn_of fun _ _ hmid => .app hfunc hmid)
        rintro arg f₂ ⟨w', hw', harg⟩
        exact ih _ _ _ (h.trans hw') (.app hfunc harg)
      · rw [if_neg hstart]
        exact ⟨w, h, hfunc⟩

/-- An application derives what it is parsed as. -/
theorem sound_application (hinner : Sound n inner) (f : Feed) :
    Ends (application inner) f (Parsed .app f) (Fails (f.OpensIn .app n)) := by
  rw [application, ends_bind]
  refine (sound_atom hinner f).mono ?_ fun _ _ hf =>
    hf.mono ((Feed.Takes.refl f).opensIn_of fun _ _ hmid => .atom hmid)
  rintro func f₁ ⟨w, hw, hfunc⟩
  rw [ends_bind, ends_get]
  exact sound_arguments hinner _ _ _ _ hw (.atom hfunc)

/-- A chain of operands derives what it is parsed as; by induction on
its fuel. -/
theorem sound_binaryChain (hinner : Sound n inner) : ∀ (fuel : Nat)
    (f : Feed), Ends (binaryChain inner fuel) f (Parsed .binary f)
      (Fails (f.OpensIn .binary n)) := by
  intro fuel
  induction fuel with
  | zero =>
      intro f
      refine (sound_application hinner f).mono ?_ fun _ _ hf =>
        hf.mono ((Feed.Takes.refl f).opensIn_of fun _ _ hmid => .operand hmid)
      exact fun e f' ⟨w, hw, he⟩ => ⟨w, hw, .operand he⟩
  | succ fuel ih =>
      intro f
      rw [binaryChain, ends_bind]
      refine (sound_application hinner f).mono ?_ fun _ _ hf =>
        hf.mono ((Feed.Takes.refl f).opensIn_of fun _ _ hmid => .operand hmid)
      rintro left f₁ ⟨w, hw, hleft⟩
      rw [ends_bind, ends_current]
      split
      · next op hop =>
        by_cases heq : op = "="
        · rw [if_pos heq]
          exact ⟨w, hw, .operand hleft⟩
        · have h₂ := Feed.takes_advance hop nofun
          rw [if_neg heq, ends_bind, ends_advance, ends_bind]
          refine (ih _).mono ?_ fun _ _ hf =>
            hf.mono ((hw.trans h₂).opensIn_of ?_)
          · rintro right f₃ ⟨w', hw', hright⟩
            exact ⟨_, hw.trans (h₂.trans hw'), .operation heq hleft hright⟩
          · intro rest mid hmid
            rw [List.append_assoc]
            exact .operation heq hleft hmid
      · exact ⟨w, hw, .operand hleft⟩

theorem sound_binary (hinner : Sound n inner) (f : Feed) :
    Ends (binary inner) f (Parsed .expr f) (Fails (f.OpensIn .expr n)) := by
  rw [binary, ends_bind, ends_get]
  refine (sound_binaryChain hinner _ f).mono ?_ fun _ _ hf =>
    hf.mono ((Feed.Takes.refl f).opensIn_of fun _ _ hmid => .binary hmid)
  exact fun e f' ⟨w, hw, he⟩ => ⟨w, hw, .binary he⟩

-- ====================================================== expressions

/-- A `let` derives what it is parsed as. -/
theorem sound_letTail (hinner : Sound n inner)
    (h : f.Takes [.keyword "let"] f₁) :
    Ends (letTail inner) f₁ (Parsed .expr f) (Fails (f.OpensIn .expr n)) := by
  rw [letTail, ends_bind]
  refine ends_name (fun x hx => ?_) fails_unexpected
  have h₂ := Feed.takes_advance hx nofun
  rw [ends_bind]
  refine ends_expect (.operator "=") rfl rfl (fun heq => ?_) fails_unexpected
  have h₃ := Feed.takes_advance heq nofun
  rw [ends_bind]
  refine (hinner _).mono ?_ fun _ _ hf =>
    hf.mono ((h.trans (h₂.trans h₃)).opensIn .value)
  rintro value f₄ ⟨v, hv, hvalue⟩
  rw [ends_bind]
  refine ends_expect (.keyword "in") rfl rfl (fun hin => ?_) fails_unexpected
  have h₅ := Feed.takes_advance hin nofun
  rw [ends_bind]
  refine (hinner _).mono ?_ fun _ _ hf => hf.mono
    ((h.trans (h₂.trans (h₃.trans (hv.trans h₅)))).opensIn (.body hvalue))
  rintro body f₆ ⟨b, hb, hbody⟩
  exact ⟨_, h.trans (h₂.trans (h₃.trans (hv.trans (h₅.trans hb)))),
    .letIn hvalue hbody⟩

/-- So does a function. -/
theorem sound_funTail (hinner : Sound n inner)
    (h : f.Takes [.keyword "fun"] f₁) :
    Ends (funTail inner) f₁ (Parsed .expr f) (Fails (f.OpensIn .expr n)) := by
  rw [funTail, ends_bind]
  refine ends_name (fun x hx => ?_) fails_unexpected
  have h₂ := Feed.takes_advance hx nofun
  rw [ends_bind]
  refine ends_arrow (fun s hs => ?_) fails_unexpected
  have h₃ := h.trans (h₂.trans (Feed.takes_advance hs nofun))
  rw [ends_bind]
  refine (hinner _).mono ?_ fun _ _ hf => hf.mono (h₃.opensIn .lambda)
  rintro body f₄ ⟨b, hb, hbody⟩
  exact ⟨_, h₃.trans hb, .lambda hbody⟩

/-- And so does a conditional. -/
theorem sound_ifTail (hinner : Sound n inner)
    (h : f.Takes [.keyword "if"] f₁) :
    Ends (ifTail inner) f₁ (Parsed .expr f) (Fails (f.OpensIn .expr n)) := by
  rw [ifTail, ends_bind]
  refine (hinner f₁).mono ?_ fun _ _ hf => hf.mono (h.opensIn .cond)
  rintro cond f₂ ⟨c, hc, hcond⟩
  rw [ends_bind]
  refine ends_expect (.keyword "then") rfl rfl (fun hthen => ?_) fails_unexpected
  have h₃ := Feed.takes_advance hthen nofun
  rw [ends_bind]
  refine (hinner _).mono ?_ fun _ _ hf =>
    hf.mono ((h.trans (hc.trans h₃)).opensIn (.yes hcond))
  rintro yes f₄ ⟨y, hy, hyes⟩
  rw [ends_bind]
  refine ends_expect (.keyword "else") rfl rfl (fun helse => ?_) fails_unexpected
  have h₅ := Feed.takes_advance helse nofun
  rw [ends_bind]
  refine (hinner _).mono ?_ fun _ _ hf => hf.mono
    ((h.trans (hc.trans (h₃.trans (hy.trans h₅)))).opensIn (.no hcond hyes))
  rintro no f₆ ⟨n, hn, hno⟩
  exact ⟨_, h.trans (hc.trans (h₃.trans (hy.trans (h₅.trans hn)))),
    .ite hcond hyes hno⟩

/-- An expression derives what it is parsed as, if it is so one level
down. -/
theorem sound_expressionWith (hinner : Sound n inner) (f : Feed) :
    Ends (expressionWith inner) f (Parsed .expr f)
      (Fails (f.OpensIn .expr n)) := by
  rw [expressionWith]
  refine ends_accept (.keyword "let") rfl rfl (fun hlet => ?_) fun _ => ?_
  · exact sound_letTail hinner (Feed.takes_advance hlet nofun)
  refine ends_accept (.keyword "fun") rfl rfl (fun hfun => ?_) fun _ => ?_
  · exact sound_funTail hinner (Feed.takes_advance hfun nofun)
  refine ends_accept (.keyword "if") rfl rfl (fun hif => ?_) fun _ => ?_
  · exact sound_ifTail hinner (Feed.takes_advance hif nofun)
  exact sound_binary hinner f

/-- The parser with a limit gives up at an expression one beyond the
limit. -/
theorem sound_expression (limit : Nat) :
    Sound (limit + 1) (expression limit) := by
  induction limit with
  | zero => exact fun f => Or.inr ⟨rfl, [], f.lexemes, rfl, .program⟩
  | succ limit ih =>
      intro f
      refine (sound_expressionWith ih f).mono (fun _ _ hd => hd) fun _ _ hf =>
        hf.mono ?_
      rintro ⟨mid, pre, rest, hrest, hmid, hpre⟩
      refine ⟨mid ++ pre, rest, ?_, .inside hmid hpre⟩
      rw [hrest, List.append_assoc]

end Parse

end InferTrace
