/-
Reading tokens one by one: what the parser's primitives do to a feed.

The parser is walked through in two ways, and each has its own form of
the rules here. Where it is not known what comes next, a test for a
token splits in two (`ends_accept`, `ends_expect`, `ends_name`): the
token is there and is taken (`Feed.takes_advance`), or it is not. Where
the lexemes ahead are known, the token is there, and only what is left
matters (`takes_accepted` and its companions).
-/
import InferTrace.Expr.Parser
import InferTrace.Proofs.Ends
import InferTrace.Proofs.Expr.Grammar

namespace InferTrace

variable {f f₁ f' : Feed} {l : Lexeme} {w w' : List Lexeme}

-- ============================================================ feeds

namespace Feed

/-- The lexemes that are left. -/
def lexemes (f : Feed) : List Lexeme := f.rest.map Token.lexeme

theorem length_lexemes : f.lexemes.length = f.rest.length :=
  List.length_map _

/-- The next token is the first lexeme, or else the end of input. -/
theorem current_lexeme :
    f.current.lexeme = f.lexemes.head?.getD .endOfInput := by
  unfold current lexemes
  cases f.rest with
  | nil => rfl
  | cons t rest => rfl

/-- To advance drops the first lexeme. -/
theorem lexemes_advance : f.advance.lexemes = f.lexemes.tail := by
  unfold advance lexemes
  cases hf : f.rest with
  | nil =>
      rw [hf]
      rfl
  | cons t rest => rfl

/-- From `f` to `f'` the tokens of these lexemes are passed. -/
structure Takes (f : Feed) (w : List Lexeme) (f' : Feed) : Prop where
  stop : f'.stop = f.stop
  rest : ∃ taken, taken.map Token.lexeme = w ∧ f.rest = taken ++ f'.rest

theorem Takes.refl (f : Feed) : f.Takes [] f := ⟨rfl, [], rfl, rfl⟩

theorem Takes.trans (h : f.Takes w f₁) (h' : f₁.Takes w' f') :
    f.Takes (w ++ w') f' := by
  obtain ⟨taken, hw, hrest⟩ := h.rest
  obtain ⟨taken', hw', hrest'⟩ := h'.rest
  refine ⟨h'.stop.trans h.stop, taken ++ taken', ?_, ?_⟩
  · rw [List.map_append, hw, hw']
  · rw [hrest, hrest', List.append_assoc]

/-- What is taken stands in front of what is left. -/
theorem Takes.lexemes (h : f.Takes w f') : f.lexemes = w ++ f'.lexemes := by
  obtain ⟨taken, hw, hrest⟩ := h.rest
  unfold Feed.lexemes
  rw [hrest, List.map_append, hw]

/-- To advance is to take the next lexeme, unless it is the end. -/
theorem takes_advance (h : f.current.lexeme = l) (hl : l ≠ .endOfInput) :
    f.Takes [l] f.advance := by
  unfold current at h
  unfold advance
  cases hf : f.rest with
  | nil =>
      rw [hf] at h
      exact absurd h.symm hl
  | cons t rest =>
      rw [hf] at h
      exact ⟨rfl, [t], congrArg (fun l => [l]) h, hf⟩

-- =========================================================== checks

/-- A check for a word or symbol is a check for its lexeme. -/
theorem check_iff (cls : Lexeme.Class) {s : String} (hcls : l.cls = cls)
    (hl : l.word? = some s) :
    f.check cls (some s) = true ↔ f.current.lexeme = l := by
  subst hcls
  unfold check
  simp only [Option.all_some, Lexeme.hasValue, Bool.and_eq_true, beq_iff_eq]
  constructor
  · rintro ⟨hcls, hword⟩
    generalize f.current.lexeme = l' at hcls hword
    cases l <;> cases l' <;> simp_all [Lexeme.cls, Lexeme.word?]
  · rintro rfl
    exact ⟨rfl, hl⟩

/-- A check of the class looks at the next token. -/
theorem check_class_iff {cls : Lexeme.Class} :
    f.check cls = true ↔ f.current.lexeme.cls = cls := by
  simp [check]

/-- The test for an atom is the one on lexemes. -/
theorem startsAtom_iff :
    f.startsAtom = true ↔ f.current.lexeme.StartsAtom := by
  have hparen := check_iff (f := f) .punctuation (l := .punctuation "(") rfl rfl
  have hbracket := check_iff (f := f) .punctuation (l := .punctuation "[") rfl rfl
  unfold startsAtom Lexeme.StartsAtom
  cases hc : f.current.lexeme <;> simp_all

end Feed

-- ========================================================== readers

/-- A token that is out of place does not end the levels. -/
theorem unexpected_ne_tooDeep (expected : String) (t : Token) :
    unexpected expected t ≠ .tooDeep := by
  unfold unexpected
  cases t.text? with
  | none | some => simp

/-- The report of a token that is out of place: what is expected and what
is found there. -/
theorem eq_of_unexpected {expected : String} {t : Token} {fault : Fault}
    (h : unexpected expected t = .fault fault) :
    ∃ found, fault = { cause := .unexpectedToken expected found
                       location := some t.location } := by
  unfold unexpected at h
  cases htext : t.text? with
  | none =>
      rw [htext] at h
      cases h
  | some text =>
      rw [htext] at h
      cases h
      exact ⟨_, rfl⟩

namespace Parse

variable {α : Type} {done : α → Feed → Prop} {halted : Halt → Feed → Prop}
  {cls : Lexeme.Class} {s : String}

theorem ends_current {done : Token → Feed → Prop} :
    Ends current f done halted ↔ done f.current f := Iff.rfl

theorem ends_advance {done : Token → Feed → Prop} :
    Ends advance f done halted ↔ done f.current f.advance := Iff.rfl

/-- The next token decides between two ways on. -/
theorem ends_accept {x y : Parse α} (l : Lexeme) (hcls : l.cls = cls)
    (hl : l.word? = some s)
    (hx : f.current.lexeme = l → Ends x f.advance done halted)
    (hy : f.current.lexeme ≠ l → Ends y f done halted) :
    Ends (do if (← accept cls (some s)).isSome then x else y) f done halted := by
  rw [ends_bind, accept, ends_bind, ends_get]
  by_cases h : f.current.lexeme = l
  · rw [if_pos ((Feed.check_iff cls hcls hl).2 h)]
    exact hx h
  · rw [if_neg (mt (Feed.check_iff cls hcls hl).1 h)]
    exact hy h

/-- The next token is the one asked for, or the parser fails at it. -/
theorem ends_expect {done : Token → Feed → Prop} (l : Lexeme)
    (hcls : l.cls = cls) (hl : l.word? = some s)
    (hdone : f.current.lexeme = l → done f.current f.advance)
    (hhalted : halted (unexpected ("'" ++ s ++ "'") f.current) f) :
    Ends (expect cls (some s)) f done halted := by
  rw [expect, ends_bind, ends_get]
  by_cases h : f.current.lexeme = l
  · rw [if_pos ((Feed.check_iff cls hcls hl).2 h)]
    exact hdone h
  · rw [if_neg (mt (Feed.check_iff cls hcls hl).1 h)]
    exact hhalted

/-- The same where any token of a class will do. -/
theorem ends_expect_class {done : Token → Feed → Prop}
    (hdone : f.current.lexeme.cls = cls → done f.current f.advance)
    (hhalted : halted (unexpected cls.text f.current) f) :
    Ends (expect cls) f done halted := by
  rw [expect, ends_bind, ends_get]
  by_cases h : f.current.lexeme.cls = cls
  · rw [if_pos (Feed.check_class_iff.2 h)]
    exact hdone h
  · rw [if_neg (mt Feed.check_class_iff.1 h)]
    exact hhalted

/-- A name is read if one is next, and missed otherwise. -/
theorem ends_name {done : String → Feed → Prop}
    (hdone : ∀ x, f.current.lexeme = .identifier x → done x f.advance)
    (hhalted : halted (unexpected "IDENT" f.current) f) :
    Ends name f done halted := by
  rw [name, ends_bind]
  refine ends_expect_class (fun h => ?_) hhalted
  rw [ends_pure]
  cases hc : f.current.lexeme with
  | identifier x => exact hdone x hc
  | _ =>
      rw [hc] at h
      cases h

/-- So is an arrow. -/
theorem ends_arrow {done : Token → Feed → Prop}
    (hdone : ∀ s, f.current.lexeme = .arrow s → done f.current f.advance)
    (hhalted : halted (unexpected "ARROW" f.current) f) :
    Ends (expect .arrow) f done halted := by
  refine ends_expect_class (fun h => ?_) hhalted
  cases hc : f.current.lexeme with
  | arrow s => exact hdone s hc
  | _ =>
      rw [hc] at h
      cases h

-- ============================================= lexemes that are known

theorem current_eq (h : f.lexemes = l :: w) : f.current.lexeme = l := by
  rw [Feed.current_lexeme, h]
  rfl

theorem advance_eq (h : f.lexemes = l :: w) : f.advance.lexemes = w := by
  rw [Feed.lexemes_advance, h]
  rfl

/-- A word that is next is accepted. -/
theorem takes_accepted {x y : Parse α} (h : f.lexemes = l :: w)
    (hcls : l.cls = cls) (hl : l.word? = some s)
    (hx : ∀ f', f'.lexemes = w → Ends x f' done halted) :
    Ends (do if (← accept cls (some s)).isSome then x else y) f done halted :=
  ends_accept l hcls hl (fun _ => hx _ (advance_eq h))
    fun hne => absurd (current_eq h) hne

/-- A token that is asked for and is not there stays. -/
theorem passes_over {x y : Parse α} (l : Lexeme) (hcls : l.cls = cls)
    (hl : l.word? = some s) (h : f.current.lexeme ≠ l)
    (hy : Ends y f done halted) :
    Ends (do if (← accept cls (some s)).isSome then x else y) f done halted :=
  ends_accept l hcls hl (fun heq => absurd heq h) fun _ => hy

/-- A word that is expected, and next, is taken. -/
theorem takes_expected {done : Token → Feed → Prop} (h : f.lexemes = l :: w)
    (hcls : l.cls = cls) (hl : l.word? = some s)
    (hdone : ∀ t f', f'.lexemes = w → done t f') :
    Ends (expect cls (some s)) f done halted := by
  rw [expect, ends_bind, ends_get,
    if_pos ((Feed.check_iff cls hcls hl).2 (current_eq h))]
  exact hdone _ _ (advance_eq h)

/-- So is any token of a class that is expected. -/
theorem takes_class {done : Token → Feed → Prop} (h : f.lexemes = l :: w)
    (hcls : l.cls = cls)
    (hdone : ∀ t f', t.lexeme = l → f'.lexemes = w → done t f') :
    Ends (expect cls) f done halted := by
  have hcheck : f.check cls = true := by
    rw [Feed.check_class_iff, current_eq h]
    exact hcls
  rw [expect, ends_bind, ends_get, if_pos hcheck]
  exact hdone _ _ (current_eq h) (advance_eq h)

/-- And so is a name. -/
theorem takes_name {x : String} {done : String → Feed → Prop}
    (h : f.lexemes = .identifier x :: w)
    (hdone : ∀ f', f'.lexemes = w → done x f') :
    Ends name f done halted := by
  rw [name, ends_bind]
  refine takes_class h rfl fun t f' ht hf' => ?_
  rw [ends_pure, ht]
  exact hdone f' hf'

end Parse

end InferTrace
