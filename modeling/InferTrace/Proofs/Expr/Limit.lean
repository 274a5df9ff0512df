/-
The parser's limit on nesting withholds an answer and never changes it.

A parser that is given less room does what one with more room does, token
by token, until it gives up (`Curbs`). That is a relation between two
parsers, and every way to build a parser keeps it: of a sequence, the
first part gives up or comes to the same place in both, and then the
second part decides. So it goes from the parser of nested expressions,
which alone counts the levels, through each layer of the grammar
(`curbs_expression`).

Some limit is enough for a text, one that is above the number of its
tokens (`parseTokens_ne_tooDeep`). There is thus one answer, and a limit
either gives it or withholds it (`parseSource_curbed`).
-/
import InferTrace.Proofs.Expr.Source

namespace InferTrace

namespace Parse

variable {α β : Type} {x y : Parse α} {inner inner' : Parse Expr}

-- =========================================================== curbed

/-- On every feed `x` does what `y` does, or it gives up. -/
def Curbs (x y : Parse α) : Prop := ∀ f, GivesUp x f ∨ x f = y f

theorem Curbs.refl (x : Parse α) : Curbs x x := fun _ => Or.inr rfl

/-- Parsers that are curbed, one after the other, are curbed. -/
theorem Curbs.bind {k k' : α → Parse β} (h : Curbs x y)
    (hk : ∀ a, Curbs (k a) (k' a)) : Curbs (x >>= k) (y >>= k') := by
  intro f
  rcases h f with hup | heq
  · exact Or.inl hup.bind
  cases hx : x f with
  | ok a f' =>
      have hy := heq.symm.trans hx
      rcases hk a f' with hup | hsame
      · left
        unfold GivesUp
        rw [ends_bind]
        unfold Ends
        rw [hx]
        exact hup
      · right
        rw [bind_of_ok hx, bind_of_ok hy, hsame]
  | error halt f' =>
      right
      rw [bind_of_error hx, bind_of_error (heq.symm.trans hx)]

/-- Either way of a test may be curbed. -/
theorem Curbs.ite {c : Prop} [Decidable c] {x' y' : Parse α}
    (h : Curbs x y) (h' : Curbs x' y') :
    Curbs (if c then x else x') (if c then y else y') := by
  by_cases hc : c
  · rw [if_pos hc, if_pos hc]
    exact h
  · rw [if_neg hc, if_neg hc]
    exact h'

/-- The same first step, and then what is curbed. -/
theorem Curbs.after (x : Parse α) {k k' : α → Parse β}
    (hk : ∀ a, Curbs (k a) (k' a)) : Curbs (x >>= k) (x >>= k') :=
  (Curbs.refl x).bind hk

-- =========================================================== layers

/-- The rest of a list is curbed if expressions are. -/
theorem curbs_listTail (h : Curbs inner inner') :
    Curbs (listTail inner) (listTail inner') := by
  refine .after _ fun _ => .ite (.refl _) ?_
  refine h.bind fun head => .after _ fun _ => .ite ?_ (.refl _)
  exact h.bind fun second => .refl _

/-- So is an atom. -/
theorem curbs_atom (h : Curbs inner inner') :
    Curbs (atom inner) (atom inner') := by
  refine .after _ fun token => ?_
  cases token.lexeme with
  | number | boolean | identifier => exact .refl _
  | _ =>
      refine .after _ fun _ => .ite ?_ ?_
      · exact h.bind fun e => .refl _
      · exact .after _ fun _ => .ite (curbs_listTail h) (.refl _)

/-- So are the arguments of a function, round by round. -/
theorem curbs_arguments (h : Curbs inner inner') (fuel : Nat)
    (func : Expr) :
    Curbs (arguments inner fuel func) (arguments inner' fuel func) := by
  induction fuel generalizing func with
  | zero => exact .refl _
  | succ fuel ih =>
      refine .after _ fun _ => .ite ?_ (.refl _)
      exact (curbs_atom h).bind fun arg => ih (.app func arg)

theorem curbs_application (h : Curbs inner inner') :
    Curbs (application inner) (application inner') := by
  refine (curbs_atom h).bind fun func => .after _ fun f => ?_
  exact curbs_arguments h f.rest.length func

/-- So is a chain of operands, round by round. -/
theorem curbs_binaryChain (h : Curbs inner inner') (fuel : Nat) :
    Curbs (binaryChain inner fuel) (binaryChain inner' fuel) := by
  induction fuel with
  | zero => exact curbs_application h
  | succ fuel ih =>
      refine (curbs_application h).bind fun left => .after _ fun token => ?_
      cases token.lexeme with
      | operator op =>
          refine .ite (.refl _) ?_
          exact .after _ fun _ => ih.bind fun right => .refl _
      | _ => exact .refl _

theorem curbs_letTail (h : Curbs inner inner') :
    Curbs (letTail inner) (letTail inner') := by
  refine .after _ fun x => .after _ fun _ => h.bind fun value => ?_
  exact .after _ fun _ => h.bind fun body => .refl _

theorem curbs_funTail (h : Curbs inner inner') :
    Curbs (funTail inner) (funTail inner') := by
  refine .after _ fun x => .after _ fun _ => ?_
  exact h.bind fun body => .refl _

theorem curbs_ifTail (h : Curbs inner inner') :
    Curbs (ifTail inner) (ifTail inner') := by
  refine h.bind fun cond => .after _ fun _ => h.bind fun yes => ?_
  exact .after _ fun _ => h.bind fun no => .refl _

/-- So is an expression one level up. -/
theorem curbs_expressionWith (h : Curbs inner inner') :
    Curbs (expressionWith inner) (expressionWith inner') := by
  refine .after _ fun _ => .ite (curbs_letTail h) ?_
  refine .after _ fun _ => .ite (curbs_funTail h) ?_
  refine .after _ fun _ => .ite (curbs_ifTail h) ?_
  exact .after _ fun f => curbs_binaryChain h f.rest.length

/-- A lower limit curbs the parser. -/
theorem curbs_expression {limit limit' : Nat} (hle : limit ≤ limit') :
    Curbs (expression limit) (expression limit') := by
  induction limit generalizing limit' with
  | zero =>
      intro f
      left
      exact ends_throw.2 rfl
  | succ limit ih =>
      obtain ⟨m, rfl⟩ := Nat.exists_eq_add_one_of_ne_zero
        (Nat.ne_zero_of_lt hle)
      exact curbs_expressionWith (ih (Nat.le_of_succ_le_succ hle))

/-- And so is a program, under a lower limit. -/
theorem curbs_program {limit limit' : Nat} (hle : limit ≤ limit') :
    Curbs (program limit) (program limit') :=
  (curbs_expression hle).bind fun _ => .refl _

end Parse

-- ==================================================== whole sources

variable {limit limit' : Nat} {tokens : List Token}

/-- Under a lower limit the tokens are nested too deep, or they are
parsed as under the higher one. -/
theorem parseTokens_curbed (hle : limit ≤ limit') (tokens : List Token) :
    parseTokens limit tokens = .error .tooDeep ∨
      parseTokens limit tokens = parseTokens limit' tokens := by
  unfold parseTokens
  rcases Parse.curbs_program hle (Feed.ofTokens tokens) with hup | heq
  · left
    cases hrun : Parse.program limit (Feed.ofTokens tokens) with
    | ok e f => exact (hup.of_ok hrun).elim
    | error halt f => rw [hup.of_error hrun]
  · right
    rw [heq]

/-- With more levels than tokens nothing is nested too deep. -/
theorem parseTokens_ne_tooDeep (h : tokens.length < limit) :
    parseTokens limit tokens ≠ .error .tooDeep := by
  have hnested : NestedWithin limit
      (beforeEnd (tokens.map Token.lexeme)) := by
    apply nestedWithin_of_length_lt
    have hle : (beforeEnd (tokens.map Token.lexeme)).length
        ≤ (tokens.map Token.lexeme).length :=
      (List.takeWhile_prefix _).length_le
    rw [List.length_map] at hle
    omega
  intro hdeep
  rcases halt_of_parseTokens hdeep with
    ⟨expected, token, hunexpected, -⟩ | ⟨-, hnot⟩
  · exact absurd hunexpected.symm (unexpected_ne_tooDeep _ _)
  · exact hnot hnested

/-- Under a lower limit a source is nested too deep, or it is parsed as
under the higher one. -/
theorem parseSource_curbed (hle : limit ≤ limit') (mode : Mode)
    (source : String) :
    parseSource limit mode source = .error .tooDeep ∨
      parseSource limit mode source = parseSource limit' mode source := by
  unfold parseSource
  cases (scanSource mode source).result with
  | error fault => exact Or.inr rfl
  | ok tokens => exact parseTokens_curbed hle tokens

/-- A source is parsed in the same way under any two limits that it
keeps to. -/
theorem parseSource_eq_of_ne_tooDeep {mode : Mode} {source : String}
    (h : parseSource limit mode source ≠ .error .tooDeep)
    (h' : parseSource limit' mode source ≠ .error .tooDeep) :
    parseSource limit mode source = parseSource limit' mode source := by
  rcases Nat.le_total limit limit' with hle | hle
  · exact (parseSource_curbed hle mode source).resolve_left h
  · exact ((parseSource_curbed hle mode source).resolve_left h').symm

/-- Some limit is enough for the source. -/
theorem exists_parseSource_ne_tooDeep (mode : Mode) (source : String) :
    ∃ ample, ∀ limit, ample ≤ limit →
      parseSource limit mode source ≠ .error .tooDeep := by
  unfold parseSource
  cases (scanSource mode source).result with
  | error fault => exact ⟨0, by simp⟩
  | ok tokens =>
      exact ⟨tokens.length + 1, fun limit hle => parseTokens_ne_tooDeep hle⟩

end InferTrace
