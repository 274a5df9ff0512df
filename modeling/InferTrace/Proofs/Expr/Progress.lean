/-
Where the parser is, whatever is asked of it.

A parser may be used in any way: whole parses, single procedures also
where they do not apply, single tokens, checks, and calls that fail, in
any order and each with the depth that is left to it (`Feed.afterCalls`).
The tokens may hold ends of input anywhere. Through all of this the
place of the parser is one of a token, the last being the end of input
that closes the list (`withEnd`), and it never goes back.

Each procedure that gives an expression has passed a token. So there is
no use of it that goes on for ever: the rules without a limit give every
procedure one answer, from wherever it begins (`Layer.settled`). A limit
on nesting may withhold the answer, but not if it is higher than the
number of tokens that are left.
-/
import InferTrace.Proofs.Expr.Completeness
import InferTrace.Proofs.Expr.Plan

namespace InferTrace

variable {f f' : Feed} {n limit : Nat} {halt : Halt} {tokens : List Token}

-- ========================================================= the limit

/-- There is a lexeme for each level that is opened here. -/
theorem Feed.Opens.le_length (h : f.Opens n) : n ≤ f.rest.length + 1 := by
  obtain ⟨pre, rest, hlexemes, hopens⟩ := h
  have hle := hopens.le_length
  have hlength := congrArg List.length hlexemes
  rw [Feed.length_lexemes, List.length_append] at hlength
  omega

/-- Inside a phrase a lexeme stands before the first of them. -/
theorem Feed.OpensIn.le_length {p : Phrase} (h : f.OpensIn p n) :
    n ≤ f.rest.length := by
  obtain ⟨mid, pre, rest, hlexemes, hlead, hopens⟩ := h
  have hmid := List.length_pos_iff.2 hlead.ne_nil
  have hle := hopens.le_length
  have hlength := congrArg List.length hlexemes
  rw [Feed.length_lexemes, List.length_append, List.length_append] at hlength
  omega

theorem Fails.deep {deep : Prop} (h : Fails deep halt f')
    (hhalt : halt = .tooDeep) : deep := by
  rcases h with ⟨expected, heq⟩ | ⟨-, hdeep⟩
  · exact absurd (heq.symm.trans hhalt) (unexpected_ne_tooDeep _ _)
  · exact hdeep

/-- The feed with one more token in front. -/
def Feed.behind (l : Lexeme) (f : Feed) : Feed :=
  { f with rest := { lexeme := l, location := f.stop } :: f.rest }

/-- A lexeme that is put in front can be taken. -/
theorem Feed.takes_behind (l : Lexeme) (f : Feed) :
    (f.behind l).Takes [l] f :=
  ⟨rfl, [{ lexeme := l, location := f.stop }], rfl, rfl⟩

/-- A procedure gives up only if the tokens that are left are as many as
the levels it is allowed. -/
theorem Layer.limit_le (layer : Layer) (limit : Nat) (f : Feed) :
    Ends (layer.parse limit) f (fun _ _ => True)
      fun halt _ => halt = .tooDeep → limit ≤ f.rest.length := by
  have hsound := Parse.sound_expression limit
  -- the rest of a phrase is parsed as if its first token were still there
  have hbehind : ∀ {l p halt f'},
      Fails ((f.behind l).OpensIn p (limit + 1)) halt f' →
        halt = .tooDeep → limit ≤ f.rest.length := by
    intro l p halt f' hfails hhalt
    exact Nat.le_of_succ_le_succ (hfails.deep hhalt).le_length
  cases layer with
  | expression =>
      refine (hsound f).mono (fun _ _ _ => trivial) fun _ _ hfails hhalt => ?_
      exact Nat.le_of_succ_le_succ (hfails.deep hhalt).le_length
  | letTail =>
      exact (Parse.sound_letTail hsound (f.takes_behind _)).mono
        (fun _ _ _ => trivial) fun _ _ => hbehind
  | funTail =>
      exact (Parse.sound_funTail hsound (f.takes_behind _)).mono
        (fun _ _ _ => trivial) fun _ _ => hbehind
  | ifTail =>
      exact (Parse.sound_ifTail hsound (f.takes_behind _)).mono
        (fun _ _ _ => trivial) fun _ _ => hbehind
  | listTail =>
      exact (Parse.sound_listTail hsound (f.takes_behind _)).mono
        (fun _ _ _ => trivial) fun _ _ => hbehind
  | binary =>
      refine (Parse.sound_binary hsound f).mono (fun _ _ _ => trivial)
        fun _ _ hfails hhalt => ?_
      exact Nat.le_of_succ_le (hfails.deep hhalt).le_length
  | application =>
      refine (Parse.sound_application hsound f).mono (fun _ _ _ => trivial)
        fun _ _ hfails hhalt => ?_
      exact Nat.le_of_succ_le (hfails.deep hhalt).le_length
  | atom =>
      refine (Parse.sound_atom hsound f).mono (fun _ _ _ => trivial)
        fun _ _ hfails hhalt => ?_
      exact Nat.le_of_succ_le (hfails.deep hhalt).le_length

/-- Wherever a procedure begins, the rules without a limit give it one
answer. Under a limit it gives this answer, or gives up; then there are
as many tokens left as levels allowed. -/
theorem Layer.settled (layer : Layer) (f : Feed) :
    ∃ r, Runs False (Callee.layer layer).plan f r ∧
      (∀ r', Runs False (Callee.layer layer).plan f r' → r' = r) ∧
      ∀ limit, layer.parse limit f = r ∨
        Parse.GivesUp (layer.parse limit) f ∧ limit ≤ f.rest.length := by
  have hample : ∀ f', layer.parse (f.rest.length + 1) f
      ≠ .error .tooDeep f' := by
    intro f' heq
    have := (layer.limit_le _ f).of_error heq rfl
    omega
  have hruns := (layer.runs_parse _ f).unbounded hample
  refine ⟨_, hruns, fun r' h' => hruns.unique h', fun limit => ?_⟩
  by_cases hdeep : ∃ f', layer.parse limit f = .error .tooDeep f'
  · obtain ⟨f', heq⟩ := hdeep
    refine Or.inr ⟨?_, (layer.limit_le limit f).of_error heq rfl⟩
    unfold Parse.GivesUp Ends
    rw [heq]
  · refine Or.inl (hruns.unique ((layer.runs_parse limit f).unbounded ?_))
    exact fun f' heq => hdeep ⟨f', heq⟩

-- ======================================================== the tokens

/-- The tokens with an end of input at the end. If there is none it
stands where the last token does. -/
def withEnd (tokens : List Token) : List Token :=
  match tokens.getLast? with
  | none => [{ lexeme := .endOfInput, location := { line := 1, column := 1 } }]
  | some last =>
    if last.lexeme = .endOfInput then tokens
    else tokens ++ [{ lexeme := .endOfInput, location := last.location }]

namespace Feed

/-- The next token, and all behind it. -/
def ahead (f : Feed) : List Token :=
  f.rest ++ [{ lexeme := .endOfInput, location := f.stop }]

/-- At first all tokens lie ahead, and then the end of input. -/
theorem ahead_ofTokens (tokens : List Token) :
    (ofTokens tokens).ahead = withEnd tokens := by
  rcases List.eq_nil_or_concat tokens with rfl | ⟨init, last, rfl⟩
  · rfl
  · unfold ofTokens withEnd ahead
    rw [List.concat_eq_append, List.getLast?_concat]
    by_cases hlast : last.lexeme = .endOfInput
    · simp only [if_pos hlast, List.dropLast_concat]
      rw [← hlast]
    · simp only [if_neg hlast]

theorem ahead_head? (f : Feed) : f.ahead.head? = some f.current := by
  unfold ahead current
  cases f.rest with
  | nil => rfl
  | cons t rest => rfl

/-- What is passed no longer lies ahead. -/
theorem Passes.ahead (h : f.Passes n f') : f'.ahead = f.ahead.drop n := by
  unfold Feed.ahead
  rw [h.rest, h.stop, List.drop_append_of_le_length h.le]

/-- The feed is one of the tokens, at the place that it counts. -/
structure IsOf (f : Feed) (tokens : List Token) : Prop where
  length : f.pos + f.rest.length + 1 = (withEnd tokens).length
  ahead : f.ahead = (withEnd tokens).drop f.pos

theorem isOf_ofTokens (tokens : List Token) :
    (ofTokens tokens).IsOf tokens := by
  have hpos : (ofTokens tokens).pos = 0 := by
    unfold ofTokens
    split
    · rfl
    · split <;> rfl
  refine ⟨?_, ?_⟩
  · rw [← ahead_ofTokens, hpos, Nat.zero_add, Feed.ahead, List.length_append]
    rfl
  · rw [hpos, List.drop_zero, ahead_ofTokens]

/-- A feed of some tokens stays one when tokens are passed. -/
theorem IsOf.passes (h : f.IsOf tokens) (hn : f.Passes n f') :
    f'.IsOf tokens := by
  refine ⟨?_, ?_⟩
  · have := hn.length
    rw [← h.length, hn.pos]
    omega
  · rw [hn.ahead, h.ahead, hn.pos, List.drop_drop]

/-- The next token is the one at the place of the feed. -/
theorem IsOf.getElem?_pos (h : f.IsOf tokens) :
    (withEnd tokens)[f.pos]? = some f.current := by
  rw [← List.head?_drop, ← h.ahead, ahead_head?]

end Feed

-- ========================================================= the calls

namespace Parse

/-- One use of a parser. -/
inductive Call where
  | current
  | peek
  | advance
  | check (cls : Lexeme.Class) (value : Option Lexeme.Value)
  | accept (cls : Lexeme.Class) (value : Option Lexeme.Value)
  | expect (cls : Lexeme.Class) (value : Option Lexeme.Value)
  | startsAtom
  | fail (expected : String)
  | program
  | layer (layer : Layer)

/-- What a call answers. -/
inductive Answer where
  | token (token : Token)
  | found (token : Option Token)
  | cls (cls : Lexeme.Class)
  | flag (flag : Bool)
  | expr (e : Expr)

/-- Make the call, with a limit on nesting. -/
def Call.action (limit : Nat) : Call → Parse Answer
  | current => return .token (← Parse.current)
  | peek => return .cls (← Parse.current).lexeme.cls
  | advance => return .token (← Parse.advance)
  | check cls value => return .flag ((← get).check cls value)
  | accept cls value => return .found (← Parse.accept cls value)
  | expect cls value => return .token (← Parse.expect cls value)
  | startsAtom => return .flag (← get).startsAtom
  | fail expected => Parse.fail expected
  | program => return .expr (← Parse.program limit)
  | layer l => return .expr (← l.parse limit)

end Parse

/-- The feed that a parser leaves, whether it gives something or
halts. -/
def feedLeft {α : Type} : EStateM.Result Halt Feed α → Feed
  | .ok _ f | .error _ f => f

/-- The feed of the tokens after some calls, each with its limit. -/
def Feed.afterCalls (tokens : List Token) (calls : List (Nat × Parse.Call)) :
    Feed :=
  calls.foldl (fun f call => feedLeft (call.2.action call.1 f))
    (ofTokens tokens)

/-- What has moved has passed some tokens, whatever came of it. -/
theorem Moved.passes {α : Type} {gains : Prop}
    {r : EStateM.Result Halt Feed α} (h : Moved f gains r) :
    ∃ n, f.Passes n (feedLeft r) := by
  cases r with
  | ok a f' =>
      obtain ⟨n, hn, -⟩ := h
      exact ⟨n, hn⟩
  | error halt f' => exact h

namespace Parse

variable {α β : Type} {x y : Parse α}

/-- However it ends, the parser has passed tokens and gone back over
none. -/
def Forward (x : Parse α) : Prop :=
  ∀ f : Feed, ∃ n, f.Passes n (feedLeft (x f))

/-- Parsers that only go forward, one after the other, only go forward.
-/
theorem Forward.bind {k : α → Parse β} (hx : Forward x)
    (hk : ∀ a, Forward (k a)) : Forward (x >>= k) := by
  intro f
  obtain ⟨n, hn⟩ := hx f
  cases hrun : x f with
  | ok a f₁ =>
      rw [hrun] at hn
      obtain ⟨m, hm⟩ := hk a f₁
      rw [bind_of_ok hrun]
      exact ⟨n + m, hn.trans hm⟩
  | error halt f₁ =>
      rw [hrun] at hn
      rw [bind_of_error hrun]
      exact ⟨n, hn⟩

/-- Neither way of a test goes back. -/
theorem Forward.ite {c : Prop} [Decidable c] (hx : Forward x)
    (hy : Forward y) : Forward (if c then x else y) := by
  split
  · exact hx
  · exact hy

theorem forward_pure (a : α) : Forward (pure a) := fun f => ⟨0, .refl f⟩

theorem forward_get : Forward (get : Parse Feed) := fun f => ⟨0, .refl f⟩

theorem forward_current : Forward current := fun f => ⟨0, .refl f⟩

theorem forward_throw (halt : Halt) : Forward (throw halt : Parse α) :=
  fun f => ⟨0, .refl f⟩

theorem forward_fail (expected : String) : Forward (fail expected : Parse α) :=
  fun f => ⟨0, .refl f⟩

/-- To advance passes a token, or none at the end of input. -/
theorem forward_advance : Forward advance := by
  intro f
  show ∃ n, f.Passes n f.advance
  by_cases hnil : f.rest = []
  · refine ⟨0, ?_⟩
    unfold Feed.advance
    rw [hnil]
    exact .refl f
  · exact ⟨1, Feed.passes_advance hnil⟩

/-- No layer of the grammar goes back. -/
theorem forward_layer (layer : Layer) (limit : Nat) :
    Forward (layer.parse limit) :=
  fun f => ((layer.runs_parse limit f).moved (Callee.wary_plan _)).passes

/-- No call goes back. -/
theorem Call.forward_action (call : Call) (limit : Nat) :
    Forward (call.action limit) := by
  cases call with
  | current | peek => exact forward_current.bind fun _ => forward_pure _
  | advance => exact forward_advance.bind fun _ => forward_pure _
  | check cls value => exact forward_get.bind fun _ => forward_pure _
  | startsAtom => exact forward_get.bind fun _ => forward_pure _
  | fail expected => exact forward_fail expected
  | accept cls value =>
      refine Forward.bind ?_ fun _ => forward_pure _
      refine forward_get.bind fun f => .ite ?_ (forward_pure _)
      exact forward_advance.bind fun _ => forward_pure _
  | expect cls value =>
      refine Forward.bind ?_ fun _ => forward_pure _
      refine forward_get.bind fun f => .ite forward_advance ?_
      cases value with
      | none => exact forward_fail _
      | some v =>
          cases htext : v.text? with
          | none => simpa [htext] using forward_throw _
          | some text => simpa [htext] using forward_fail _
  | program =>
      refine Forward.bind ?_ fun _ => forward_pure _
      refine (forward_layer .expression limit).bind fun e => ?_
      exact forward_current.bind fun _ => .ite (forward_pure _) (forward_fail _)
  | layer layer =>
      exact (forward_layer layer limit).bind fun _ => forward_pure _

end Parse

-- ============================================================== runs

namespace Feed

/-- Calls lead from a place of the tokens to a place of them. -/
theorem IsOf.calls (h : f.IsOf tokens) (calls : List (Nat × Parse.Call)) :
    (calls.foldl (fun f call => feedLeft (call.2.action call.1 f)) f).IsOf
      tokens := by
  induction calls generalizing f with
  | nil => exact h
  | cons call calls ih =>
      obtain ⟨n, hn⟩ := call.2.forward_action call.1 f
      exact ih (h.passes hn)

/-- After any calls there is a feed of the tokens that it was made of.
-/
theorem isOf_afterCalls (tokens : List Token)
    (calls : List (Nat × Parse.Call)) : (afterCalls tokens calls).IsOf tokens :=
  (isOf_ofTokens tokens).calls calls

/-- One call more does not go back. -/
theorem pos_afterCalls_le (tokens : List Token)
    (calls : List (Nat × Parse.Call)) (call : Nat × Parse.Call) :
    (afterCalls tokens calls).pos
      ≤ (afterCalls tokens (calls ++ [call])).pos := by
  obtain ⟨n, hn⟩ := call.2.forward_action call.1 (afterCalls tokens calls)
  have hpos := hn.pos
  unfold afterCalls at hpos ⊢
  rw [List.foldl_append]
  show _ ≤ (feedLeft (call.2.action call.1 _)).pos
  omega

end Feed

/-- A procedure that gives an expression is further on, and one that
halts is not further back. -/
theorem Layer.pos_lt (layer : Layer) (limit : Nat) (f : Feed) :
    Ends (layer.parse limit) f (fun _ f' => f.pos < f'.pos)
      fun _ f' => f.pos ≤ f'.pos := by
  have hruns := layer.runs_parse limit f
  unfold Ends
  cases hrun : layer.parse limit f with
  | ok e f' =>
      rw [hrun] at hruns
      obtain ⟨n, hpos, hn⟩ := hruns.exists_passes
      show f.pos < f'.pos
      rw [hn.pos]
      omega
  | error halt f' =>
      rw [hrun] at hruns
      obtain ⟨n, hn⟩ := hruns.moved (Callee.wary_plan _)
      show f.pos ≤ f'.pos
      rw [hn.pos]
      omega

/-- However a parser has been used, its next token is the one at its
place in the tokens, of which the last is the end of input, and no
further call takes it back. Wherever a procedure begins, it passes a
token if it gives an expression. And it comes to an end: the rules,
which have no limit and no fuel, give it one answer. Under a limit it
gives that answer, or gives up, where as many tokens are left as levels
allowed. -/
theorem afterCalls_progresses (tokens : List Token)
    (calls : List (Nat × Parse.Call)) :
    (withEnd tokens).getLast?.map (·.lexeme) = some .endOfInput ∧
      (Feed.afterCalls tokens calls).pos < (withEnd tokens).length ∧
      (withEnd tokens)[(Feed.afterCalls tokens calls).pos]?
        = some (Feed.afterCalls tokens calls).current ∧
      (∀ call, (Feed.afterCalls tokens calls).pos
        ≤ (Feed.afterCalls tokens (calls ++ [call])).pos) ∧
      ∀ (layer : Layer) (f : Feed),
        (∀ limit, Ends (layer.parse limit) f (fun _ f' => f.pos < f'.pos)
          fun _ f' => f.pos ≤ f'.pos) ∧
        ∃ r, Runs False (Callee.layer layer).plan f r ∧
          (∀ r', Runs False (Callee.layer layer).plan f r' → r' = r) ∧
          ∀ limit, layer.parse limit f = r ∨
            Parse.GivesUp (layer.parse limit) f ∧ limit ≤ f.rest.length := by
  have hplace := Feed.isOf_afterCalls tokens calls
  refine ⟨?_, ?_, hplace.getElem?_pos, ?_, fun layer f => ?_⟩
  · rw [← Feed.ahead_ofTokens, Feed.ahead, List.getLast?_concat]
    rfl
  · have hlength := hplace.length
    omega
  · exact Feed.pos_afterCalls_le tokens calls
  · exact ⟨fun limit => layer.pos_lt limit f, layer.settled f⟩

-- an end of input in the middle is a token like any other, and the last
-- is never passed
example (l : Location) :
    (Feed.afterCalls [⟨.endOfInput, l⟩, ⟨.number 1, l⟩]
      (List.replicate 3 (0, .advance))).pos = 2 := rfl

end InferTrace
