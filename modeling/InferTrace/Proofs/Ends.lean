/-
How a computation that keeps its state ends.

Solving and inference are computations of one kind: they change a
state, and give a value or halt, with the state they have come to
either way. `Ends` says of such a computation, from a given state on,
what holds when it has given a value and what holds when it has halted.
One rule for each way to build a computation is enough to walk through
it from the front (`ends_bind` and its companions); what is known of
its end may be weakened (`Ends.mono`).

Two computations may also be compared. `SameEnd` says that they have
come to the same value or halt, in states that are related as one
likes. `CutShort` says that the first is the second, as far as it goes:
it may halt before the second has ended, but then the second goes on from
there. `Ample` is about a family of computations that are given more
and more room: from some member on they all are the second computation,
unless that one is stopped itself.
-/
import InferTrace.Ty.Nesting

namespace InferTrace

variable {ε σ α β : Type}

/-- From the state `s` on, the computation ends as `done` says if it
gives a value, and as `halted` says if it halts. -/
def Ends (x : EStateM ε σ α) (s : σ) (done : α → σ → Prop)
    (halted : ε → σ → Prop) : Prop :=
  match x s with
  | .ok a s' => done a s'
  | .error e s' => halted e s'

/-- The state that a computation has come to. -/
def endState : EStateM.Result ε σ α → σ
  | .ok _ s => s
  | .error _ s => s

/-- What a computation has halted with, if it has. -/
def haltOf? : EStateM.Result ε σ α → Option ε
  | .ok _ _ => none
  | .error e _ => some e

variable {x : EStateM ε σ α} {s s' : σ} {done done' : α → σ → Prop}
  {halted halted' : ε → σ → Prop}

/-- What ends with a value ends as it is to. -/
theorem Ends.of_ok {a : α} (h : Ends x s done halted)
    (hx : x s = .ok a s') : done a s' := by
  unfold Ends at h
  rw [hx] at h
  exact h

/-- So does what halts. -/
theorem Ends.of_error {e : ε} (h : Ends x s done halted)
    (hx : x s = .error e s') : halted e s' := by
  unfold Ends at h
  rw [hx] at h
  exact h

/-- What comes to the same result ends in the same way. -/
theorem Ends.of_eq {y : EStateM ε σ α} (h : Ends y s' done halted)
    (hxy : x s = y s') : Ends x s done halted := by
  unfold Ends at h ⊢
  rw [hxy]
  exact h

/-- A computation that never halts so has not halted so. -/
theorem haltOf?_ne {e : ε} (h : Ends x s done fun e' _ => e' ≠ e) :
    haltOf? (x s) ≠ some e := by
  cases hx : x s with
  | ok a s' => exact nofun
  | error e' s' => exact fun heq => h.of_error hx (Option.some.inj heq)

/-- What is asked of an end may be weakened. -/
theorem Ends.mono (h : Ends x s done halted)
    (hdone : ∀ a s', done a s' → done' a s')
    (hhalted : ∀ e s', halted e s' → halted' e s') :
    Ends x s done' halted' := by
  unfold Ends at h ⊢
  cases hx : x s with
  | ok a s' =>
      rw [hx] at h
      exact hdone a s' h
  | error e s' =>
      rw [hx] at h
      exact hhalted e s' h

/-- What is known of the two ends may come from two arguments. -/
theorem Ends.join (h : Ends x s done halted) (h' : Ends x s done' halted') :
    Ends x s done halted' := by
  unfold Ends at h h' ⊢
  cases hx : x s with
  | ok a s' =>
      rw [hx] at h
      exact h
  | error e s' =>
      rw [hx] at h'
      exact h'

/-- Two things that are true of each end are true together. -/
theorem Ends.and (h : Ends x s done halted) (h' : Ends x s done' halted') :
    Ends x s (fun a s' => done a s' ∧ done' a s')
      fun e s' => halted e s' ∧ halted' e s' := by
  unfold Ends at h h' ⊢
  cases hx : x s with
  | ok a s' =>
      rw [hx] at h h'
      exact ⟨h, h'⟩
  | error e s' =>
      rw [hx] at h h'
      exact ⟨h, h'⟩

/-- A computation that does not halt gives a value. -/
theorem Ends.exists_ok (h : Ends x s done fun _ _ => False) :
    ∃ a s', x s = .ok a s' ∧ done a s' := by
  unfold Ends at h
  cases hx : x s with
  | ok a s' =>
      rw [hx] at h
      exact ⟨a, s', rfl, h⟩
  | error e s' =>
      rw [hx] at h
      exact h.elim

/-- A computation whose value is known has ended somewhere with it. -/
theorem exists_of_run' {a : α} (h : x.run' s = some a) :
    ∃ s', x s = .ok a s' := by
  unfold EStateM.run' EStateM.run at h
  cases hx : x s with
  | ok b s' =>
      rw [hx] at h
      exact ⟨s', by rw [Option.some.inj h]⟩
  | error e s' =>
      rw [hx] at h
      exact absurd h nofun

/-- After a value the rest of a sequence runs from where it was
given. -/
theorem bind_of_ok {f : α → EStateM ε σ β} {a : α} (h : x s = .ok a s') :
    (x >>= f) s = f a s' := by
  show EStateM.bind x f s = _
  unfold EStateM.bind
  rw [h]

/-- A halt is the end of the sequence. -/
theorem bind_of_error {f : α → EStateM ε σ β} {e : ε}
    (h : x s = .error e s') : (x >>= f) s = .error e s' := by
  show EStateM.bind x f s = _
  unfold EStateM.bind
  rw [h]

-- ============================================= ways to build one

/-- A sequence ends as its second part does, from where the first has
ended, unless the first halts. -/
theorem ends_bind {f : α → EStateM ε σ β} {done : β → σ → Prop} :
    Ends (x >>= f) s done halted ↔
      Ends x s (fun a s' => Ends (f a) s' done halted) halted := by
  show (match EStateM.bind x f s with
    | .ok a s' => done a s'
    | .error e s' => halted e s') ↔ _
  unfold Ends EStateM.bind
  cases x s with
  | ok a s' => exact Iff.rfl
  | error e s' => exact Iff.rfl

theorem ends_pure {a : α} :
    Ends (pure a : EStateM ε σ α) s done halted ↔ done a s := Iff.rfl

theorem ends_throw {e : ε} :
    Ends (throw e : EStateM ε σ α) s done halted ↔ halted e s := Iff.rfl

theorem ends_get {done : σ → σ → Prop} :
    Ends (get : EStateM ε σ σ) s done halted ↔ done s s := Iff.rfl

-- ================================================ two computations

/-- Both have given the same value, or halted in the same way, and the
states that they have come to are related. -/
inductive SameEnd (R : σ → σ → Prop) :
    EStateM.Result ε σ α → EStateM.Result ε σ α → Prop
  | ok {a : α} {s s' : σ} : R s s' → SameEnd R (.ok a s) (.ok a s')
  | error {e : ε} {s s' : σ} : R s s' →
      SameEnd R (.error e s) (.error e s')

/-- Ends are the same in either order, if states are related in either
order. -/
theorem SameEnd.symm {R : σ → σ → Prop} {p q : EStateM.Result ε σ α}
    (h : SameEnd R p q) (hR : ∀ s s', R s s' → R s' s) :
    SameEnd R q p := by
  cases h with
  | ok h => exact .ok (hR _ _ h)
  | error h => exact .error (hR _ _ h)

/-- Ends that are the same as a third are the same. -/
theorem SameEnd.trans {R : σ → σ → Prop} {p q r : EStateM.Result ε σ α}
    (h : SameEnd R p q) (hR : ∀ s s' s'', R s s' → R s' s'' → R s s'')
    (h' : SameEnd R q r) : SameEnd R p r := by
  cases h with
  | ok h =>
      cases h' with
      | ok h' => exact .ok (hR _ _ _ h h')
  | error h =>
      cases h' with
      | error h' => exact .error (hR _ _ _ h h')

/-- Sequences end the same way if their first parts do, and the second
parts from wherever the first have ended. -/
theorem SameEnd.bind {R : σ → σ → Prop} {y : EStateM ε σ α}
    {f g : α → EStateM ε σ β} {u : σ} (h : SameEnd R (x s) (y u))
    (hf : ∀ a s₁ u₁, x s = .ok a s₁ → R s₁ u₁ →
      SameEnd R (f a s₁) (g a u₁)) :
    SameEnd R ((x >>= f) s) ((y >>= g) u) := by
  generalize hx : x s = p at h
  generalize hy : y u = q at h
  cases h with
  | ok hR =>
      rw [bind_of_ok hx, bind_of_ok hy]
      exact hf _ _ _ hx hR
  | error hR =>
      rw [bind_of_error hx, bind_of_error hy]
      exact .error hR

-- ======================================================== cut short

variable {stop : ε} {R : σ → σ → Prop} {y : EStateM ε σ α}

/-- Whatever its end, the computation goes on from where it starts, in
the sense of `R`. -/
def Keeps (R : σ → σ → Prop) (x : EStateM ε σ α) : Prop :=
  ∀ s, Ends x s (fun _ s' => R s s') fun _ s' => R s s'

/-- The first computation is the second, cut short: from `s` on it comes
to the same end, or it stops where the second goes on. -/
def CutShort (stop : ε) (R : σ → σ → Prop) (x y : EStateM ε σ α) (s : σ) :
    Prop :=
  x s = y s ∨ ∃ s₁, x s = .error stop s₁ ∧
    Ends y s (fun _ s' => R s₁ s') fun _ s' => R s₁ s'

/-- A sequence goes on if its parts do. -/
theorem Keeps.bind {f : α → EStateM ε σ β} (h : Keeps R x)
    (hR : ∀ s s' s'', R s s' → R s' s'' → R s s'')
    (hf : ∀ a, Keeps R (f a)) : Keeps R (x >>= f) := by
  intro s
  rw [ends_bind]
  refine (h s).mono ?_ fun _ _ hs => hs
  intro a s' hs
  exact (hf a s').mono (fun _ _ => hR _ _ _ hs) fun _ _ => hR _ _ _ hs

/-- A computation that stops at once is any other, cut short. -/
theorem CutShort.of_stop (hx : x s = .error stop s) (hy : Keeps R y) :
    CutShort stop R x y s :=
  Or.inr ⟨s, hx, hy s⟩

/-- Where it starts, the second computation may be exchanged for one that
does the same. -/
theorem CutShort.trans_eq {z : EStateM ε σ α} (h : CutShort stop R x y s)
    (hz : y s = z s) : CutShort stop R x z s := by
  unfold CutShort Ends at h ⊢
  rw [← hz]
  exact h

/-- A sequence is cut short if its parts are. -/
theorem CutShort.bind {f g : α → EStateM ε σ β}
    (h : CutShort stop R x y s)
    (hR : ∀ s s' s'', R s s' → R s' s'' → R s s'')
    (hg : ∀ a, Keeps R (g a))
    (hf : ∀ a s', x s = .ok a s' → CutShort stop R (f a) (g a) s') :
    CutShort stop R (x >>= f) (y >>= g) s := by
  rcases h with heq | ⟨s₁, hstop, hends⟩
  · cases hx : x s with
    | ok a s' =>
        have hy : y s = .ok a s' := heq.symm.trans hx
        rcases hf a s' hx with hsame | ⟨s₂, hstop, hends⟩
        · left
          rw [bind_of_ok hx, bind_of_ok hy, hsame]
        · right
          refine ⟨s₂, (bind_of_ok hx).trans hstop, ?_⟩
          unfold Ends
          rw [bind_of_ok hy]
          exact hends
    | error e s' =>
        left
        rw [bind_of_error hx, bind_of_error (heq.symm.trans hx)]
  · right
    refine ⟨s₁, bind_of_error hstop, ?_⟩
    rw [ends_bind]
    refine hends.mono ?_ fun _ _ hs => hs
    intro a s' hs
    exact (hg a s').mono (fun _ _ => hR _ _ _ hs) fun _ _ => hR _ _ _ hs

/-- A computation that is not started keeps everything. -/
theorem Keeps.ifRoom {room : σ → Bool} (h : Keeps R x)
    (hR : ∀ s, R s s) : Keeps R (ifRoom room stop x) := by
  intro s
  unfold Ends InferTrace.ifRoom
  cases room s with
  | true => exact h s
  | false => exact hR s

/-- With less room a computation is cut short. -/
theorem CutShort.ifRoom {room room' : σ → Bool} (h : Keeps R x)
    (hR : ∀ s, R s s) (hroom : room s = true → room' s = true) :
    CutShort stop R (ifRoom room stop x) (ifRoom room' stop x) s := by
  cases hs : room s with
  | true =>
      left
      simp only [InferTrace.ifRoom, hs, hroom hs]
  | false =>
      refine .of_stop ?_ (h.ifRoom hR)
      simp [InferTrace.ifRoom, hs]

-- ======================================================= ample room

/-- From `s` on the second computation is stopped, or else the first, if
it is given enough room, comes to the same end. -/
def Ample (stop : ε) (x : Nat → EStateM ε σ α) (y : EStateM ε σ α)
    (s : σ) : Prop :=
  (∃ s₁, y s = .error stop s₁) ∨ ∃ enough, ∀ n, enough ≤ n → x n s = y s

/-- What does not depend on the room. -/
theorem Ample.const : Ample stop (fun _ => x) x s :=
  Or.inr ⟨0, fun _ _ => rfl⟩

/-- The room for a sequence is the larger of the rooms for its parts. -/
theorem Ample.bind {x : Nat → EStateM ε σ α} {f : Nat → α → EStateM ε σ β}
    {g : α → EStateM ε σ β} (h : Ample stop x y s)
    (hf : ∀ a s', y s = .ok a s' → Ample stop (f · a) (g a) s') :
    Ample stop (fun n => x n >>= f n) (y >>= g) s := by
  rcases h with ⟨s₁, hstop⟩ | ⟨enough, henough⟩
  · exact Or.inl ⟨s₁, bind_of_error hstop⟩
  cases hy : y s with
  | error e s' =>
      refine Or.inr ⟨enough, fun n hn => ?_⟩
      show (x n >>= f n) s = (y >>= g) s
      rw [bind_of_error hy, bind_of_error ((henough n hn).trans hy)]
  | ok a s' =>
      rcases hf a s' hy with ⟨s₁, hstop⟩ | ⟨enough', henough'⟩
      · exact Or.inl ⟨s₁, (bind_of_ok hy).trans hstop⟩
      · refine Or.inr ⟨max enough enough', fun n hn => ?_⟩
        have hx := henough n (Nat.le_trans (Nat.le_max_left ..) hn)
        show (x n >>= f n) s = (y >>= g) s
        rw [bind_of_ok hy, bind_of_ok (hx.trans hy)]
        exact henough' n (Nat.le_trans (Nat.le_max_right ..) hn)

/-- It does no harm to ask for one level more. -/
theorem Ample.of_succ {x : Nat → EStateM ε σ α}
    (h : Ample stop (fun n => x (n + 1)) y s) : Ample stop x y s := by
  refine h.imp_right fun ⟨enough, henough⟩ => ⟨enough + 1, fun n hn => ?_⟩
  obtain ⟨n, rfl⟩ := Nat.exists_eq_succ_of_ne_zero (n := n) (by omega)
  exact henough n (Nat.le_of_succ_le_succ hn)

/-- Some level is enough if from some level on there is room. -/
theorem Ample.ifRoom {room : Nat → σ → Bool}
    (h : ∃ enough, ∀ n, enough ≤ n → room n s = true) :
    Ample stop (fun n => ifRoom (room n) stop x) x s := by
  obtain ⟨enough, henough⟩ := h
  refine Or.inr ⟨enough, fun n hn => ?_⟩
  simp [InferTrace.ifRoom, henough n hn]

end InferTrace
