/-
Solving in a number of levels.

With fewer levels the solver does what it does with more, as far as it
comes: it makes the same links in the same order, and where it finds no
level left it stops (`curbed_unifyInside`). What it leaves then need
not be a store that it would have come to with more levels, since links
may be followed and not shortened, or made and not noted; but the links
that were noted are the first of those that more levels would have
noted.

With enough levels it is the solver itself. How many are enough is not
said; it depends on the length of chains, on the depth of types and on
how much there is to show. That there is such a number is proved along
the solver's own recursion, whose fuel is spent on nothing but equations
(`ample_unifyWithin`). The one exception is an equation that has no end.
-/
import InferTrace.Proofs.Ends
import InferTrace.Proofs.Unify.Solution
import InferTrace.Ty.Nesting

namespace InferTrace

variable {α β : Type} {levels levels' v : Nat} {a b t : Ty}
  {reason : String}

-- ========================================================= more links

/-- The later solver has noted the links of the earlier one, and then
some. -/
def Solver.Extends (s s' : Solver) : Prop :=
  s.bonds.toList <+: s'.bonds.toList

namespace Solver

variable {s s' s'' : Solver}

theorem Extends.refl (s : Solver) : s.Extends s :=
  List.prefix_rfl

theorem Extends.trans (h : s.Extends s') (h' : s'.Extends s'') :
    s.Extends s'' :=
  List.IsPrefix.trans h h'

end Solver

namespace Solve

/-- A computation that notes links at most. -/
abbrev Adds (x : Solve α) : Prop := Keeps Solver.Extends x

/-- The first computation stops for want of levels, or is the second. -/
abbrev Curbed (x y : Solve α) (s : Solver) : Prop :=
  CutShort .endless Solver.Extends x y s

/-- Computations that note links at most, one after the other, do so. -/
theorem Adds.bind {x : Solve α} {f : α → Solve β} (h : Adds x)
    (hf : ∀ value, Adds (f value)) : Adds (x >>= f) :=
  Keeps.bind h (fun _ _ _ => Solver.Extends.trans) hf

/-- A computation that is cut short, and goes on cut short, is cut short
as a whole. -/
theorem Curbed.bind {x y : Solve α} {f g : α → Solve β} {s : Solver}
    (h : Curbed x y s) (hg : ∀ value, Adds (g value))
    (hf : ∀ value s', Curbed (f value) (g value) s') :
    Curbed (x >>= f) (y >>= g) s :=
  CutShort.bind h (fun _ _ _ => Solver.Extends.trans) hg
    fun value s' _ => hf value s'

theorem adds_throw (clash : Clash) : Adds (throw clash : Solve α) :=
  fun s => .refl s

theorem adds_prune (t : Ty) : Adds (Solve.prune t) := by
  intro s
  unfold Solve.prune
  rw [ends_bind, ends_get]
  cases s.store.prune? t with
  | none => exact .refl s
  | some found => exact .refl s

theorem adds_keep (bond : Bond) : Adds (Manner.shortening.keep bond) := by
  intro s
  show s.bonds.toList <+: (s.bonds.push bond).toList
  rw [Array.toList_push]
  exact List.prefix_append _ _

/-- A search notes no link. -/
theorem adds_search (find : Store → Store.Search × Store) :
    Adds (Solve.search find) := by
  intro s
  unfold Ends
  rw [search_eq]
  rcases find s.store with ⟨search, store⟩
  cases search with
  | found | absent | endless => exact .refl s

/-- To search is cut short if the search is. -/
theorem curbed_search {find find' : Store → Store.Search × Store}
    {s : Solver} (h : (find s.store).1 = .endless ∨
      find s.store = find' s.store) :
    Curbed (Solve.search find) (Solve.search find') s := by
  rcases h with hend | heq
  · right
    refine ⟨{ s with store := (find s.store).2 }, ?_, adds_search find' s⟩
    rw [search_eq]
    rcases hfind : find s.store with ⟨search, store⟩
    rw [hfind] at hend
    cases hend
    rfl
  · left
    rw [search_eq, search_eq, heq]

/-- To search takes the room that the search takes. -/
theorem ample_search {find : Nat → Store → Store.Search × Store}
    {find' : Store → Store.Search × Store} {s : Solver}
    (h : (find' s.store).1 ≠ .endless →
      ∃ enough, ∀ n, enough ≤ n → find n s.store = find' s.store) :
    Ample .endless (fun n => Solve.search (find n)) (Solve.search find')
      s := by
  by_cases hend : (find' s.store).1 = .endless
  · left
    refine ⟨{ s with store := (find' s.store).2 }, ?_⟩
    rw [search_eq]
    rcases hfind : find' s.store with ⟨search, store⟩
    rw [hfind] at hend
    cases hend
    rfl
  · obtain ⟨enough, henough⟩ := h hend
    refine Or.inr ⟨enough, fun n hn => ?_⟩
    simp only [search_eq, henough n hn]

end Solve

-- ============================================================ manners

namespace Manner

open Solve

variable {m m' : Manner} {inner inner' : Ty → Ty → String → Solve Unit}

/-- Every part of a step notes links at most. -/
structure Adding (m : Manner) : Prop where
  prune : ∀ t, Adds (m.prune t)
  occurs : ∀ v t, Adds (m.occurs v t)
  keep : ∀ bond, Adds (m.keep bond)
  refuse : ∀ clash, Adds (m.refuse clash)

/-- Every part of a step is cut short. -/
structure Curbs (m m' : Manner) : Prop where
  adding : m'.Adding
  prune : ∀ t s, Curbed (m.prune t) (m'.prune t) s
  occurs : ∀ v t s, Curbed (m.occurs v t) (m'.occurs v t) s
  keep : ∀ bond s, Curbed (m.keep bond) (m'.keep bond) s
  refuse : ∀ clash s, Curbed (m.refuse clash) (m'.refuse clash) s

/-- To link a variable notes one link at most. -/
theorem Adding.link (h : m.Adding) (v : Nat) (t : Ty) (reason : String) :
    Adds (m.link v t reason) := by
  intro s
  unfold Manner.link
  rw [ends_bind, ends_get]
  cases s.store.bind v t with
  | error old => exact h.refuse _ s
  | ok store => exact h.keep _ { s with store := store }

/-- A manner that curbs another one curbs its linking. -/
theorem Curbs.link (h : m.Curbs m') (v : Nat) (t : Ty) (reason : String)
    (s : Solver) : Curbed (m.link v t reason) (m'.link v t reason) s := by
  have hget : (get : Solve Solver) s = .ok s s := rfl
  unfold Manner.link Curbed CutShort Ends
  rw [bind_of_ok hget, bind_of_ok hget]
  cases s.store.bind v t with
  | error old => exact h.refuse _ s
  | ok store => exact h.keep _ { s with store := store }

/-- So does to bind a variable, after its check. -/
theorem Adding.bind (h : m.Adding) (v : Nat) (t : Ty) (reason : String) :
    Adds (m.bind v t reason) := by
  refine (h.occurs v t).bind fun found => ?_
  cases found with
  | true => exact h.refuse _
  | false => exact h.link v t reason

/-- And its binding. -/
theorem Curbs.bind (h : m.Curbs m') (v : Nat) (t : Ty) (reason : String)
    (s : Solver) : Curbed (m.bind v t reason) (m'.bind v t reason) s := by
  refine (h.occurs v t s).bind (fun found => ?_) fun found s₁ => ?_
  · cases found with
    | true => exact h.adding.refuse _
    | false => exact h.adding.link v t reason
  · cases found with
    | true => exact h.refuse _ s₁
    | false => exact h.link v t reason s₁

/-- One step of solving notes links at most, if the steps inside do. -/
theorem Adding.meet (h : m.Adding)
    (hinner : ∀ a b reason, Adds (inner a b reason)) (a b : Ty)
    (reason : String) : Adds (m.meet inner a b reason) := by
  unfold Manner.meet
  by_cases heq : a = b
  · rw [if_pos heq]
    exact fun s => .refl s
  · rw [if_neg heq]
    split
    · exact h.bind _ _ _
    · exact h.bind _ _ _
    · exact (hinner _ _ _).bind fun _ => hinner _ _ _
    · exact hinner _ _ _
    · exact h.refuse _

/-- One step of solving is cut short, if the steps inside are. -/
theorem Curbs.meet (h : m.Curbs m')
    (hinner : ∀ a b reason s,
      Curbed (inner a b reason) (inner' a b reason) s)
    (hadds : ∀ a b reason, Adds (inner' a b reason)) (a b : Ty)
    (reason : String) (s : Solver) :
    Curbed (m.meet inner a b reason) (m'.meet inner' a b reason) s := by
  unfold Manner.meet
  by_cases heq : a = b
  · rw [if_pos heq, if_pos heq]
    exact Or.inl rfl
  · rw [if_neg heq, if_neg heq]
    split
    · exact h.bind _ _ _ s
    · exact h.bind _ _ _ s
    · exact (hinner _ _ _ s).bind (fun _ => hadds _ _ _) fun _ => hinner _ _ _
    · exact hinner _ _ _ s
    · exact h.refuse _ s

/-- Solving notes links at most, by induction on the fuel. -/
theorem adds_unifyWithin {m : Nat → Manner} (h : ∀ n, (m n).Adding) :
    ∀ (n : Nat) (a b : Ty) (reason : String),
      Adds (Manner.unifyWithin m n a b reason) := by
  intro n
  induction n with
  | zero => exact fun _ _ _ => adds_throw _
  | succ n ih =>
      intro a b reason
      refine ((h n).prune a).bind fun a => ?_
      refine ((h n).prune b).bind fun b => ?_
      exact (h n).meet ih a b reason

/-- An equation in fewer levels, each of which is cut short, is cut
short. -/
theorem curbed_unifyWithin {m m' : Nat → Manner}
    (h : ∀ n n', n ≤ n' → (m n).Curbs (m' n')) :
    ∀ (n n' : Nat) (a b : Ty) (reason : String) (s : Solver), n ≤ n' →
      Curbed (Manner.unifyWithin m n a b reason)
        (Manner.unifyWithin m' n' a b reason) s := by
  have hadds := adds_unifyWithin fun n => (h n n (Nat.le_refl n)).adding
  intro n
  induction n with
  | zero =>
      intro n' a b reason s _
      exact .of_stop rfl (hadds n' a b reason)
  | succ n ih =>
      intro n' a b reason s hle
      obtain ⟨n', rfl⟩ : ∃ k, n' = k + 1 :=
        Nat.exists_eq_succ_of_ne_zero (by omega)
      have hle : n ≤ n' := Nat.le_of_succ_le_succ hle
      have hm := h n n' hle
      have hrest : ∀ a b, Adds ((m' n').meet (unifyWithin m' n') a b reason) :=
        fun a b => hm.adding.meet (hadds n') a b reason
      refine (hm.prune a s).bind (fun a => ?_) fun a s₁ => ?_
      · exact (hm.adding.prune b).bind fun b => hrest a b
      · refine (hm.prune b s₁).bind (fun b => hrest a b) fun b s₂ => ?_
        exact hm.meet (fun a b reason s => ih n' a b reason s hle) (hadds n')
          a b reason s₂

end Manner

-- ========================================================= more levels

namespace Store

variable {s s' : Store} {types : List Ty}

/-- What can be shown within some levels can be shown within more. -/
theorem canShow_mono (hle : levels ≤ levels') (h : s.canShow levels types) :
    s.canShow levels' types := by
  simp only [canShow, List.all_eq_true, decide_eq_true_eq] at h ⊢
  exact fun t ht => Nat.le_trans (h t ht) hle

/-- And so can all variables together. -/
theorem canSnapshot_mono (hle : levels ≤ levels')
    (h : s.canSnapshot levels) : s.canSnapshot levels' := by
  simp only [canSnapshot, List.all_eq_true, Bool.or_eq_true] at h ⊢
  exact fun v hv => (h v hv).imp_right (canShow_mono hle)

/-- Some number of levels is enough for all members of a list. -/
theorem exists_enough {α : Type} {P : α → Nat → Prop} {l : List α}
    (hmono : ∀ x n n', n ≤ n' → P x n → P x n')
    (h : ∀ x ∈ l, ∃ n, P x n) : ∃ n, ∀ x ∈ l, P x n := by
  induction l with
  | nil => exact ⟨0, by simp⟩
  | cons x l ih =>
      obtain ⟨n, hn⟩ := h x List.mem_cons_self
      obtain ⟨m, hm⟩ := ih fun y hy => h y (List.mem_cons_of_mem x hy)
      refine ⟨max n m, fun y hy => ?_⟩
      rcases List.mem_cons.1 hy with rfl | hy
      · exact hmono y _ _ (Nat.le_max_left n m) hn
      · exact hmono y _ _ (Nat.le_max_right n m) (hm y hy)

/-- With enough levels every type can be shown. -/
theorem exists_canShow (s : Store) (types : List Ty) :
    ∃ levels, s.canShow levels types := by
  obtain ⟨levels, h⟩ := exists_enough (l := types)
    (P := fun t n => s.nesting t ≤ n) (fun _ _ _ hle h => Nat.le_trans h hle)
    fun t _ => ⟨s.nesting t, Nat.le_refl _⟩
  exact ⟨levels, by simpa [canShow] using h⟩

/-- With enough levels a snapshot can be taken. -/
theorem exists_canSnapshot (s : Store) : ∃ levels, s.canSnapshot levels := by
  obtain ⟨levels, h⟩ := exists_enough (l := List.range s.size)
    (P := fun v n => s.canShow n [s.resolve (.var v)])
    (fun _ _ _ hle => canShow_mono hle) fun v _ => s.exists_canShow _
  refine ⟨levels, ?_⟩
  simp only [canSnapshot, List.all_eq_true, Bool.or_eq_true]
  exact fun v hv => Or.inr (h v hv)

/-- A search in fewer levels finds no level left or does the same. -/
theorem occursWithin_curbed : ∀ (levels levels' : Nat) (t : Ty) (s : Store),
    levels ≤ levels' → (occursWithin v levels t s).1 = .endless ∨
      occursWithin v levels t s = occursWithin v levels' t s := by
  intro levels
  induction levels with
  | zero => exact fun _ _ _ _ => Or.inl rfl
  | succ levels ih =>
      intro levels' t s hle
      obtain ⟨levels', rfl⟩ : ∃ k, levels' = k + 1 :=
        Nat.exists_eq_succ_of_ne_zero (by omega)
      have hle : levels ≤ levels' := Nat.le_of_succ_le_succ hle
      unfold occursWithin
      by_cases hchain : s.chain t < levels
      · rw [if_pos hchain, if_pos (Nat.lt_of_lt_of_le hchain hle)]
        cases s.prune t with
        | mk r s =>
            cases r with
            | int | bool | base | var => exact Or.inr rfl
            | list tag t => exact ih levels' t s hle
            | arrow tag p r =>
                dsimp only
                rcases ih levels' p s hle with hend | heq
                · left
                  rcases hp : occursWithin v levels p s with ⟨search, s₁⟩
                  rw [hp] at hend
                  cases hend
                  rfl
                · rw [← heq]
                  rcases occursWithin v levels p s with ⟨search, s₁⟩
                  cases search with
                  | found | endless => exact Or.inr rfl
                  | absent => exact ih levels' r s₁ hle
      · rw [if_neg hchain]
        exact Or.inl rfl

end Store

namespace Manner

open Solve

theorem adding_within (levels : Nat) : (within levels).Adding where
  prune t := (adds_prune t).ifRoom .refl
  occurs _ _ := adds_search _
  keep bond := (adds_keep bond).ifRoom .refl
  refuse clash := (adds_throw clash).ifRoom .refl

/-- With fewer levels every part of a step is cut short. -/
theorem within_curbs (hle : levels ≤ levels') :
    (within levels).Curbs (within levels') where
  adding := adding_within levels'
  prune t s := by
    refine .ifRoom (adds_prune t) .refl fun h => ?_
    simp only [decide_eq_true_eq] at h ⊢
    exact Nat.lt_of_lt_of_le h hle
  occurs v t s := curbed_search (Store.occursWithin_curbed _ _ t s.store hle)
  keep bond s := by
    refine .ifRoom (adds_keep bond) .refl fun h => ?_
    simp only [Bool.and_eq_true] at h ⊢
    exact h.imp (Store.canShow_mono hle) (Store.canSnapshot_mono hle)
  refuse clash s :=
    .ifRoom (adds_throw clash) .refl (Store.canShow_mono hle)

end Manner

/-- With fewer levels an equation is cut short. -/
theorem curbed_unifyInside (hle : levels ≤ levels') (a b : Ty)
    (reason : String) (s : Solver) :
    Solve.Curbed (unifyInside levels a b reason)
      (unifyInside levels' a b reason) s :=
  Manner.curbed_unifyWithin (fun _ _ => Manner.within_curbs) _ _ a b reason
    s hle

-- ========================================================== ample levels

namespace Store

variable {s s' : Store}

/-- What is no variable is pruned to itself. -/
theorem prune_of_not_var (h : ∀ w, t ≠ .var w) (s : Store) :
    s.prune t = (t, s) := by
  unfold prune
  cases s.size with
  | zero => rfl
  | succ fuel =>
      cases t with
      | var w => exact absurd rfl (h w)
      | int | bool | base | list | arrow => rfl

/-- There is no chain of links from what is no variable. -/
theorem chain_of_not_var (h : ∀ w, t ≠ .var w) (s : Store) :
    s.chain t = 0 := by
  unfold chain
  cases s.size with
  | zero => rfl
  | succ fuel =>
      cases t with
      | var w => exact absurd rfl (h w)
      | int | bool | base | list | arrow => rfl

/-- With something left for its parts, a type that is not a variable is
searched part by part. -/
theorem occursWithin_of_not_var (h : ∀ w, t ≠ .var w) (n : Nat) :
    occursWithin v (n + 2) t s = match t with
      | .list _ t => occursWithin v (n + 1) t s
      | .arrow _ p r =>
        match occursWithin v (n + 1) p s with
        | (.absent, s) => occursWithin v (n + 1) r s
        | ended => ended
      | _ => (.absent, s) := by
  rw [occursWithin, chain_of_not_var h, if_pos n.succ_pos,
    prune_of_not_var h]
  cases t with
  | var w => exact absurd rfl (h w)
  | int | bool | base | list | arrow => rfl

/-- Pruning that comes to an end is pruning. -/
theorem prune_of_prune? (h : s.prune? t = some (a, s')) :
    s.prune t = (a, s') := by
  unfold prune? at h
  dsimp only at h
  split at h
  · cases h
  · exact Option.some.inj h

/-- To search a variable is to search what stands at the end of its
links. -/
theorem occursWithin_var {w n : Nat} (hchain : s.chain (.var w) < n)
    (hprune : s.prune (.var w) = (t, s')) (ht : ∀ u, t ≠ .var u) :
    occursWithin v (n + 1) (.var w) s = occursWithin v (n + 1) t s' := by
  have hpos : 0 < n := Nat.lt_of_le_of_lt (Nat.zero_le _) hchain
  rw [occursWithin, if_pos hchain, hprune, occursWithin,
    chain_of_not_var ht, if_pos hpos, prune_of_not_var ht]

/-- With enough levels the search for `v` in `t` comes to what was found,
if that is an end. -/
def Reached (v : Nat) (t : Ty) (s : Store) (found : Search × Store) : Prop :=
  found.1 ≠ .endless →
    ∃ enough, ∀ n, enough ≤ n → occursWithin v (n + 1) t s = found

/-- A type is searched through if its variables are. -/
theorem reached_occursVia {atVar : Nat → Store → Search × Store}
    (h : ∀ w s, Reached v (.var w) s (atVar w s)) :
    ∀ (t : Ty) (s : Store), Reached v t s (occursVia atVar t s) := by
  intro t
  induction t with
  | int | bool | base =>
      intro s _
      refine ⟨1, fun n hn => ?_⟩
      obtain ⟨n, rfl⟩ := Nat.exists_eq_succ_of_ne_zero (n := n) (by omega)
      exact occursWithin_of_not_var (by simp) n
  | var w => exact h w
  | list tag t ih =>
      intro s hend
      obtain ⟨enough, henough⟩ := ih s hend
      refine ⟨enough + 1, fun n hn => ?_⟩
      obtain ⟨n, rfl⟩ := Nat.exists_eq_succ_of_ne_zero (n := n) (by omega)
      rw [occursWithin_of_not_var (by simp)]
      exact henough n (Nat.le_of_succ_le_succ hn)
  | arrow tag p r ihp ihr =>
      intro s hend
      have hp := ihp s
      rw [occursVia] at hend ⊢
      generalize occursVia atVar p s = found at hp hend ⊢
      obtain ⟨search, s₁⟩ := found
      cases search with
      | endless => exact absurd rfl hend
      | found =>
          obtain ⟨enough, henough⟩ := hp (by simp)
          refine ⟨enough + 1, fun n hn => ?_⟩
          obtain ⟨n, rfl⟩ := Nat.exists_eq_succ_of_ne_zero (n := n) (by omega)
          simp only [occursWithin_of_not_var (t := .arrow tag p r) (by simp),
            henough n (Nat.le_of_succ_le_succ hn)]
      | absent =>
          obtain ⟨enough, henough⟩ := hp (by simp)
          obtain ⟨enough', henough'⟩ := ihr s₁ hend
          refine ⟨max enough enough' + 1, fun n hn => ?_⟩
          obtain ⟨n, rfl⟩ := Nat.exists_eq_succ_of_ne_zero (n := n) (by omega)
          simp only [occursWithin_of_not_var (t := .arrow tag p r) (by simp),
            henough n (by omega)]
          exact henough' n (by omega)

/-- A variable is searched through with what stands at the end of its
links. -/
theorem reached_occursAt (v : Nat) : ∀ (fuel w : Nat) (s : Store),
    Reached v (.var w) s (occursAt v fuel w s) := by
  intro fuel
  induction fuel with
  | zero => exact fun w s hend => absurd rfl hend
  | succ fuel ih =>
      intro w s hend
      rw [occursAt] at hend ⊢
      cases hprune? : s.prune? (.var w) with
      | none =>
          rw [hprune?] at hend
          exact absurd rfl hend
      | some found =>
          obtain ⟨r, s₁⟩ := found
          have hprune : s.prune (.var w) = (r, s₁) := prune_of_prune? hprune?
          rw [hprune?] at hend
          cases r with
          | var u =>
              refine ⟨s.chain (.var w) + 1, fun n hn => ?_⟩
              rw [occursWithin, if_pos (Nat.lt_of_succ_le hn), hprune]
          | int | bool | base | list | arrow =>
              obtain ⟨enough, henough⟩ := reached_occursVia ih _ s₁ hend
              refine ⟨max enough (s.chain (.var w) + 1), fun n hn => ?_⟩
              rw [occursWithin_var (by omega) hprune (by simp)]
              exact henough n (by omega)

end Store

namespace Manner

open Solve

variable {m : Nat → Manner} {m' : Manner} {s : Solver}
  {inner : Nat → Ty → Ty → String → Solve Unit}
  {inner' : Ty → Ty → String → Solve Unit}

/-- With enough levels every part of a step is that of `m'`. -/
structure Suffice (m : Nat → Manner) (m' : Manner) : Prop where
  prune : ∀ t s, Ample .endless (fun n => (m n).prune t) (m'.prune t) s
  occurs : ∀ v t s,
    Ample .endless (fun n => (m n).occurs v t) (m'.occurs v t) s
  keep : ∀ bond s, Ample .endless (fun n => (m n).keep bond) (m'.keep bond) s
  refuse : ∀ clash s,
    Ample .endless (fun n => (m n).refuse clash) (m'.refuse clash) s

/-- If some levels suffice for each part of a manner, some suffice to
link. -/
theorem Suffice.link (h : Suffice m m') (v : Nat) (t : Ty)
    (reason : String) (s : Solver) :
    Ample .endless (fun n => (m n).link v t reason) (m'.link v t reason)
      s := by
  have hget : (get : Solve Solver) s = .ok s s := rfl
  unfold Manner.link Ample
  simp only [bind_of_ok hget]
  cases s.store.bind v t with
  | error old => exact h.refuse _ s
  | ok store => exact h.keep _ { s with store := store }

/-- Some suffice to bind. -/
theorem Suffice.bind (h : Suffice m m') (v : Nat) (t : Ty)
    (reason : String) (s : Solver) :
    Ample .endless (fun n => (m n).bind v t reason) (m'.bind v t reason)
      s := by
  refine (h.occurs v t s).bind fun found s₁ _ => ?_
  cases found with
  | true => exact h.refuse _ s₁
  | false => exact h.link v t reason s₁

/-- And some suffice for one step of solving, if they do for the steps
inside. -/
theorem Suffice.meet (h : Suffice m m')
    (hinner : ∀ a b reason s,
      Ample .endless (fun n => inner n a b reason) (inner' a b reason) s)
    (a b : Ty) (reason : String) (s : Solver) :
    Ample .endless (fun n => (m n).meet (inner n) a b reason)
      (m'.meet inner' a b reason) s := by
  unfold Manner.meet
  by_cases heq : a = b
  · simp only [if_pos heq]
    exact .const
  · simp only [if_neg heq]
    split
    · exact h.bind _ _ _ s
    · exact h.bind _ _ _ s
    · exact (hinner _ _ _ s).bind fun _ s₁ _ => hinner _ _ _ s₁
    · exact hinner _ _ _ s
    · exact h.refuse _ s

/-- With enough levels an equation that has an end is solved as `m'`
solves it. -/
theorem ample_unifyWithin (h : Suffice m m') : ∀ (fuel : Nat) (a b : Ty)
    (reason : String) (s : Solver),
    Ample .endless (fun n => Manner.unifyWithin m n a b reason)
      (Manner.unifyWithin (fun _ => m') fuel a b reason) s := by
  intro fuel
  induction fuel with
  | zero => exact fun a b reason s => Or.inl ⟨s, rfl⟩
  | succ fuel ih =>
      intro a b reason s
      apply Ample.of_succ
      refine (h.prune a s).bind fun a s₁ _ => ?_
      refine (h.prune b s₁).bind fun b s₂ _ => ?_
      exact h.meet ih a b reason s₂

/-- With enough levels every part of a step is the solver's own. -/
theorem within_suffice : Suffice within shortening where
  prune t s := by
    refine .ifRoom ⟨s.store.chain t + 1, fun n hn => ?_⟩
    exact decide_eq_true (Nat.lt_of_succ_le hn)
  occurs v t s := by
    apply ample_search
    intro hend
    obtain ⟨enough, henough⟩ :=
      Store.reached_occursVia (Store.reached_occursAt v _) t s.store hend
    refine ⟨enough + 1, fun n hn => ?_⟩
    obtain ⟨n, rfl⟩ := Nat.exists_eq_succ_of_ne_zero (n := n) (by omega)
    exact henough n (Nat.le_of_succ_le_succ hn)
  keep bond s := by
    obtain ⟨n, hn⟩ := s.store.exists_canShow [bond.type]
    obtain ⟨n', hn'⟩ := s.store.exists_canSnapshot
    refine .ifRoom ⟨max n n', fun k hk => ?_⟩
    have hshow : s.store.canShow k [bond.type] :=
      Store.canShow_mono (by omega) hn
    have hsnapshot : s.store.canSnapshot k :=
      Store.canSnapshot_mono (by omega) hn'
    simp only [hshow, hsnapshot, Bool.and_self]
  refuse clash s := by
    obtain ⟨n, hn⟩ := s.store.exists_canShow clash.types
    exact .ifRoom ⟨n, fun k hk => Store.canShow_mono hk hn⟩

end Manner

/-- In a well-formed store an equation with enough levels is solved as
without a limit. -/
theorem exists_unifyInside {s : Solver} (h : s.store.WellFormed)
    (ha : a.Within s.store.size) (hb : b.Within s.store.size)
    (reason : String) : ∃ enough, ∀ n, enough ≤ n →
      unifyInside n a b reason s = unify a b reason s := by
  have hample : Ample .endless _ (unify a b reason) s :=
    Manner.ample_unifyWithin Manner.within_suffice _ a b reason s
  rcases hample with ⟨s₁, hend⟩ | henough
  · have hrefuted : Refuted _ _ _ _ _ := (ends_unify h ha hb).of_error hend
    exact hrefuted.justified.elim
  · exact henough

end InferTrace
