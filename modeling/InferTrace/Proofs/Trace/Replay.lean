/-
A trace can be replayed from its snapshots.

A viewer has the snapshots and the messages, and no store. It sees
which variables there are, which of them have a type, and when one gets
it: by the event that says so, and by no other. `Follows` is that rule
for one event and the snapshot before it; `Replays` carries it from the
snapshot at the start through all events to the store at the end.

# Reading a snapshot

That a variable is listed with `?` says that it has no link, since no
type is written so (`render_ne_placeholder`). A name ends with the
variable's number, and in a message something else than a digit comes
behind it, so a message names one variable, whatever the stem is
(`eq_of_message`).

# Steps

Making a variable adds a line, shortening links changes none, and a
link turns one `?` into a type; lines that had a type may change with
it. So every step can be replayed (`Tracer.Step.replayed`), and with
the steps a run (`Tracer.Evolves.replayed`).
-/
import InferTrace.Proofs.Trace.Steps

namespace InferTrace

-- ======================================================== snapshots

namespace Snapshot

variable {p p' q : Snapshot} {v : Nat}

/-- The variable is listed with a type. -/
def Bound (p : Snapshot) (v : Nat) : Prop :=
  ∃ name value, p[v]? = some (name, value) ∧ value ≠ "?"

/-- What `p` lists is listed as it was; other variables are new and
have no type. -/
def Extended (p q : Snapshot) : Prop :=
  ∃ new, q = p ++ new ∧ ∀ line ∈ new, line.2 = "?"

theorem Extended.refl (p : Snapshot) : Extended p p :=
  ⟨[], (List.append_nil p).symm, nofun⟩

theorem Extended.trans (h : Extended p p') (h' : Extended p' q) :
    Extended p q := by
  obtain ⟨new, rfl, hnew⟩ := h
  obtain ⟨new', rfl, hnew'⟩ := h'
  refine ⟨new ++ new', List.append_assoc .., fun line hline => ?_⟩
  rcases List.mem_append.1 hline with hline | hline
  · exact hnew line hline
  · exact hnew' line hline

/-- What is extended binds the same variables. -/
theorem Extended.bound_iff (h : Extended p q) : Bound q v ↔ Bound p v := by
  obtain ⟨new, rfl, hnew⟩ := h
  constructor
  · rintro ⟨name, value, hv, hne⟩
    rcases Nat.lt_or_ge v p.length with hlt | hge
    · rw [List.getElem?_append_left hlt] at hv
      exact ⟨name, value, hv, hne⟩
    · rw [List.getElem?_append_right hge] at hv
      exact absurd (hnew _ (List.mem_of_getElem? hv)) hne
  · rintro ⟨name, value, hv, hne⟩
    obtain ⟨hlt, -⟩ := List.getElem?_eq_some_iff.1 hv
    refine ⟨name, value, ?_, hne⟩
    rw [List.getElem?_append_left hlt]
    exact hv

/-- The names that were there come first. -/
theorem Extended.names (h : Extended p q) :
    p.map Prod.fst <+: q.map Prod.fst := by
  obtain ⟨new, rfl, -⟩ := h
  rw [List.map_append]
  exact List.prefix_append ..

end Snapshot

-- =========================================================== events

/-- The message says that the variable gets its type, with name and
type as the snapshot lists them. -/
def Event.Binds (e : Event) (v : Nat) : Prop :=
  ∃ name value reason, e.snapshot[v]? = some (name, value) ∧
    e.message
      = "unify: " ++ name ++ " := " ++ value ++ " (" ++ reason ++ ")"

/-- The message begins with the variable's name, whatever it says of
it. -/
def Event.Names (e : Event) (v : Nat) : Prop :=
  ∃ name value text, e.snapshot[v]? = some (name, value) ∧
    e.message = "unify: " ++ name ++ " := " ++ text

/-- What an event shows of the change since the snapshot before it. -/
structure Follows (p : Snapshot) (e : Event) : Prop where
  names : p.map Prod.fst <+: e.snapshot.map Prod.fst
  keeps : e.category ≠ .success → Snapshot.Extended p e.snapshot
  binds : e.category = .success → ∃ v, e.Binds v ∧
    (∀ w, e.Names w → w = v) ∧ ¬ Snapshot.Bound p v ∧
      ∀ w, Snapshot.Bound e.snapshot w ↔ Snapshot.Bound p w ∨ w = v

/-- The events lead from one snapshot to another: each follows the one
before it, and after the last nothing happens but new variables. -/
def Replays : Snapshot → List Event → Snapshot → Prop
  | p, [], q => Snapshot.Extended p q
  | p, e :: rest, q => Follows p e ∧ Replays e.snapshot rest q

variable {p p' q q' : Snapshot} {e e' : Event} {events : List Event} {v w : Nat}

/-- An event that follows a snapshot follows those that it extends. -/
theorem Follows.of_extended (h : Snapshot.Extended p p')
    (hf : Follows p' e) : Follows p e := by
  refine ⟨h.names.trans hf.names, fun hc => h.trans (hf.keeps hc), fun hc => ?_⟩
  obtain ⟨v, hbinds, hnames, hfree, hbound⟩ := hf.binds hc
  simp only [h.bound_iff] at hfree hbound
  exact ⟨v, hbinds, hnames, hfree, hbound⟩

/-- An event keeps bound what is bound. -/
theorem Follows.bound (h : Follows p e) (hv : Snapshot.Bound p v) :
    Snapshot.Bound e.snapshot v := by
  by_cases hc : e.category = .success
  · obtain ⟨_, _, _, _, hbound⟩ := h.binds hc
    exact (hbound v).2 (Or.inl hv)
  · exact (h.keeps hc).bound_iff.2 hv

/-- Events that replay from a snapshot replay from those that it
extends. -/
theorem Replays.of_extended (h : Snapshot.Extended p p')
    (hr : Replays p' events q) : Replays p events q := by
  cases events with
  | nil => exact h.trans hr
  | cons e rest => exact ⟨hr.1.of_extended h, hr.2⟩

/-- Events replay one list after the other. -/
theorem Replays.append {events' : List Event} (h : Replays p events p')
    (h' : Replays p' events' q) : Replays p (events ++ events') q := by
  induction events generalizing p with
  | nil => exact h'.of_extended h
  | cons e rest ih => exact ⟨h.1, ih h.2⟩

/-- A variable that has a type is named by no later event. -/
theorem Replays.not_names (h : Replays p events q) (hv : Snapshot.Bound p v) :
    ∀ e ∈ events, e.category = .success → ¬ e.Names v := by
  induction events generalizing p with
  | nil => exact nofun
  | cons e rest ih =>
      intro e' he' hc hnames
      rcases List.mem_cons.1 he' with rfl | he'
      · obtain ⟨u, _, hunique, hfree, _⟩ := h.1.binds hc
        exact hfree (hunique v hnames ▸ hv)
      · exact ih h.2 (h.1.bound hv) e' he' hc hnames

/-- No two events name the same variable. -/
theorem Replays.pairwise (h : Replays p events q) :
    events.Pairwise fun e e' => e.category = .success →
      e'.category = .success → ∀ v, e.Names v → ¬ e'.Names v := by
  induction events generalizing p with
  | nil => exact .nil
  | cons e rest ih =>
      refine .cons (fun e' he' hc hc' v hnames => ?_) (ih h.2)
      obtain ⟨u, _, hunique, _, hbound⟩ := h.1.binds hc
      have hv : Snapshot.Bound e.snapshot v :=
        (hbound v).2 (Or.inr (hunique v hnames))
      exact h.2.not_names hv e' he' hc'

-- ================================================= texts in a trace

/-- No digit comes first. -/
def NoDigit (x : List Char) : Prop := ∀ c ∈ x.head?, c.isDigit = false

/-- A number can be told from what comes behind it. -/
theorem toDigits_append_inj {v w : Nat} {x y : List Char} (hx : NoDigit x)
    (hy : NoDigit y) (h : Nat.toDigits 10 v ++ x = Nat.toDigits 10 w ++ y) :
    v = w ∧ x = y := by
  -- the number ends where the first character comes that is no digit
  have htake : ∀ (n : Nat) {z : List Char}, NoDigit z →
      (Nat.toDigits 10 n ++ z).takeWhile Char.isDigit = Nat.toDigits 10 n := by
    intro n z hz
    rw [List.takeWhile_append_of_pos fun c hc =>
      Nat.isDigit_of_mem_toDigits (by decide) (by decide) hc]
    cases z with
    | nil => exact List.append_nil _
    | cons c z => simp [hz c rfl]
  have hdigits : Nat.toDigits 10 v = Nat.toDigits 10 w := by
    rw [← htake v hx, h, htake w hy]
  have hnumber := congrArg (Nat.ofDigitChars 10 · 0) hdigits
  simp only [Nat.ofDigitChars_ten_toDigits] at hnumber
  rw [hdigits] at h
  exact ⟨hnumber, List.append_cancel_left h⟩

namespace Store

variable {s s' : Store} {a : Ty}

theorem toList_toString (n : Nat) :
    (toString n).toList = Nat.toDigits 10 n := by
  rw [Nat.toString_eq_ofList_toDigits, String.toList_ofList]

/-- A number is written in digits. -/
theorem isDigit_of_mem_toString {n : Nat} {c : Char}
    (h : c ∈ (toString n).toList) : c.isDigit = true := by
  rw [toList_toString] at h
  exact Nat.isDigit_of_mem_toDigits (by decide) (by decide) h

/-- No type is written as a placeholder is: a name has a digit, and
every other text is longer. -/
theorem render_ne_placeholder (s : Store) (τ : Tree) :
    τ.render s.name ≠ "?" := by
  intro h
  have hlength : (τ.render s.name).toList.length = 1 := by
    rw [h]
    rfl
  cases τ with
  | var v =>
      have hmem : ∀ c ∈ (toString v).toList, c = '?' := by
        intro c hc
        have : c ∈ "?".toList := by
          rw [← h, Tree.render, name, String.toList_append]
          exact List.mem_append_right _ hc
        exact List.mem_singleton.1 this
      obtain ⟨c, hc⟩ : ∃ c, c ∈ (toString v).toList := by
        rw [toList_toString]
        exact List.exists_mem_of_ne_nil _ Nat.toDigits_ne_nil
      have := isDigit_of_mem_toString hc
      rw [hmem c hc] at this
      exact absurd this (by decide)
  | arrow π ρ =>
      simp [Tree.render] at hlength
      omega
  | _ => simp [Tree.render] at hlength

/-- A message that begins with the name of a variable tells which. -/
theorem eq_of_message {v w : Nat} {x y : String}
    (h : "unify: " ++ s.name v ++ " := " ++ x
      = "unify: " ++ s.name w ++ " := " ++ y) : v = w := by
  replace h := congrArg String.toList h
  simp only [name, String.toList_append, List.append_assoc,
    List.append_cancel_left_eq, toList_toString] at h
  exact (toDigits_append_inj (by simp [NoDigit]) (by simp [NoDigit]) h).1

-- ===================================================== store and snapshot

/-- The line of a variable in the snapshot. -/
theorem snapshot_getElem? (hv : v < s.size) : s.snapshot[v]? = some
    (s.name v, if s.isBound v then s.render (.var v) else "?") := by
  simp [snapshot, List.getElem?_range hv]

/-- Only the variables of the store have a line. -/
theorem lt_size_of_snapshot {line : String × String}
    (h : s.snapshot[v]? = some line) : v < s.size := by
  obtain ⟨hlt, -⟩ := List.getElem?_eq_some_iff.1 h
  unfold snapshot at hlt
  rw [List.length_map, List.length_range] at hlt
  exact hlt

/-- A snapshot tells which variables have a link. -/
theorem bound_snapshot_iff :
    Snapshot.Bound s.snapshot v ↔ s.isBound v = true := by
  constructor
  · rintro ⟨name, value, hv, hne⟩
    rw [snapshot_getElem? (lt_size_of_snapshot hv)] at hv
    by_contra hb
    rw [if_neg hb] at hv
    exact hne (Prod.mk.inj (Option.some.inj hv)).2.symm
  · intro hb
    obtain ⟨a, ha⟩ := Option.isSome_iff_exists.1 hb
    refine ⟨s.name v, s.render (.var v), ?_, render_ne_placeholder s _⟩
    rw [snapshot_getElem? (lt_size_of_link? ha), if_pos hb]

/-- Shortening links does not show. -/
theorem Shortens.snapshot (h : s.Shortens s') (hs : s.Acyclic) :
    s'.snapshot = s.snapshot := by
  have hname : s'.name = s.name := by
    funext v
    unfold name
    rw [h.stem]
  unfold Store.snapshot render
  rw [h.size, hname]
  simp only [h.isBound, h.tree hs]

/-- A fresh variable stands for itself, as before. -/
theorem WellFormed.assign_fresh (h : s.WellFormed) :
    s.fresh.2.assign = s.assign := by
  have hsolved := (Step.fresh.wellFormed h).acyclic.solvedBy_assign
  refine SolvedBy.eq_assign (fun v a hv => hsolved v a ?_) h.acyclic ?_
  · rw [link?_fresh]
    exact hv
  · intro v hv
    refine assign_of_none ?_
    rw [link?_fresh]
    exact hv

/-- A new variable is a new line. -/
theorem WellFormed.extended_fresh (h : s.WellFormed) :
    Snapshot.Extended s.snapshot s.fresh.2.snapshot := by
  have hbound : ∀ v, s.fresh.2.isBound v = s.isBound v := by
    intro v
    unfold isBound
    rw [link?_fresh]
  have hnew : s.isBound s.size = false := by
    refine isBound_eq_false_iff.2 (Option.eq_none_iff_forall_ne_some.2 ?_)
    exact fun a ha => Nat.lt_irrefl _ (lt_size_of_link? ha)
  refine ⟨[(s.name s.size, "?")], ?_, ?_⟩
  · unfold snapshot render tree
    rw [size_fresh, List.range_succ, List.map_append, h.assign_fresh]
    simp only [hbound, List.map_cons, List.map_nil, hnew]
    rfl
  · intro line hline
    rw [List.mem_singleton.1 hline]

/-- The names of a snapshot are those of the variables, in order. -/
theorem names_snapshot :
    s.snapshot.map Prod.fst = (List.range s.size).map s.name := by
  unfold snapshot
  rw [List.map_map]
  rfl

/-- The line of the variable shows the type that it is linked to, and the
message has both. -/
theorem binds_event {b : Bond} {node : Option String} (hs : b.store.Acyclic)
    (hlink : b.store.link? b.var = some b.type) :
    (b.event node).Binds b.var := by
  have hrender : b.store.render (.var b.var) = b.store.render b.type := by
    unfold render
    rw [show b.store.tree (.var b.var) = b.store.tree b.type from
      hs.assign_of_link hlink]
  have hbound : b.store.isBound b.var = true := by
    rw [isBound, hlink]
    rfl
  refine ⟨b.store.name b.var, b.store.render b.type, b.reason, ?_, rfl⟩
  show b.store.snapshot[b.var]? = _
  rw [snapshot_getElem? (lt_size_of_link? hlink), if_pos hbound, hrender]

/-- The event of a link names the variable that is linked. -/
theorem eq_of_names_event {b : Bond} {node : Option String}
    (h : (b.event node).Names v) : v = b.var := by
  obtain ⟨name, value, text, hline, hmessage⟩ := h
  replace hline : b.store.snapshot[v]? = some (name, value) := hline
  rw [snapshot_getElem? (lt_size_of_snapshot hline)] at hline
  obtain rfl := (Prod.mk.inj (Option.some.inj hline)).1
  refine (eq_of_message (x := b.store.render b.type ++ " (" ++ b.reason ++ ")")
    (y := text) (s := b.store) ?_).symm
  rw [← hmessage]
  simp only [Bond.event, linkText, String.append_assoc]

/-- A link is seen in the line of its variable, and told. -/
theorem follows_link {b : Bond} {node : Option String} (h : s.WellFormed)
    (hv : b.var < s.size) (hfree : s.link? b.var = none)
    (ha : b.type.Within s.size) (hocc : b.var ∉ (s.tree b.type).vars)
    (hstore : b.store = s.setLink b.var b.type) :
    Follows s.snapshot (b.event node) := by
  have hs := ((Step.link hv hfree ha hocc).wellFormed h).acyclic
  rw [← hstore] at hs
  have hlink : ∀ w, b.store.link? w
      = if w = b.var then some b.type else s.link? w := by
    intro w
    rw [hstore]
    exact link?_setLink hv
  have hself : b.store.link? b.var = some b.type := by
    rw [hlink, if_pos rfl]
  refine ⟨?_, fun hc => absurd rfl hc, fun _ => ?_⟩
  · show s.snapshot.map Prod.fst <+: b.store.snapshot.map Prod.fst
    rw [names_snapshot, names_snapshot, hstore, size_setLink]
    exact List.prefix_rfl
  · refine ⟨b.var, binds_event hs hself, fun _ => eq_of_names_event, ?_, ?_⟩
    · rw [bound_snapshot_iff, isBound, hfree]
      exact Bool.false_ne_true
    · intro w
      show Snapshot.Bound b.store.snapshot w ↔ _
      rw [bound_snapshot_iff, bound_snapshot_iff, isBound, isBound, hlink]
      by_cases hw : w = b.var
      · simp [hw]
      · simp [hw]

-- ============================================ variables that get a link

/-- The variables that have a link in `s'` and had none in `s`. -/
def boundSince (s s' : Store) : Finset Nat :=
  (Finset.range s'.size).filter fun v =>
    s'.isBound v = true ∧ s.isBound v = false

/-- The variables bound since are those that were not. -/
theorem mem_boundSince : v ∈ s.boundSince s' ↔
    s'.isBound v = true ∧ s.isBound v = false := by
  unfold boundSince
  rw [Finset.mem_filter, Finset.mem_range]
  refine and_iff_right_of_imp fun h => ?_
  obtain ⟨a, ha⟩ := Option.isSome_iff_exists.1 h.1
  exact lt_size_of_link? ha

/-- Where nothing is bound, none is. -/
theorem boundSince_eq_empty (h : ∀ v, s'.isBound v = s.isBound v) :
    s.boundSince s' = ∅ := by
  refine Finset.eq_empty_of_forall_notMem fun v hv => ?_
  obtain ⟨hb, hfree⟩ := mem_boundSince.1 hv
  rw [h, hfree] at hb
  cases hb

/-- A link binds the one variable it is set for. -/
theorem boundSince_setLink (hv : v < s.size) (hfree : s.link? v = none) :
    s.boundSince (s.setLink v a) = {v} := by
  ext w
  rw [Finset.mem_singleton, mem_boundSince, isBound, isBound,
    link?_setLink hv]
  by_cases hw : w = v
  · simp [hw, hfree]
  · simp [hw, Option.isSome_iff_ne_none]

/-- Links stay, so what is bound on the way is bound once. -/
theorem Grows.card_boundSince {s'' : Store} (h : s.Grows s')
    (h' : s'.Grows s'') : (s.boundSince s'').card
      = (s.boundSince s').card + (s'.boundSince s'').card := by
  have hdisjoint : Disjoint (s.boundSince s') (s'.boundSince s'') := by
    refine Finset.disjoint_left.2 fun v hv hv' => ?_
    have hb := (mem_boundSince.1 hv).1
    have hfree := (mem_boundSince.1 hv').2
    rw [hb] at hfree
    cases hfree
  rw [← Finset.card_union_of_disjoint hdisjoint]
  refine congrArg Finset.card (Finset.ext fun v => ?_)
  have hstay := h.isBound (v := v)
  have hstay' := h'.isBound (v := v)
  rw [Finset.mem_union, mem_boundSince, mem_boundSince, mem_boundSince]
  cases hb : Store.isBound s v <;> cases hb' : Store.isBound s' v <;>
    simp_all

end Store

-- ======================================================== whole runs

/-- A note shows that nothing has changed. -/
theorem follows_note {category : Category} {message : String}
    {node : Option String} {p : Snapshot} (h : category ≠ .success) :
    Follows p { message, category, snapshot := p, node } :=
  ⟨List.prefix_rfl, fun _ => .refl p, fun hc => absurd hc h⟩

namespace Tracer

variable {t t' t'' : Tracer}

/-- From one tracer to a later one the trace gets longer by events that
can be replayed, one for each variable that gets a link. -/
def Replayed (t t' : Tracer) : Prop :=
  ∃ events, t'.events.toList = t.events.toList ++ events ∧
    Replays t.store.snapshot events t'.store.snapshot ∧
    events.countP (fun e => e.category == .success)
      = (t.store.boundSince t'.store).card

/-- A step without an event that binds nothing is replayed by no event.
-/
theorem replayed_of_extended (hevents : t'.events = t.events)
    (hx : Snapshot.Extended t.store.snapshot t'.store.snapshot)
    (hbound : ∀ v, t'.store.isBound v = t.store.isBound v) :
    t.Replayed t' := by
  refine ⟨[], ?_, hx, ?_⟩
  · rw [hevents, List.append_nil]
  · rw [Store.boundSince_eq_empty hbound]
    rfl

/-- Replays go on one after the other, and their counts add up. -/
theorem Replayed.trans (h : t.Replayed t') (h' : t'.Replayed t'')
    (hg : t.store.Grows t'.store) (hg' : t'.store.Grows t''.store) :
    t.Replayed t'' := by
  obtain ⟨events, hevents, hreplays, hcount⟩ := h
  obtain ⟨events', hevents', hreplays', hcount'⟩ := h'
  refine ⟨events ++ events', ?_, hreplays.append hreplays', ?_⟩
  · rw [hevents', hevents, List.append_assoc]
  · rw [List.countP_append, hcount, hcount', hg.card_boundSince hg']

/-- Each step is replayed by its events. -/
theorem Step.replayed (h : t.Step t') (ht : t.store.WellFormed) :
    t.Replayed t' := by
  cases h with
  | fresh =>
      refine replayed_of_extended rfl ht.extended_fresh fun v => ?_
      unfold Store.isBound
      rw [Store.link?_fresh]
  | shorten hsh =>
      refine replayed_of_extended rfl ?_ hsh.isBound
      rw [hsh.snapshot ht.acyclic]
      exact .refl _
  | @note category message node hc _ =>
      refine ⟨[_], Array.toList_push, ⟨follows_note hc, .refl _⟩, ?_⟩
      show _ = (t.store.boundSince t.store).card
      rw [Store.boundSince_eq_empty fun _ => rfl]
      simp [hc]
  | link b node hv hfree ha hocc hstore =>
      refine ⟨[b.event node], Array.toList_push, ⟨?_, .refl _⟩, ?_⟩
      · exact Store.follows_link ht hv hfree ha hocc hstore
      · show _ = (t.store.boundSince b.store).card
        rw [hstore, Store.boundSince_setLink hv hfree]
        rfl

/-- So is every run, step by step. -/
theorem Evolves.replayed (h : t.Evolves t') (ht : t.store.WellFormed) :
    t.Replayed t' := by
  induction h with
  | refl => exact replayed_of_extended rfl (.refl _) fun _ => rfl
  | tail hrun hstep ih =>
      have hgrows := Evolves.grows hrun
      exact ih.trans (hstep.replayed (hgrows.wellFormed ht)) hgrows hstep.grows

end Tracer

/-- A run of inference can be replayed, whatever its end. The trace
gets longer by events that each follow the snapshot before them, the
first that of the store at the start. There is one event for each
variable that gets a link, and no two name the same. -/
theorem analyze_replays {limit k : Nat} {scope : Scope} {e : Expr}
    {t t' : Tracer} (ht : t.store.WellFormed)
    (hscope : scope.Within t.store.size)
    (hrun : (∃ a, analyze limit scope k e t = .ok a t') ∨
      ∃ halt, analyze limit scope k e t = .error halt t') :
    ∃ events, t'.events.toList = t.events.toList ++ events ∧
      Replays t.store.snapshot events t'.store.snapshot ∧
      events.countP (fun e => e.category == .success)
        = (t.store.boundSince t'.store).card ∧
      events.Pairwise fun e e' => e.category = .success →
        e'.category = .success → ∀ v, e.Names v → ¬ e'.Names v := by
  have hends : Ends (analyze limit scope k e) t _ _ :=
    evolves_analyze ht hscope
  have hevolves : t.Evolves t' := by
    rcases hrun with ⟨a, hrun⟩ | ⟨halt, hrun⟩
    · exact hends.of_ok hrun
    · exact hends.of_error hrun
  obtain ⟨events, hevents, hreplays, hcount⟩ := hevolves.replayed ht
  exact ⟨events, hevents, hreplays, hcount, hreplays.pairwise⟩

/-- In `fun x -> x + true` the parameter gets a link before inference
halts: one event says so, and it stays with the trace. -/
theorem analyze_replays_halfway : ∃ (halt : Halt) (t' : Tracer),
    analyze 3 [] 0 (.lambda "x" (.binary "+" (.var "x") (.bool true))) {}
        = .error halt t' ∧
      Replays [] t'.events.toList [("T0", "Int")] ∧
      t'.events.toList.countP (fun e => e.category == .success) = 1 := by
  obtain ⟨halt, t', hrun, hsnapshot, hbound⟩ : ∃ (halt : Halt) (t' : Tracer),
      analyze 3 [] 0 (.lambda "x" (.binary "+" (.var "x") (.bool true))) {}
          = .error halt t' ∧
        t'.store.snapshot = [("T0", "Int")] ∧
        (Store.boundSince {} t'.store).card = 1 :=
    ⟨_, _, rfl, by decide +kernel, by decide +kernel⟩
  obtain ⟨events, hevents, hreplays, hcount, -⟩ :=
    analyze_replays (by decide) (by decide) (Or.inr ⟨halt, hrun⟩)
  refine ⟨halt, t', hrun, ?_, ?_⟩
  · rw [hevents, ← hsnapshot]
    exact hreplays
  · rw [hevents, ← hbound]
    exact hcount

end InferTrace
