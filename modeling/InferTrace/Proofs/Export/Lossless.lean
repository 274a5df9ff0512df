/-
The JSON text of a run holds all of its outcome.

Nodes are named by their places, but nothing hangs on that: an outcome
may be handed on with other names for them (`Outcome.renamed`). As long
as none of these is empty, the text can be decoded. For that the error of
a run has to be of a node of the expression if it is of a node at all;
it is of none while there is no expression (`place_of_parseSource`), and
of one that was visited after that (`node_of_inferWithin`).

Two halves of a surrogate pair that follow each other in a source, or in
the name of its file, are written as the character that they make up
would be. Such a text does not tell which of the two it was
(`run_exported_pair`); every other text does (`run_exported`).
-/
import InferTrace.Proofs.Export.Decoding
import InferTrace.Proofs.Limit
import InferTrace.Proofs.Trace.Visits

namespace InferTrace

open Json
open Text (Point Points)

variable {limits : Limits} {mode : Mode} {source : Points} {fault : Fault}
  {e : Expr} {t : Tracer}

-- =============================================================== runs

/-- A fault of inference is of a node. -/
theorem node_of_inferPruned (limit : Nat) (e : Expr) (hlimit : 0 < limit) :
    Ends (inferPruned limit [] e) {} (fun _ _ => True) fun halt _ =>
      ∀ f, halt = .fault f → ∃ k, f.node = some (nodeName k) := by
  have htours := (tours_root (e := e) [] 0 hlimit).ends_run
    (ready_script (s := {}) (wellFormed_of_empty rfl) (by simp [Scope.Within]))
    (List.append_nil ({} : Tracer).visits).symm
  rw [inferPruned, ends_bind]
  refine htours.mono (fun _ _ _ => trivial) ?_
  rintro _ _ ⟨n, hstops, -⟩ f rfl
  cases hstops with
  | fault _ _ hnode _ => exact ⟨_, hnode⟩

/-- It is of one under any limits. -/
theorem node_of_inferWithin
    (h : inferWithin limits [] e {} = .error (.fault fault) t) :
    ∃ k, fault.node = some (nodeName k) := by
  rcases curbed_from_start limits e with heq | ⟨t₁, hstop, -⟩
  · exact (node_of_inferPruned e.depth e e.depth_pos).of_error
      (heq.symm.trans h) fault rfl
  · rw [h] at hstop
    cases hstop

-- ============================================================= texts

/-- The details of a cause can be read back if the character that it
complains of can. -/
theorem Cause.plain_details {cause : Cause}
    (h : ∀ p, cause = .strayCharacter p → p.Unpaired) :
    (Json.obj cause.details).Plain := by
  apply Plain.obj
  · cases cause <;> simp [details]
  · cases cause with
    | strayCharacter p => simp [details, Plain.text (h p rfl)]
    | _ => simp [details, Plain.str, Plain.int]

theorem mem_of_mem_codesFrom {n : Nat} {q : Position} : ∀ {points : List Point}
    {p : Position}, (q, n) ∈ codesFrom p points → .code n ∈ points := by
  intro points
  induction points with
  | nil => exact fun h => absurd h List.not_mem_nil
  | cons x points ih =>
      intro p h
      rcases List.mem_append.1 h with h | h
      · cases x with
        | char c => exact absurd h List.not_mem_nil
        | code m =>
            cases List.mem_singleton.1 h
            exact List.mem_cons_self
      · exact List.mem_cons_of_mem _ (ih h)

theorem mem_of_codeAt? {place : Location} {n : Nat}
    (h : codeAt? source place = some n) : .code n ∈ source.toList := by
  obtain ⟨⟨q, m⟩, hfind, rfl⟩ := Option.map_eq_some_iff.1 h
  exact mem_of_mem_codesFrom (List.mem_of_find?_eq_some hfind)

/-- One point of a text has no partner in itself. -/
theorem Text.Points.Unpaired.single (h : source.Unpaired) {x : Point}
    (hx : x ∈ source.toList) : Points.Unpaired ⟨[x]⟩ :=
  ⟨fun _ hy => List.mem_singleton.1 hy ▸ h.half x hx, .singleton x⟩

/-- What a source is found fault with is a character or a code of it. -/
theorem unpaired_of_parsePoints (hsource : source.Unpaired)
    (h : parsePoints limits.parsing mode source = .error (.fault fault)) :
    ∀ p, fault.cause = .strayCharacter p → p.Unpaired := by
  intro p hp
  obtain ⟨halt, hparse, hhalt⟩ := exists_parseSource_of_parsePoints h
  cases halt with
  | tooDeep | tooLong | rebound => cases hhalt
  | fault f =>
      cases hhalt
      unfold Fault.restored at hp
      split at hp
      · next n _ hcode =>
        cases hp
        obtain ⟨place, -, hat⟩ := Option.bind_eq_some_iff.1 hcode
        exact hsource.single (mem_of_codeAt? hat)
      · rcases scan_or_tokens_of_parseSource hparse with
          hscan | ⟨expected, token, hunexpected⟩
        · obtain ⟨c, rfl⟩ := (place_of_scanSource hscan).2.2 p hp
          exact Points.unpaired_ofString _
        · obtain ⟨found, rfl⟩ := eq_of_unexpected hunexpected.symm
          cases hp

namespace Outcome

variable {o : Outcome} {ρ : String → String}

/-- The error of a run is the report of a fault. Its node, if any, is one
of the expression; its place, if any, is in the file of the source; and
if it complains of a character, that can be read back. -/
theorem exists_fault_of_run {d : Diagnostic} (hsource : source.Unpaired)
    (hrun : run limits mode source = .ok o) (hd : o.error = some d) :
    ∃ fault : Fault, d = fault.diagnostic ∧
      (fault.node = none ∨ ∃ k, fault.node = some (nodeName k)) ∧
      (∀ l, fault.location = some l → l.file = mode.file) ∧
      ∀ p, fault.cause = .strayCharacter p → p.Unpaired := by
  cases hparse : parsePoints limits.parsing mode source with
  | error halt =>
      obtain ⟨fault, hfault, -⟩ := atStage_of_parsePoints hparse
      rw [run_of_parse_error hparse hfault] at hrun
      cases hrun
      refine ⟨fault, (Option.some.inj hd).symm, ?_⟩
      rcases halt_of_parsePoints hparse with rfl | ⟨f, rfl, -⟩
      · cases hfault
        exact ⟨Or.inl rfl, nofun, nofun⟩
      · cases hfault
        obtain ⟨⟨l, hl, hfile⟩, hnode⟩ := place_of_parsePoints hparse
        refine ⟨Or.inl hnode, fun l' hl' => ?_,
          unpaired_of_parsePoints hsource hparse⟩
        cases hl.symm.trans hl'
        exact hfile
  | ok e =>
      cases hinfer : inferWithin limits [] e {} with
      | ok type t =>
          rw [run_of_infer_ok hparse hinfer] at hrun
          obtain ⟨-, rfl⟩ := eq_of_closed hrun
          cases hd
      | error halt t =>
          have htyping := (ofTyping_inferWithin
            (expressible_of_parsePoints hparse) limits).of_error hinfer
          rcases htyping with rfl | ⟨f, rfl, hlocation, hkind⟩
          · rw [run_of_infer_error hparse hinfer rfl] at hrun
            obtain ⟨-, rfl⟩ := eq_of_closed hrun
            exact ⟨_, (Option.some.inj hd).symm, Or.inr ⟨0, rfl⟩, nofun, nofun⟩
          · rw [run_of_infer_error hparse hinfer rfl] at hrun
            obtain ⟨-, rfl⟩ := eq_of_closed hrun
            refine ⟨f, (Option.some.inj hd).symm,
              Or.inr (node_of_inferWithin hinfer), ?_, ?_⟩
            · simp [hlocation]
            · intro p hp
              simp [hp, Cause.kind] at hkind

-- ======================================================= other names

/-- The nodes of an outcome go by other names in its events and its
error. -/
def renamed (ρ : String → String) (o : Outcome) : Outcome :=
  { o with
    error := o.error.map fun d => { d with node := d.node.map ρ }
    trace := o.trace.map fun ev => { ev with node := ev.node.map ρ } }

theorem renamed_id (o : Outcome) : o.renamed id = o := by
  simp [renamed]

/-- All of an outcome whose nodes go by other names: what it says, and
how the nodes of the expression are called. -/
def under (ρ : String → String) (o : Outcome) : Outcome × List String :=
  (o.renamed ρ, o.nodeNames fun k => ρ (nodeName k))

/-- The JSON text of an outcome whose nodes go by other names. -/
def exported (ρ : String → String) (indent : Option Nat) (o : Outcome) :
    String :=
  ((o.renamed ρ).toJson fun k => ρ (nodeName k)).render indent

theorem exportable_of_run (hrun : run limits mode source = .ok o)
    (hsource : source.Unpaired) (hfile : mode.file.Unpaired)
    (hρ : ∀ k, ρ (nodeName k) ≠ "") : (o.renamed ρ).Exportable := by
  have hfault : ∀ d, (o.renamed ρ).error = some d →
      d.node ≠ some "" ∧ (Json.obj d.details).Plain ∧
        ∀ l, d.location = some l → l.file.Unpaired := by
    intro d hd
    obtain ⟨d', hd', rfl⟩ := Option.map_eq_some_iff.1 hd
    obtain ⟨fault, rfl, hnode, hplace, hchar⟩ :=
      exists_fault_of_run hsource hrun hd'
    refine ⟨?_, Cause.plain_details hchar, fun l hl => ?_⟩
    · show fault.node.map ρ ≠ some ""
      rcases hnode with hnode | ⟨k, hnode⟩
      · simp [hnode]
      · simp [hnode, hρ k]
    · rw [hplace l hl]
      exact hfile
  refine ⟨?_, fun d l hd => (hfault d hd).2.2 l, fun d hd => (hfault d hd).1,
    fun d hd => (hfault d hd).2.1⟩
  rw [show (o.renamed ρ).source = source from (wellFormed_run hrun).1]
  exact hsource

theorem decode_exported (hrun : run limits mode source = .ok o)
    (hsource : source.Unpaired) (hfile : mode.file.Unpaired)
    (hρ : ∀ k, ρ (nodeName k) ≠ "") (indent : Option Nat) :
    decode (o.exported ρ indent) = some (o.under ρ) := by
  have hread := decode_render (exportable_of_run hrun hsource hfile hρ)
    (fun k => ρ (nodeName k)) indent (b := "") (by simp)
  rwa [String.append_empty] at hread

/-- The JSON text of a run loses nothing, if no two halves make up a
surrogate pair in the source or in the name of its file. Whatever the
nodes are called, if only each of them is called something, the outcome
and the names are decoded from the text in every layout. So runs with the
same text, be it in different layouts, have the same outcome and the same
names. -/
theorem run_exported (hrun : run limits mode source = .ok o)
    (hsource : source.Unpaired) (hfile : mode.file.Unpaired)
    (hρ : ∀ k, ρ (nodeName k) ≠ "") :
    (∀ indent, decode (o.exported ρ indent) = some (o.under ρ)) ∧
      ∀ (limits' : Limits) (mode' : Mode) (source' : Points) (o' : Outcome)
        (ρ' : String → String), run limits' mode' source' = .ok o' →
        source'.Unpaired → mode'.file.Unpaired →
        (∀ k, ρ' (nodeName k) ≠ "") → ∀ indent indent',
        o.exported ρ indent = o'.exported ρ' indent' →
          o.under ρ = o'.under ρ' := by
  refine ⟨decode_exported hrun hsource hfile hρ, ?_⟩
  intro limits' mode' source' o' ρ' hrun' hsource' hfile' hρ' indent indent'
    htext
  have hread := decode_exported hrun hsource hfile hρ indent
  rw [htext, decode_exported hrun' hsource' hfile' hρ' indent'] at hread
  exact (Option.some.inj hread).symm

/-- `f` is not defined, and the face after it is dropped. The text says
so of the node `#n0`. With the first half of a face instead there is
another text, in whatever layouts. -/
theorem run_exported_undefined :
    let half : Points := ⟨[.char 'f', .char ' ', .code 0xD83D]⟩
    ∃ o o' : Outcome, run (.flat 1 1) {} "f 😀" = .ok o ∧
      run (.flat 1 1) {} half = .ok o' ∧
      (∃ d, o.error = some d ∧ d.node = some (nodeName 0)) ∧
      decode (o.exported ("#" ++ ·) (some 2)) = some (o.under ("#" ++ ·)) ∧
      (o.under ("#" ++ ·)).2 = ["#n0"] ∧
      ∀ indent indent', o.exported ("#" ++ ·) indent
        ≠ o'.exported ("#" ++ ·) indent' := by
  intro half
  have hρ : ∀ k, "#" ++ nodeName k ≠ "" := by
    intro k
    simp [nodeName]
  have hhalf : half.Unpaired := ⟨by decide, by decide⟩
  have hparse : parsePoints 1 {} "f 😀" = .ok (.var "f") := by
    cbv
  have hparse' : parsePoints 1 {} half = .ok (.var "f") := by
    cbv
  obtain ⟨t, hinfer, hroom⟩ : ∃ t, inferWithin (.flat 1 1) [] (.var "f") {}
      = .error (.fault { cause := .undefinedVariable "f"
                         node := some (nodeName 0) }) t ∧
      t.store.canSnapshot 1 = true := ⟨_, rfl, rfl⟩
  have hrun := (run_of_infer_error hparse hinfer rfl).trans (if_pos hroom)
  have hrun' := (run_of_infer_error hparse' hinfer rfl).trans (if_pos hroom)
  obtain ⟨hdecode, hsame⟩ := run_exported hrun
    (Points.unpaired_ofString _) (Points.unpaired_ofString _) hρ
  refine ⟨_, _, hrun, hrun', ⟨_, rfl, rfl⟩, hdecode _, ?_, ?_⟩
  · show ["#" ++ nodeName 0] = ["#n0"]
    decide
  intro indent indent' htext
  have heq := hsame _ {} half _ ("#" ++ ·) hrun' hhalf
    (Points.unpaired_ofString _) hρ indent indent' htext
  have hsource := congrArg (fun p => p.1.source) heq
  revert hsource
  show Points.ofString "f 😀" ≠ half
  decide

/-- The text of an object with a text in its first field shows the points
of that text only as they are written. -/
theorem render_obj_congr {p q : Points} (h : writeText p = writeText q)
    (key : String) (fields : List (String × Json)) (indent : Option Nat) :
    (Json.obj ((key, .str p) :: fields)).render indent
      = (Json.obj ((key, .str q) :: fields)).render indent := by
  simp only [Json.render, Json.renderAt, Json.fieldTexts, h]

/-- The two halves of a face, and the face: two sources of different
outcomes, with one text in every layout. -/
theorem run_exported_pair :
    let halves : Points :=
      ⟨[.char '1', .char ' ', .code 0xD83D, .code 0xDE00]⟩
    ∃ o o' : Outcome, run (.flat 1 1) {} halves = .ok o ∧
      run (.flat 1 1) {} "1 😀" = .ok o' ∧ o.source ≠ o'.source ∧
      ∀ indent, o.exported id indent = o'.exported id indent := by
  intro halves
  have hparse : parsePoints 1 {} halves = .ok (.int 1) := by
    cbv
  have hparse' : parsePoints 1 {} "1 😀" = .ok (.int 1) := by
    cbv
  obtain ⟨t, hinfer, hroom⟩ : ∃ t, inferWithin (.flat 1 1) [] (.int 1) {}
      = .ok .int t ∧ t.store.canSnapshot 1 = true := ⟨_, rfl, rfl⟩
  have hrun := (run_of_infer_ok hparse hinfer).trans (if_pos hroom)
  have hrun' := (run_of_infer_ok hparse' hinfer).trans (if_pos hroom)
  have hne : halves ≠ "1 😀" := by decide
  have htext : writeText halves = writeText "1 😀" := by decide
  exact ⟨_, _, hrun, hrun', hne, render_obj_congr htext _ _⟩

end Outcome

end InferTrace
