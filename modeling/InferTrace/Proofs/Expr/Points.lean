/-
Sources by code points are parsed as texts are.

A code that is no character is part of no lexeme, and neither is the
character that replaces it. So a source is parsed as the text that shows
it is (`parsePoints_eq`); only a report of such a code has to be told
with the code itself. Where there is nothing but characters, there is
nothing to tell apart (`parsePoints_ofString`).

A source that is not parsed nests too deep, or a report says which of its
characters or tokens does not fit (`halt_of_parsePoints`). The scanner
lets no number pass that has too many digits, so there is always a text
for the report.
-/
import InferTrace.Proofs.Expr.File
import InferTrace.Proofs.Expr.Limit
import InferTrace.Proofs.Expr.Source

namespace InferTrace

open Text (Point Points)

variable {limit limit' : Nat} {mode : Mode} {points : Points} {e : Expr}
  {fault : Fault} {halt : Halt}

-- ============================================================ digits

theorem Number.isShort_of_nonneg {n : Int} (h : 0 ≤ n)
    (hlen : (toString n).length ≤ maxDigits) : isShort n = true := by
  obtain ⟨k, rfl⟩ := Int.eq_ofNat_of_zero_le h
  have htext : toString (k : Int) = String.ofList (Nat.toDigits 10 k) := rfl
  unfold isShort
  rw [htext, String.length_ofList] at hlen
  exact decide_eq_true hlen

-- ============================================================= texts

/-- A text that is not parsed nests too deep, or there is a fault of its
characters or of its tokens, at a place in its file. -/
theorem halt_of_parseSource {source : String}
    (h : parseSource limit mode source = .error halt) :
    halt = .tooDeep ∨ ∃ f, halt = .fault f ∧
      (f.cause.kind = .lexical ∨ f.cause.kind = .grammatical) := by
  have hfair := Cursor.fair_scan (.ofSource source) mode
  unfold parseSource scanSource at h
  cases hscan : ((Cursor.ofSource source).scan mode).result with
  | error fault =>
      rw [hscan] at h hfair
      cases h
      exact Or.inr ⟨fault, rfl, Or.inl hfair⟩
  | ok tokens =>
      rw [hscan] at h hfair
      obtain ⟨body, place, rfl, hbody⟩ := hfair
      rcases halt_of_parseTokens h with
        ⟨expected, token, rfl, hlong⟩ | ⟨rfl, -⟩
      · right
        unfold unexpected
        cases htext : token.text? with
        | some text => exact ⟨_, rfl, Or.inr rfl⟩
        | none =>
            obtain ⟨hmem, n, hn, hlong⟩ := hlong htext
            have hlegible : (Lexeme.number n).Legible := by
              rcases List.mem_append.1 hmem with hmem | hmem
              · exact hn ▸ hbody token hmem
              · rw [List.mem_singleton.1 hmem] at hn
                cases hn
            obtain ⟨hnonneg, hlen⟩ := Expr.legible_number_iff.1 hlegible
            rw [Number.isShort_of_nonneg hnonneg hlen] at hlong
            cases hlong
      · exact Or.inl rfl

-- ======================================================= code points

namespace Fault

theorem kind_restored (points : Points) (f : Fault) :
    (f.restored points).cause.kind = f.cause.kind := by
  unfold restored
  split
  · next hcause _ => simp [hcause, Cause.kind]
  · rfl

theorem location_restored (points : Points) (f : Fault) :
    (f.restored points).location = f.location := by
  unfold restored
  split <;> rfl

theorem node_restored (points : Points) (f : Fault) :
    (f.restored points).node = f.node := by
  unfold restored
  split <;> rfl

end Fault

/-- A halt of a source, told with the code that stands at its place. -/
def Halt.restored (points : Points) : Halt → Halt
  | .fault f => .fault (f.restored points)
  | halt => halt

/-- A source is parsed as the text that shows it. -/
theorem parsePoints_eq (limit : Nat) (mode : Mode) (points : Points) :
    parsePoints limit mode points
      = (parseSource limit mode points.face).mapError
          (Halt.restored points) := by
  unfold parsePoints parseSource scanPoints
  cases (scanSource mode points.face).result with
  | error fault => rfl
  | ok tokens =>
      show parseTokens limit tokens
        = (parseTokens limit tokens).mapError (Halt.restored points)
      cases hrun : parseTokens limit tokens with
      | ok e => rfl
      | error halt =>
          rcases halt_of_parseTokens hrun with
            ⟨expected, token, rfl, -⟩ | ⟨rfl, -⟩
          · unfold unexpected
            cases token.text? with
            | none | some text => rfl
          · rfl

theorem parseSource_of_parsePoints (h : parsePoints limit mode points = .ok e) :
    parseSource limit mode points.face = .ok e := by
  rw [parsePoints_eq] at h
  cases hsource : parseSource limit mode points.face with
  | ok e' =>
      rw [hsource] at h
      exact h
  | error halt =>
      rw [hsource] at h
      cases h

/-- A source that is not parsed is the text that shows it, told with its
codes. -/
theorem exists_parseSource_of_parsePoints
    (h : parsePoints limit mode points = .error halt) :
    ∃ halt', parseSource limit mode points.face = .error halt' ∧
      halt = halt'.restored points := by
  rw [parsePoints_eq] at h
  cases hsource : parseSource limit mode points.face with
  | ok e' =>
      rw [hsource] at h
      cases h
  | error halt' =>
      rw [hsource] at h
      cases h
      exact ⟨halt', rfl, rfl⟩

/-- A source that is not parsed nests too deep, or there is a fault of
its characters or of its tokens. -/
theorem halt_of_parsePoints (h : parsePoints limit mode points = .error halt) :
    halt = .tooDeep ∨ ∃ f, halt = .fault f ∧
      (f.cause.kind = .lexical ∨ f.cause.kind = .grammatical) := by
  obtain ⟨halt', hsource, rfl⟩ := exists_parseSource_of_parsePoints h
  rcases halt_of_parseSource hsource with rfl | ⟨f, rfl, hkind⟩
  · exact Or.inl rfl
  · refine Or.inr ⟨f.restored points, rfl, ?_⟩
    rw [Fault.kind_restored]
    exact hkind

/-- A fault of a source has a place in its file, and no node. -/
theorem place_of_parsePoints
    (h : parsePoints limit mode points = .error (.fault fault)) :
    (∃ l, fault.location = some l ∧ l.file = mode.file) ∧
      fault.node = none := by
  obtain ⟨halt', hsource, hhalt⟩ := exists_parseSource_of_parsePoints h
  cases halt' with
  | tooDeep | tooLong | rebound => cases hhalt
  | fault f =>
      cases hhalt
      rw [Fault.location_restored, Fault.node_restored]
      exact place_of_parseSource hsource

theorem parsePoints_curbed (hle : limit ≤ limit') (mode : Mode)
    (points : Points) :
    parsePoints limit mode points = .error .tooDeep ∨
      parsePoints limit mode points = parsePoints limit' mode points := by
  rw [parsePoints_eq, parsePoints_eq]
  rcases parseSource_curbed hle mode points.face with hdeep | hsame
  · left
    rw [hdeep]
    rfl
  · right
    rw [hsame]

/-- Some limit is enough for the source. -/
theorem exists_parsePoints_ne_tooDeep (mode : Mode) (points : Points) :
    ∃ ample, parsePoints ample mode points ≠ .error .tooDeep := by
  obtain ⟨ample, hample⟩ := exists_parseSource_ne_tooDeep mode points.face
  refine ⟨ample, fun hdeep => ?_⟩
  obtain ⟨halt', hsource, hhalt⟩ := exists_parseSource_of_parsePoints hdeep
  cases halt' with
  | tooDeep => exact hample ample (Nat.le_refl _) hsource
  | fault | tooLong | rebound => cases hhalt

-- ======================================================== characters

theorem codesFrom_chars (cs : List Char) :
    ∀ p : Position, codesFrom p (cs.map .char) = [] := by
  induction cs with
  | nil => exact fun _ => rfl
  | cons c cs ih =>
      intro p
      exact ih (p.past c)

theorem Text.Points.face_ofString (s : String) : (ofString s).face = s := by
  have hface : Point.face ∘ Point.char = id := rfl
  simp [face, ofString, ofChars, hface]

/-- A text is parsed in the same way by its characters. -/
theorem parsePoints_ofString (limit : Nat) (mode : Mode) (source : String) :
    parsePoints limit mode source = parseSource limit mode source := by
  have hrestored : ∀ f : Fault, f.restored source = f := by
    intro f
    have hcode : f.location.bind (codeAt? source) = none := by
      cases f.location with
      | none => rfl
      | some place =>
          show codeAt? (Points.ofString source) place = none
          rw [codeAt?, Points.ofString, Points.ofChars, codesFrom_chars]
          rfl
    unfold Fault.restored
    rw [hcode]
    cases f.cause <;> rfl
  rw [parsePoints_eq, Points.face_ofString]
  cases parseSource limit mode source with
  | ok e => rfl
  | error halt =>
      cases halt with
      | fault f => exact congrArg (Except.error ∘ Halt.fault) (hrestored f)
      | tooDeep | tooLong | rebound => rfl

end InferTrace
