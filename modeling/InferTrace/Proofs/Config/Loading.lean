/-
Loading the settings: when it gives them, and when it stops.

A file gives settings in one of two ways. If it holds a mapping, each
setting is what the entry under its own key says, or what it is by
default (`Setting.readEntry`). If there is no file, or the system does
not open it, or it is malformed, or it holds something else than a
mapping, then the settings are the defaults (`Settles`).

Not every fault of a file is met like that. The ones that are not are
listed by `Stops`: a path that cannot be handed to the system, bytes
that are no text, whatever a decoder fails for other than that the text
is malformed, and a value that cannot be shown where the text of it is
asked for. And there may be no directory from which to search for a
file.

Both lists are complete, and each rule is one way through the loader, so
that the loader does what they say and nothing else (`load_iff`). The
decoders may be any functions.
-/
import InferTrace.Config.Load
import InferTrace.Proofs.Ends

namespace InferTrace.Config

open Text (Points)

variable {limit : Nat} {decoders : Decoders}
  {look : Points → Except PathFault Item} {path : Points} {v : Value}
  {entries : List (Value × Value)} {abort : Abort} {c : Settings}
  {ns : List Notice}

-- =========================================================== settings

/-- The settings, one by one. -/
inductive Setting where
  | strictLexing
  | format
  | showSnapshots
  | showAstEvents
  | color
  | logLevel
deriving DecidableEq, Repr

namespace Setting

/-- The key of a setting in a file. -/
def key : Setting → String
  | strictLexing => "strict_lexing"
  | format => "format"
  | showSnapshots => "show_snapshots"
  | showAstEvents => "show_ast_events"
  | color => "color"
  | logLevel => "log_level"

/-- What a setting can be. -/
def Choice : Setting → Type
  | format => Format
  | logLevel => Points
  | _ => Bool

/-- A setting among all of them. -/
def get (c : Settings) : (s : Setting) → s.Choice
  | strictLexing => c.strictLexing
  | format => c.format
  | showSnapshots => c.showSnapshots
  | showAstEvents => c.showAstEvents
  | color => c.color
  | logLevel => c.logLevel

/-- What a value says of a setting. Text that names no format asks for
the default. -/
def read (v : Value) : (s : Setting) → s.Choice
  | format => (v.display.string?.bind Format.ofText?).getD .pretty
  | logLevel => v.display.upper
  | strictLexing | showSnapshots | showAstEvents | color => v.truthy

/-- A setting as the entry under its key says, or as it is by default. -/
def readEntry (entries : List (Value × Value)) (s : Setting) : s.Choice :=
  ((Value.entry? s.key entries).map fun v => s.read v).getD (s.get {})

/-- Settings are given by each of them. -/
theorem get_injective {c c' : Settings}
    (h : ∀ s : Setting, s.get c = s.get c') : c = c' := by
  cases c
  cases c'
  have h₁ := h strictLexing
  have h₂ := h format
  have h₃ := h showSnapshots
  have h₄ := h showAstEvents
  have h₅ := h color
  have h₆ := h logLevel
  simp_all [get]

end Setting

-- ============================================================== texts

/-- The value can be shown as text. -/
def Shown (limit : Nat) (v : Value) : Prop :=
  v.depth ≤ limit ∧ v.hasLongNumber Number.maxDigits = false

/-- Why a value cannot be shown. -/
inductive Unshown (limit : Nat) (v : Value) : Abort → Prop
  | tooDeep : limit < v.depth → Unshown limit v .tooDeep
  | long : v.depth ≤ limit → v.hasLongNumber Number.maxDigits = true →
      Unshown limit v (.scalar .numberTooLongToShow)

/-- A value has a text, or there is a reason why it has none. -/
theorem shown_or_unshown (limit : Nat) (v : Value) :
    Shown limit v ∨ ∃ abort, Unshown limit v abort := by
  by_cases hdepth : limit < v.depth
  · exact Or.inr ⟨_, .tooDeep hdepth⟩
  · have hle := Nat.le_of_not_lt hdepth
    cases hlong : v.hasLongNumber Number.maxDigits with
    | false => exact Or.inl ⟨hle, hlong⟩
    | true => exact Or.inr ⟨_, .long hle hlong⟩

/-- A value with a text is read as that text. -/
theorem readText_of_shown (h : Shown limit v) :
    readText limit v ns = .ok v.display ns := by
  unfold readText Value.display?
  rw [if_neg (Nat.not_lt_of_le h.1), h.2]
  rfl

/-- A value without one ends the reading. -/
theorem readText_of_unshown (h : Unshown limit v abort) :
    readText limit v ns = .error abort ns := by
  unfold readText Value.display?
  cases h with
  | tooDeep hdepth =>
      rw [if_pos hdepth]
      rfl
  | long hdepth hlong =>
      rw [if_neg (Nat.not_lt_of_le hdepth), if_pos hlong]
      rfl

/-- The entry under a key, if there is one, can be shown. -/
def ShownUnder (limit : Nat) (entries : List (Value × Value)) (s : Setting) :
    Prop :=
  ∀ v, Value.entry? s.key entries = some v → Shown limit v

/-- Why the entry under a key cannot be shown. -/
def UnshownUnder (limit : Nat) (entries : List (Value × Value)) (s : Setting)
    (abort : Abort) : Prop :=
  ∃ v, Value.entry? s.key entries = some v ∧ Unshown limit v abort

theorem shownUnder_or_unshownUnder (limit : Nat)
    (entries : List (Value × Value)) (s : Setting) :
    ShownUnder limit entries s ∨
      ∃ abort, UnshownUnder limit entries s abort := by
  cases hv : Value.entry? s.key entries with
  | none =>
      left
      intro v h
      rw [hv] at h
      cases h
  | some v =>
      rcases shown_or_unshown limit v with hshown | ⟨abort, hunshown⟩
      · left
        intro w h
        rw [hv] at h
        cases h
        exact hshown
      · exact Or.inr ⟨abort, v, hv, hunshown⟩

-- =========================================================== mappings

/-- A format with a text is read as the setting says. -/
theorem readFormat_of_shown (h : Shown limit v) :
    Ends (readFormat limit .pretty v) ns
      (fun f _ => f = Setting.format.read v) fun _ _ => False := by
  rw [readFormat, ends_bind, Ends, readText_of_shown h]
  show Ends _ ns _ _
  rw [Setting.read]
  cases v.display.string?.bind Format.ofText? with
  | some f => exact rfl
  | none => exact rfl

/-- What a text says of the level. -/
theorem readLevel_of_shown (h : Shown limit v) :
    Ends (Points.upper <$> readText limit v) ns
      (fun l _ => l = Setting.logLevel.read v) fun _ _ => False := by
  rw [map_eq_pure_bind, ends_bind, Ends, readText_of_shown h]
  exact rfl

/-- A setting whose entry can be shown is read from it, or kept. -/
theorem readOr_of_shown {s : Setting} {read : Value → Loading s.Choice}
    (ns : List Notice) (hread : ∀ v, Shown limit v → Ends (read v) ns
      (fun a _ => a = s.read v) fun _ _ => False)
    (h : ShownUnder limit entries s) :
    Ends (readOr (s.get {}) read (Value.entry? s.key entries)) ns
      (fun a _ => a = s.readEntry entries) fun _ _ => False := by
  unfold Setting.readEntry
  cases hv : Value.entry? s.key entries with
  | none => exact rfl
  | some v => exact hread v (h v hv)

/-- Entries with texts are read, each as its setting says. -/
theorem readEntries_of_shown (ns : List Notice)
    (hformat : ShownUnder limit entries .format)
    (hlevel : ShownUnder limit entries .logLevel) :
    Ends (readEntries limit entries) ns
      (fun c _ => ∀ s : Setting, s.get c = s.readEntry entries)
      fun _ _ => False := by
  rw [readEntries, ends_bind]
  refine (readOr_of_shown (s := .format) _ (fun v => readFormat_of_shown)
    hformat).mono ?_ fun _ _ h => h
  rintro _ ns₁ rfl
  rw [ends_bind]
  refine (readOr_of_shown (s := .logLevel) _ (fun v => readLevel_of_shown)
    hlevel).mono ?_ fun _ _ h => h
  rintro _ ns₂ rfl
  rw [ends_pure]
  intro s
  cases s <;> rfl

/-- A format without a text ends the reading. -/
theorem readEntries_of_unshown_format
    (h : UnshownUnder limit entries .format abort) :
    ∃ ns', readEntries limit entries ns = .error abort ns' := by
  obtain ⟨v, hv, hunshown⟩ := h
  have hformat : readOr Format.pretty (readFormat limit .pretty)
      (Value.entry? "format" entries) ns = .error abort ns := by
    rw [show Value.entry? "format" entries = some v from hv]
    exact bind_of_error (readText_of_unshown hunshown)
  exact ⟨ns, bind_of_error hformat⟩

/-- So does a level without a text, behind a format that has one. -/
theorem readEntries_of_unshown_level
    (hformat : ShownUnder limit entries .format)
    (h : UnshownUnder limit entries .logLevel abort) :
    ∃ ns', readEntries limit entries ns = .error abort ns' := by
  obtain ⟨v, hv, hunshown⟩ := h
  obtain ⟨f, ns₁, hrun, -⟩ := (readOr_of_shown (s := .format) ns
    (fun v => readFormat_of_shown) hformat).exists_ok
  have hlevel : readOr (Points.ofString "WARNING")
      (fun v => Points.upper <$> readText limit v)
      (Value.entry? "log_level" entries) ns₁ = .error abort ns₁ := by
    rw [show Value.entry? "log_level" entries = some v from hv]
    show (Points.upper <$> readText limit v) ns₁ = _
    rw [map_eq_pure_bind]
    exact bind_of_error (readText_of_unshown hunshown)
  exact ⟨ns₁, (bind_of_ok hrun).trans (bind_of_error hlevel)⟩

-- ============================================================== files

/-- The file at a path holds a text that is read so. -/
def Holds (decoders : Decoders) (look : Points → Except PathFault Item)
    (path : Points) (reading : Except ReadFault Value) : Prop :=
  ∃ bytes content, openFile look path = .ok bytes ∧
    Text.decodeFile bytes = some content ∧
    readContent decoders path content = reading

/-- The settings that loading gives, with the path of the file, if
any. -/
inductive Settles (limit : Nat) (decoders : Decoders)
    (look : Points → Except PathFault Item) : Option Points → Settings → Prop
  | noFile : Settles limit decoders look none {}
  | unopened {path : Points} {fault : PathFault} :
      openFile look path = .error fault → fault.isOfSystem = true →
      Settles limit decoders look (some path) {}
  | malformed {path : Points} : Holds decoders look path (.error .malformed) →
      Settles limit decoders look (some path) {}
  | noMapping {path : Points} {v : Value} : Holds decoders look path (.ok v) →
      (∀ entries, v ≠ .mapping entries) →
      Settles limit decoders look (some path) {}
  | mapping {path : Points} {entries : List (Value × Value)} {c : Settings} :
      Holds decoders look path (.ok (.mapping entries)) →
      ShownUnder limit entries .format → ShownUnder limit entries .logLevel →
      (∀ s : Setting, s.get c = s.readEntry entries) →
      Settles limit decoders look (some path) c

/-- What stops the loading of the file at a path. -/
inductive Stops (limit : Nat) (decoders : Decoders)
    (look : Points → Except PathFault Item) : Option Points → Abort → Prop
  | unopened {path : Points} {fault : PathFault} :
      openFile look path = .error fault → fault.isOfSystem = false →
      Stops limit decoders look (some path) (.unopened fault)
  | undecodable {path : Points} {bytes : ByteArray} :
      openFile look path = .ok bytes → Text.decodeFile bytes = none →
      Stops limit decoders look (some path) .undecodable
  | scalar {path : Points} {fault : ScalarFault} :
      Holds decoders look path (.error (.scalar fault)) →
      Stops limit decoders look (some path) (.scalar fault)
  | decoder {path : Points} {reason : String} :
      Holds decoders look path (.error (.other reason)) →
      Stops limit decoders look (some path) (.decoder reason)
  | tooDeep {path : Points} : Holds decoders look path (.error .tooDeep) →
      Stops limit decoders look (some path) .tooDeep
  | format {path : Points} {entries : List (Value × Value)} {abort : Abort} :
      Holds decoders look path (.ok (.mapping entries)) →
      UnshownUnder limit entries .format abort →
      Stops limit decoders look (some path) abort
  | logLevel {path : Points} {entries : List (Value × Value)} {abort : Abort} :
      Holds decoders look path (.ok (.mapping entries)) →
      ShownUnder limit entries .format →
      UnshownUnder limit entries .logLevel abort →
      Stops limit decoders look (some path) abort

-- ============================================================ loading

variable {found : Option Points}

/-- What the loader does with the file that was named or found. -/
def loadFound (limit : Nat) (decoders : Decoders)
    (look : Points → Except PathFault Item) : Option Points → Loading Settings
  | some path => loadFile limit decoders look path
  | none => return {}

/-- What the loader does once the text of the file has been decoded. -/
def readDecoded (limit : Nat) (path : Points) :
    Option Value → Loading Settings
  | some v => readValue limit v
  | none => do
      notify (.invalidConfig path "malformed")
      return {}

/-- A file that holds a text is decoded, and then read. -/
theorem Holds.loadFile_eq {reading : Except ReadFault Value}
    (h : Holds decoders look path reading) :
    ∃ content, readContent decoders path content = reading ∧
      loadFile limit decoders look path
        = decode decoders path content >>= readDecoded limit path := by
  obtain ⟨bytes, content, hopen, htext, hread⟩ := h
  refine ⟨content, hread, ?_⟩
  unfold loadFile
  rw [hopen]
  simp only [htext]
  refine bind_congr fun v? => ?_
  cases v? with
  | none => rfl
  | some v => rfl

/-- A file with a value is read from it. -/
theorem Holds.loadFile_of_value (h : Holds decoders look path (.ok v)) :
    loadFile limit decoders look path ns = readValue limit v ns := by
  obtain ⟨content, hread, heq⟩ := h.loadFile_eq
  have hdecode : decode decoders path content ns = .ok (some v) ns := by
    unfold decode
    rw [hread]
    rfl
  rw [heq]
  exact bind_of_ok hdecode

/-- A malformed file leaves the defaults. -/
theorem Holds.loadFile_of_malformed
    (h : Holds decoders look path (.error .malformed)) :
    ∃ ns', loadFile limit decoders look path ns = .ok {} ns' := by
  obtain ⟨content, hread, heq⟩ := h.loadFile_eq
  have hdecode : decode decoders path content ns = .ok none ns := by
    unfold decode
    rw [hread]
    rfl
  rw [heq]
  exact ⟨_, bind_of_ok hdecode⟩

/-- Any other fault of a decoder stops the loader. -/
theorem Holds.loadFile_of_abort {fault : ReadFault}
    (h : Holds decoders look path (.error fault))
    (hfault : fault.abort? = some abort) :
    loadFile limit decoders look path ns = .error abort ns := by
  obtain ⟨content, hread, heq⟩ := h.loadFile_eq
  have hdecode : decode decoders path content ns = .error abort ns := by
    unfold decode
    rw [hread]
    simp only [hfault]
    rfl
  rw [heq]
  exact bind_of_error hdecode

/-- What is not a mapping leaves the defaults. -/
theorem readValue_of_ne (h : ∀ entries, v ≠ .mapping entries) :
    readValue limit v ns = .ok {} ns := by
  cases v with
  | mapping entries => exact absurd rfl (h entries)
  | _ => rfl

/-- Each rule for settings is a way through the loader. -/
theorem Settles.loads (h : Settles limit decoders look found c)
    (ns : List Notice) :
    ∃ ns', loadFound limit decoders look found ns = .ok c ns' := by
  cases h with
  | noFile => exact ⟨ns, rfl⟩
  | @unopened path fault hopen hfault =>
      show ∃ ns', loadFile limit decoders look path ns = _
      unfold loadFile
      simp only [hopen, if_pos hfault]
      exact ⟨_, rfl⟩
  | malformed hholds => exact hholds.loadFile_of_malformed
  | noMapping hholds hv =>
      exact ⟨ns, hholds.loadFile_of_value.trans (readValue_of_ne hv)⟩
  | mapping hholds hformat hlevel hc =>
      obtain ⟨c', ns', hrun, hc'⟩ :=
        (readEntries_of_shown ns hformat hlevel).exists_ok
      obtain rfl : c = c' :=
        Setting.get_injective fun s => (hc s).trans (hc' s).symm
      exact ⟨ns', hholds.loadFile_of_value.trans hrun⟩

/-- Each rule for stopping is a way through the loader. -/
theorem Stops.loads (h : Stops limit decoders look found abort)
    (ns : List Notice) :
    ∃ ns', loadFound limit decoders look found ns = .error abort ns' := by
  cases h with
  | @unopened path fault hopen hfault =>
      show ∃ ns', loadFile limit decoders look path ns = _
      unfold loadFile
      simp only [hopen, hfault]
      exact ⟨ns, rfl⟩
  | @undecodable path bytes hopen htext =>
      show ∃ ns', loadFile limit decoders look path ns = _
      unfold loadFile
      simp only [hopen, htext]
      exact ⟨ns, rfl⟩
  | scalar hholds => exact ⟨ns, hholds.loadFile_of_abort rfl⟩
  | decoder hholds => exact ⟨ns, hholds.loadFile_of_abort rfl⟩
  | tooDeep hholds => exact ⟨ns, hholds.loadFile_of_abort rfl⟩
  | format hholds hunshown =>
      obtain ⟨ns', hrun⟩ := readEntries_of_unshown_format hunshown
      exact ⟨ns', hholds.loadFile_of_value.trans hrun⟩
  | logLevel hholds hformat hunshown =>
      obtain ⟨ns', hrun⟩ := readEntries_of_unshown_level hformat hunshown
      exact ⟨ns', hholds.loadFile_of_value.trans hrun⟩

/-- One of the rules applies. -/
theorem settles_or_stops (limit : Nat) (decoders : Decoders)
    (look : Points → Except PathFault Item) (found : Option Points) :
    (∃ c, Settles limit decoders look found c) ∨
      ∃ abort, Stops limit decoders look found abort := by
  cases found with
  | none => exact Or.inl ⟨_, .noFile⟩
  | some path =>
  cases hopen : openFile look path with
  | error fault =>
      cases hfault : fault.isOfSystem with
      | false => exact Or.inr ⟨_, .unopened hopen hfault⟩
      | true => exact Or.inl ⟨_, .unopened hopen hfault⟩
  | ok bytes =>
  cases htext : Text.decodeFile bytes with
  | none => exact Or.inr ⟨_, .undecodable hopen htext⟩
  | some content =>
  have hholds : Holds decoders look path (readContent decoders path content) :=
    ⟨bytes, content, hopen, htext, rfl⟩
  generalize readContent decoders path content = reading at hholds
  cases reading with
  | error fault =>
      cases fault with
      | malformed => exact Or.inl ⟨_, .malformed hholds⟩
      | tooDeep => exact Or.inr ⟨_, .tooDeep hholds⟩
      | scalar fault => exact Or.inr ⟨_, .scalar hholds⟩
      | other reason => exact Or.inr ⟨_, .decoder hholds⟩
  | ok v =>
  cases v with
  | mapping entries =>
      rcases shownUnder_or_unshownUnder limit entries .format
        with hformat | ⟨abort, hunshown⟩
      · rcases shownUnder_or_unshownUnder limit entries .logLevel
          with hlevel | ⟨abort, hunshown⟩
        · obtain ⟨c, -, -, hc⟩ :=
            (readEntries_of_shown [] hformat hlevel).exists_ok
          exact Or.inl ⟨c, .mapping hholds hformat hlevel hc⟩
        · exact Or.inr ⟨abort, .logLevel hholds hformat hunshown⟩
      · exact Or.inr ⟨abort, .format hholds hunshown⟩
  | _ => exact Or.inl ⟨_, .noMapping hholds (by simp)⟩

/-- The loader keeps to the rules. -/
theorem ends_loadFound (limit : Nat) (decoders : Decoders)
    (look : Points → Except PathFault Item) (found : Option Points)
    (ns : List Notice) :
    Ends (loadFound limit decoders look found) ns
      (fun c _ => Settles limit decoders look found c)
      fun abort _ => Stops limit decoders look found abort := by
  rcases settles_or_stops limit decoders look found
    with ⟨c, hc⟩ | ⟨abort, habort⟩
  · obtain ⟨ns', hrun⟩ := hc.loads ns
    rw [Ends, hrun]
    exact hc
  · obtain ⟨ns', hrun⟩ := habort.loads ns
    rw [Ends, hrun]
    exact habort

/-- The rules say what the loader does, and nothing else. -/
theorem loadFound_iff (limit : Nat) (decoders : Decoders)
    (look : Points → Except PathFault Item) (found : Option Points)
    (ns : List Notice) :
    (∀ c, (∃ ns', loadFound limit decoders look found ns = .ok c ns') ↔
      Settles limit decoders look found c) ∧
    ∀ abort,
      (∃ ns', loadFound limit decoders look found ns = .error abort ns') ↔
        Stops limit decoders look found abort := by
  have hends := ends_loadFound limit decoders look found ns
  constructor
  · refine fun c => ⟨?_, fun h => h.loads ns⟩
    rintro ⟨ns', hrun⟩
    exact hends.of_ok hrun
  · refine fun abort => ⟨?_, fun h => h.loads ns⟩
    rintro ⟨ns', hrun⟩
    exact hends.of_error hrun

-- ========================================================== searching

/-- There is no directory to search from: no path is given, the search
is to start from the working directory, and that is gone. -/
def Lost (cwd : Option Names) (path : Option Points) (start : Points) :
    Prop :=
  path = none ∧ isAbsolute start = false ∧ cwd = none

/-- A search fails only without a directory to start from. -/
theorem locate_eq_error_iff (look : Points → Except PathFault Item)
    {cwd : Option Names} {path : Option Points} {start : Points} :
    locate look cwd path start = .error abort ↔
      Lost cwd path start ∧ abort = .noDirectory := by
  unfold locate searchPaths Lost
  cases path with
  | some path => simp
  | none =>
      cases isAbsolute start <;> cases cwd <;>
        simp [Except.map, eq_comm]

/-- The loader, once the file is located. -/
theorem load_of_locate {cwd : Option Names} {path : Option Points}
    {start : Points} (h : locate look cwd path start = .ok found) :
    load limit decoders look cwd path start
      = loadFound limit decoders look found := by
  unfold load
  rw [h]
  cases found with
  | none => rfl
  | some path => rfl

/-- When loading gives settings, and which, and when it stops. The file
is the one at the path that is given or else the nearest one, if there
is a directory from which to search for it. The format of the settings
is one that a report can have. -/
theorem load_iff (limit : Nat) (decoders : Decoders)
    (look : Points → Except PathFault Item) (cwd : Option Names)
    (path : Option Points) (start : Points) (ns : List Notice) :
    (∀ c, (∃ ns', load limit decoders look cwd path start ns = .ok c ns') ↔
      ∃ found, locate look cwd path start = .ok found ∧
        Settles limit decoders look found c ∧
        Format.ofText? c.format.text = some c.format) ∧
    ∀ abort,
      (∃ ns', load limit decoders look cwd path start ns
        = .error abort ns') ↔
      (Lost cwd path start ∧ abort = .noDirectory) ∨
        ∃ found, locate look cwd path start = .ok found ∧
          Stops limit decoders look found abort := by
  simp only [← locate_eq_error_iff look]
  cases hfound : locate look cwd path start with
  | error lost =>
      have hload : load limit decoders look cwd path start ns
          = .error lost ns := by
        unfold load
        rw [hfound]
        rfl
      simp [hload]
  | ok found =>
      obtain ⟨hsettles, hstops⟩ := loadFound_iff limit decoders look found ns
      rw [load_of_locate hfound]
      simp [hsettles, hstops, Format.ofText?_text]

/-- A file of two bytes that are no text stops the program, whatever the
decoders would make of it; the defaults do not stand in for it. -/
theorem load_undecodable :
    load 1000 ⟨fun _ => .error .malformed, fun _ => .error .malformed⟩
      (fun _ => .ok (.file ⟨#[0xC3, 0x28]⟩)) (some []) (some "c.json") "." []
      = .error .undecodable [] := by
  rfl

end InferTrace.Config
