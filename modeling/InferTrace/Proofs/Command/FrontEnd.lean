/-
The commands agree on the faults of a source file, but for its name.

All three commands scan the file in the same way, and two of them parse
it. To infer a type, the name of the file is handed on, so that a report
says where the fault is. The other two do not hand it on, and their
reports are about a file that is called `<input>`. That is the only
difference (`run_frontEnd`), since the name of a file goes into places
and nowhere else.
-/
import InferTrace.Command.Run
import InferTrace.Proofs.Export.Lossless

namespace InferTrace.Command

open Json
open Text (Points)

variable {bounds : Bounds} {world : World} {words : List String}
  {config : ConfigFile} {verb : Verb} {file source : String} {strict : Bool}
  {t : Task} {settings : Settings} {loaded : List Notice} {r : Result}
  {p : Printed}

-- ======================================================== invocations

/-- The words of a command line ask for a task: this command on this
file, with this configuration. -/
structure Asks (words : List String) (config : ConfigFile) (verb : Verb)
    (file : String) (strict : Bool) (t : Task) : Prop where
  read : ∃ verbose, Invocation.read words
    = .ok { config := config, verbose := verbose, task := some t }
  verb : t.verb = verb
  file : t.file = some file
  strict : t.strict = strict

/-- There is a file of this name, with this text. -/
def World.Holds (world : World) (file source : String) : Prop :=
  file ≠ "" ∧ ∃ bytes, world.look file = .ok (.file bytes) ∧
    Text.decodeFile bytes = some source

/-- A run prints what its task prints under the settings. -/
theorem Asks.exists_run (h : Asks words config verb file strict t)
    (hload : (config.load bounds.settings world).run [] = .ok settings loaded)
    (hprinted : t.run bounds world settings = .ok p) :
    ∃ r, run bounds world words = .ok r ∧ r.status = p.status ∧
      r.text = p.text := by
  obtain ⟨verbose, hread⟩ := h.read
  unfold run
  rw [hread]
  simp only [Invocation.run, hload, hprinted]
  exact ⟨_, rfl, rfl, rfl⟩

/-- A run that prints something has loaded settings, and prints what its
task does under them. -/
theorem Asks.exists_printed (h : Asks words config verb file strict t)
    (hrun : run bounds world words = .ok r) :
    ∃ settings loaded p,
      (config.load bounds.settings world).run [] = .ok settings loaded ∧
      t.run bounds world settings = .ok p ∧ r.status = p.status ∧
      r.text = p.text := by
  obtain ⟨verbose, hread⟩ := h.read
  unfold run at hrun
  rw [hread] at hrun
  simp only [Invocation.run] at hrun
  cases hload : (config.load bounds.settings world).run [] with
  | error abort ns =>
      rw [hload] at hrun
      cases hrun
  | ok settings loaded =>
      rw [hload] at hrun
      cases hprinted : t.run bounds world settings with
      | error abort =>
          simp only [hprinted] at hrun
          cases hrun
      | ok p =>
          simp only [hprinted] at hrun
          cases hrun
          exact ⟨settings, loaded, p, rfl, hprinted, rfl, rfl⟩

theorem Asks.file? (h : Asks words config verb file strict t)
    (hfile : world.Holds file source) : t.file? = some file := by
  unfold Task.file?
  rw [h.file]
  simp [hfile.1]

/-- The source of the task is the text of the file. -/
theorem Asks.readSource (h : Asks words config verb file strict t)
    (hfile : world.Holds file source) :
    Command.readSource world t = .ok (.ok source) := by
  obtain ⟨bytes, hlook, htext⟩ := hfile.2
  unfold Command.readSource
  rw [h.file? hfile]
  simp only [hlook, htext]

/-- How strict a command is. -/
theorem Asks.strictLexing (h : Asks words config verb file strict t) :
    (t.settings settings).strictLexing = (settings.strictLexing || strict) := by
  rw [← h.strict]
  rfl

-- =========================================================== commands

/-- The mode in which a command reads a file. -/
def modeOf (file : String) (settings : Settings) (strict : Bool) : Mode :=
  { file := file, strict := settings.strictLexing || strict }

/-- What is printed of an inference is its outcome. -/
theorem exists_outcome_of_infer
    (h : infer bounds world settings t source = .ok p) :
    ∃ o text, InferTrace.run bounds.run
        { file := t.file?.getD "<input>", strict := settings.strictLexing }
        source = .ok o ∧
      o.render bounds.exporting (t.format.getD settings.format) settings
        (settings.colorOn world.terminal world.noColor) = .ok text ∧
      p.status = (if o.ok then 0 else 1) ∧ p.text = lineOf text.face := by
  unfold infer runNoticed at h
  unfold InferTrace.run
  cases htraced : runTraced bounds.run
      { file := t.file?.getD "<input>", strict := settings.strictLexing }
      source with
  | error escape =>
      simp only [htraced] at h
      cases h
  | ok result =>
      obtain ⟨o, tracer⟩ := result
      simp only [htraced, bind, Except.bind, pure, Except.pure] at h
      cases hrender : o.render bounds.exporting (t.format.getD settings.format) settings
          (settings.colorOn world.terminal world.noColor) with
      | error halt =>
          rw [hrender] at h
          cases h
      | ok text =>
          rw [hrender] at h
          cases h
          exact ⟨o, text, rfl, hrender, rfl, rfl⟩

/-- A run that infers a type prints the outcome for the file. -/
theorem Asks.exists_outcome (h : Asks words config .infer file strict t)
    (hfile : world.Holds file source)
    (hrun : run bounds world words = .ok r) :
    ∃ settings loaded o,
      (config.load bounds.settings world).run [] = .ok settings loaded ∧
      InferTrace.run bounds.run (modeOf file settings strict) source = .ok o ∧
      (r.status = 0 → o.error = none) ∧
      (t.format = some .json → r.text = lineOf (o.toJson.render (some 2))) := by
  obtain ⟨settings, loaded, p, hload, hprinted, hstatus, htext⟩ :=
    h.exists_printed hrun
  have hinfer : infer bounds world (t.settings settings) t source = .ok p := by
    unfold Task.run at hprinted
    rw [h.readSource hfile] at hprinted
    simp only [h.verb] at hprinted
    exact hprinted
  obtain ⟨o, text, hout, hrender, hstatus', htext'⟩ :=
    exists_outcome_of_infer hinfer
  rw [h.file? hfile, h.strictLexing] at hout
  refine ⟨settings, loaded, o, hload, hout, ?_, ?_⟩
  · intro hzero
    rw [hstatus, hstatus'] at hzero
    simpa [Outcome.ok] using hzero
  · intro hformat
    rw [hformat] at hrender
    unfold Outcome.render at hrender
    simp only [Option.getD_some] at hrender
    split at hrender
    · cases hrender
    · rw [htext, htext', ← Except.ok.inj hrender, Points.face_ofString]

-- ========================================================== front ends

/-- Commands that ask for no type call the file `<input>`. -/
theorem Asks.mode_eq (h : Asks words config verb file strict t)
    (settings : Settings) :
    ({ file := "<input>", strict := (t.settings settings).strictLexing } : Mode)
      = (modeOf file settings strict).inFile "<input>" := by
  rw [h.strictLexing]
  rfl

/-- A run that asks for the expression prints it under the settings. -/
theorem Asks.run_ast (h : Asks words config .ast file strict t)
    (hfile : world.Holds file source)
    (hload : (config.load bounds.settings world).run [] = .ok settings loaded) :
    ∃ r, run bounds world words = .ok r ∧
      r.status = (ast bounds (t.settings settings) source).status ∧
      r.text = (ast bounds (t.settings settings) source).text := by
  refine h.exists_run hload ?_
  unfold Task.run
  rw [h.readSource hfile]
  simp only [h.verb]
  rfl

/-- A run that asks for the tokens prints them under the settings. -/
theorem Asks.run_tokens (h : Asks words config .tokens file strict t)
    (hfile : world.Holds file source)
    (hload : (config.load bounds.settings world).run [] = .ok settings loaded) :
    ∃ r, run bounds world words = .ok r ∧
      r.status = (tokens (t.settings settings) source).status ∧
      r.text = (tokens (t.settings settings) source).text := by
  refine h.exists_run hload ?_
  unfold Task.run
  rw [h.readSource hfile]
  simp only [h.verb]
  rfl

/-- A fault that parsing comes to is printed as one of `<input>`. -/
theorem Asks.ast_of_fault {fault : Fault}
    (h : Asks words config .ast file strict t)
    (hparse : parseSource bounds.parsing (modeOf file settings strict) source
      = .error (.fault fault)) :
    (ast bounds (t.settings settings) source).status = 1 ∧
      (ast bounds (t.settings settings) source).text
        = printDiagnostic (fault.diagnostic.inFile "<input>") := by
  have hinput := parseSource_inFile bounds.parsing
    (modeOf file settings strict) source "<input>"
  rw [← h.mode_eq, hparse] at hinput
  simp [ast, hinput, Except.mapError, Halt.inFile, Fault.diagnostic_inFile]

/-- An expression that is not too deep is printed. -/
theorem Asks.ast_of_ok {e : Expr} (h : Asks words config .ast file strict t)
    (hparse : parseSource bounds.parsing (modeOf file settings strict) source
      = .ok e) (hdepth : e.depth ≤ bounds.printing) :
    (ast bounds (t.settings settings) source).status = 0 := by
  have hinput := parseSource_inFile bounds.parsing
    (modeOf file settings strict) source "<input>"
  rw [← h.mode_eq, hparse] at hinput
  simp [ast, hinput, Except.mapError, Nat.not_lt_of_le hdepth]

/-- A fault of the scan is printed as one of `<input>`. -/
theorem Asks.tokens_of_fault {fault : Fault}
    (h : Asks words config .tokens file strict t)
    (hscan : (scanSource (modeOf file settings strict) source).result
      = .error fault) :
    (tokens (t.settings settings) source).status = 1 ∧
      (tokens (t.settings settings) source).text
        = printDiagnostic (fault.diagnostic.inFile "<input>") := by
  have hinput := scanSource_inFile (modeOf file settings strict) source
    "<input>"
  rw [← h.mode_eq, hscan] at hinput
  simp [tokens, hinput, resultInFile, Fault.diagnostic_inFile]

/-- Tokens without a fault are printed. -/
theorem Asks.tokens_of_ok {ts : List Token}
    (h : Asks words config .tokens file strict t)
    (hscan : (scanSource (modeOf file settings strict) source).result
      = .ok ts) :
    (tokens (t.settings settings) source).status = 0 := by
  have hinput := scanSource_inFile (modeOf file settings strict) source
    "<input>"
  rw [← h.mode_eq, hscan] at hinput
  simp [tokens, hinput, resultInFile]

-- ============================================================ reports

variable {limits : Limits} {mode : Mode} {o : Outcome} {fault : Fault}

/-- The outcome of a run is read from what is printed of it. -/
theorem decode_lineOf (hfile : mode.file.Unpaired)
    (hrun : InferTrace.run limits mode source = .ok o) :
    Outcome.decode (lineOf (o.toJson.render (some 2)))
      = some (o, o.nodeNames nodeName) := by
  have hnames : ∀ k, id (nodeName k) ≠ "" := by
    intro k
    simp [nodeName]
  have hexport := Outcome.exportable_of_run hrun
    (Points.unpaired_ofString source) hfile hnames
  rw [Outcome.renamed_id] at hexport
  exact Outcome.decode_render hexport nodeName (some 2) isSpace_newline

/-- A fault whose report can be read back. -/
structure Reported (fault : Fault) : Prop where
  node : fault.node = none
  file : ∀ l, fault.location = some l → l.file.Unpaired
  char : ∀ p, fault.cause = .strayCharacter p → p.Unpaired

/-- The report can be read back whatever the file is called. -/
theorem Reported.inFile (h : Reported fault) (file : String) :
    Reported (fault.inFile file) where
  node := h.node
  file := by
    intro l hl
    obtain ⟨l', -, rfl⟩ := Option.map_eq_some_iff.1 hl
    exact Points.unpaired_ofString file
  char := h.char

/-- The faults of a source can be read back. -/
theorem reported_of_parseSource (hfile : mode.file.Unpaired)
    (h : parseSource limits.parsing mode source = .error (.fault fault)) :
    Reported fault where
  node := (place_of_parseSource h).2
  file := by
    obtain ⟨⟨l, hl, hlfile⟩, -⟩ := place_of_parseSource h
    intro l' hl'
    cases hl.symm.trans hl'
    rw [hlfile]
    exact hfile
  char := unpaired_of_parsePoints (Points.unpaired_ofString source)
    ((parsePoints_ofString limits.parsing mode source).trans h)

/-- Reports of faults are told apart by what is printed of them. -/
theorem printDiagnostic_inj {f f' : Fault} (hf : Reported f)
    (hf' : Reported f')
    (h : printDiagnostic f.diagnostic = printDiagnostic f'.diagnostic) :
    f.diagnostic = f'.diagnostic := by
  have hread : ∀ f : Fault, Reported f →
      (Json.decode (printDiagnostic f.diagnostic)).bind Diagnostic.ofJson?
        = some f.diagnostic := by
    intro f hf
    have hplain : f.diagnostic.toJson.Plain :=
      Diagnostic.plain_toJson hf.file (Cause.plain_details hf.char)
    rw [printDiagnostic, lineOf, hplain.decode_render (some 2) isSpace_newline]
    exact Diagnostic.ofJson?_toJson (by simp [Fault.diagnostic, hf.node])
  have hsame := hread f hf
  rw [h, hread f' hf'] at hsame
  exact (Option.some.inj hsame).symm

/-- An error of the source, in the outcome of a run, is a fault that
parsing comes to. -/
theorem exists_fault_of_frontEnd {d : Diagnostic}
    (hrun : InferTrace.run limits mode source = .ok o)
    (hd : o.error = some d)
    (hkind : d.kind = .lexical ∨ d.kind = .grammatical) :
    ∃ fault, parseSource limits.parsing mode source = .error (.fault fault) ∧
      d = fault.diagnostic := by
  cases hparse : parsePoints limits.parsing mode source with
  | ok e =>
      obtain ⟨-, hast, hwf⟩ := wellFormed_run hrun
      have hnone : o.ast = none := by
        refine hwf.ast.2 ⟨d, hd, ?_⟩
        rcases hkind with hkind | hkind
        · exact Or.inl hkind
        · exact Or.inr (Or.inl hkind)
      rw [hast, hparse] at hnone
      cases hnone
  | error halt =>
      rcases halt_of_parsePoints hparse with rfl | ⟨fault, rfl, -⟩
      · rw [run_of_parse_error hparse rfl] at hrun
        cases hrun
        cases hd
        rcases hkind with hkind | hkind <;> cases hkind
      · rw [run_of_parse_error hparse rfl] at hrun
        cases hrun
        rw [parsePoints_ofString] at hparse
        exact ⟨fault, hparse, (Option.some.inj hd).symm⟩

/-- The report says where it is from, and so it is the same without the
name of the file only if that is `<input>`. -/
theorem printDiagnostic_inFile_iff (hfile : mode.file.Unpaired)
    (h : parseSource limits.parsing mode source = .error (.fault fault))
    (file : String) :
    printDiagnostic (fault.diagnostic.inFile file)
      = printDiagnostic fault.diagnostic ↔ mode.file = file := by
  obtain ⟨⟨l, hl, hlfile⟩, hnode⟩ := place_of_parseSource h
  have hreported := reported_of_parseSource hfile h
  constructor
  · intro htext
    have hsame := printDiagnostic_inj (hreported.inFile file) hreported htext
    have hlocation := congrArg Diagnostic.location hsame
    rw [Fault.diagnostic, Fault.diagnostic, Fault.inFile, hl] at hlocation
    rw [← hlfile, ← Option.some.inj hlocation]
    rfl
  · intro hname
    have hsame : fault.inFile mode.file = fault := by
      rw [Fault.inFile, hl, ← hlfile]
      cases fault
      cases hl
      rfl
    rw [← hname, ← Fault.diagnostic_inFile, hsame]

/-- A source that has a type is scanned and parsed, and no deeper than
the walk may go. -/
theorem exists_parsed_of_frontEnd
    (hrun : InferTrace.run limits mode source = .ok o) (h : o.error = none) :
    ∃ ts e, (scanSource mode source).result = .ok ts ∧
      parseSource limits.parsing mode source = .ok e ∧
      e.depth ≤ limits.walking := by
  cases hparse : parsePoints limits.parsing mode source with
  | error halt =>
      obtain ⟨fault, hfault, -⟩ := atStage_of_parsePoints hparse
      rw [run_of_parse_error hparse hfault] at hrun
      cases hrun
      cases h
  | ok e =>
      cases hinfer : inferWithin limits [] e {} with
      | error halt tracer =>
          obtain ⟨fault, hfault, -⟩ := atStage_of_inferWithin
            (expressible_of_parsePoints hparse) hinfer
          rw [run_of_infer_error hparse hinfer hfault] at hrun
          obtain ⟨-, rfl⟩ := eq_of_closed hrun
          cases h
      | ok type tracer =>
          have hdepth : Ends (inferWithin limits [] e) {} _ _ :=
            depth_inferWithin (wellFormed_of_empty rfl) (by simp [Scope.Within])
              limits e
          rw [parsePoints_ofString] at hparse
          refine Exists.imp (fun ts hts => ⟨e, hts, hparse,
            hdepth.of_ok hinfer⟩) ?_
          unfold parseSource at hparse
          cases hscan : (scanSource mode source).result with
          | error fault =>
              rw [hscan] at hparse
              cases hparse
          | ok ts => exact ⟨ts, rfl⟩

-- ========================================================== agreement

/-- A run that fails, and prints this report. -/
def Complains (bounds : Bounds) (world : World) (words : List String)
    (d : Diagnostic) : Prop :=
  ∃ r, run bounds world words = .ok r ∧ r.status = 1 ∧
    r.text = printDiagnostic d

/-- A run that does not fail. -/
def Passes (bounds : Bounds) (world : World) (words : List String) : Prop :=
  ∃ r, run bounds world words = .ok r ∧ r.status = 0

/-- A run prints one report. -/
theorem Complains.iff {d d' : Diagnostic}
    (h : Complains bounds world words d) :
    Complains bounds world words d' ↔
      printDiagnostic d = printDiagnostic d' := by
  obtain ⟨r, hrun, hstatus, htext⟩ := h
  constructor
  · rintro ⟨r', hrun', -, htext'⟩
    rw [hrun] at hrun'
    cases hrun'
    rw [← htext, htext']
  · intro hsame
    exact ⟨r, hrun, hstatus, htext.trans hsame⟩

-- ============================================================ nesting

/-- The report of a source that is nested too deep to be parsed. -/
def nestedReport : Diagnostic :=
  Fault.diagnostic { cause := .nestingTooDeep "parse" }

/-- The nesting of a file is within the limit of the command that only
parses it: that command does not complain, or it has as much room as
inference has. -/
def Fits (bounds : Bounds) (world : World) (words : List String) : Prop :=
  (bounds.run.parsing ≤ bounds.parsing ∧
    bounds.run.walking ≤ bounds.printing) ∨
  ¬ Complains bounds world words nestedReport

/-- What is nested too deep to be parsed is reported as that. -/
theorem Asks.ast_of_tooDeep (h : Asks words config .ast file strict t)
    (hparse : parseSource bounds.parsing (modeOf file settings strict) source
      = .error .tooDeep) :
    (ast bounds (t.settings settings) source).status = 1 ∧
      (ast bounds (t.settings settings) source).text
        = printDiagnostic nestedReport := by
  have hinput := parseSource_inFile bounds.parsing
    (modeOf file settings strict) source "<input>"
  rw [← h.mode_eq, hparse] at hinput
  simp [ast, hinput, Except.mapError, Halt.inFile, nestedReport]

/-- So is what is nested too deep to be printed. -/
theorem Asks.ast_of_depth {e : Expr}
    (h : Asks words config .ast file strict t)
    (hparse : parseSource bounds.parsing (modeOf file settings strict) source
      = .ok e) (hdepth : bounds.printing < e.depth) :
    (ast bounds (t.settings settings) source).status = 1 ∧
      (ast bounds (t.settings settings) source).text
        = printDiagnostic nestedReport := by
  have hinput := parseSource_inFile bounds.parsing
    (modeOf file settings strict) source "<input>"
  rw [← h.mode_eq, hparse] at hinput
  simp [ast, hinput, Except.mapError, hdepth, nestedReport]

/-- What inference parses is parsed in the same way without it. -/
theorem Asks.parse_eq (h : Asks words config .ast file strict t)
    (hfile : world.Holds file source)
    (hload : (config.load bounds.settings world).run [] = .ok settings loaded)
    (hfits : Fits bounds world words)
    (hparse : parseSource bounds.run.parsing (modeOf file settings strict)
      source ≠ .error .tooDeep) :
    parseSource bounds.parsing (modeOf file settings strict) source
      = parseSource bounds.run.parsing (modeOf file settings strict)
        source := by
  rcases hfits with ⟨hle, -⟩ | hfits
  · exact ((parseSource_curbed hle _ source).resolve_left hparse).symm
  · refine parseSource_eq_of_ne_tooDeep (fun hdeep => hfits ?_) hparse
    obtain ⟨r, hr, hstatus, htext⟩ := h.run_ast hfile hload
    obtain ⟨hstatus', htext'⟩ := h.ast_of_tooDeep hdeep
    exact ⟨r, hr, hstatus.trans hstatus', htext.trans htext'⟩

/-- What is not too deep for inference can be printed. -/
theorem Asks.depth_le {e : Expr} (h : Asks words config .ast file strict t)
    (hfile : world.Holds file source)
    (hload : (config.load bounds.settings world).run [] = .ok settings loaded)
    (hfits : Fits bounds world words)
    (hparse : parseSource bounds.parsing (modeOf file settings strict) source
      = .ok e) (hdepth : e.depth ≤ bounds.run.walking) :
    e.depth ≤ bounds.printing := by
  rcases hfits with ⟨-, hle⟩ | hfits
  · exact hdepth.trans hle
  · refine Nat.le_of_not_lt fun hlt => hfits ?_
    obtain ⟨r, hr, hstatus, htext⟩ := h.run_ast hfile hload
    obtain ⟨hstatus', htext'⟩ := h.ast_of_depth hparse hlt
    exact ⟨r, hr, hstatus.trans hstatus', htext.trans htext'⟩

/-- The commands agree on the faults of the characters and of the grammar
of a file, and on files without a fault, if the file is not nested too
deep for the command that only parses it. What is printed by those that
ask for no type is the report of the fault in a file that is called
`<input>`, with the same kind, message, details, line and column. So it
is the report that is printed with the type if the file is called
`<input>`, and only then. -/
theorem run_frontEnd {winfer wast wtokens : List String}
    {tinfer tast ttokens : Task} (hfile : world.Holds file source)
    (hinfer : Asks winfer config .infer file strict tinfer)
    (hast : Asks wast config .ast file strict tast)
    (htokens : Asks wtokens config .tokens file strict ttokens)
    (hfits : Fits bounds world wast)
    (hrun : run bounds world winfer = .ok r) :
    (∀ o names d, tinfer.format = some .json →
      Outcome.decode r.text = some (o, names) → o.error = some d →
      d.kind = .lexical ∨ d.kind = .grammatical →
        Complains bounds world wast (d.inFile "<input>") ∧
        (Complains bounds world wast d ↔ file = "<input>") ∧
        (d.kind = .lexical →
          Complains bounds world wtokens (d.inFile "<input>") ∧
          (Complains bounds world wtokens d ↔ file = "<input>"))) ∧
    (r.status = 0 →
      Passes bounds world wast ∧ Passes bounds world wtokens) := by
  obtain ⟨settings, loaded, o, hload, hout, hzero, hjson⟩ :=
    hinfer.exists_outcome hfile hrun
  obtain ⟨ra, hra, hrastatus, hratext⟩ := hast.run_ast hfile hload
  obtain ⟨rt, hrt, hrtstatus, hrttext⟩ := htokens.run_tokens hfile hload
  have hmode : (modeOf file settings strict).file.Unpaired :=
    Points.unpaired_ofString file
  constructor
  · intro o' names d hformat hdecode hd hkind
    rw [hjson hformat, decode_lineOf hmode hout] at hdecode
    cases hdecode
    obtain ⟨fault, hparse, rfl⟩ := exists_fault_of_frontEnd hout hd hkind
    have hname := printDiagnostic_inFile_iff hmode hparse "<input>"
    rw [show (modeOf file settings strict).file = Points.ofString "<input>"
      ↔ file = "<input>" from Points.ofString_inj] at hname
    have hsame := hast.parse_eq hfile hload hfits (by simp [hparse])
    obtain ⟨hastatus, hatext⟩ := hast.ast_of_fault (hsame.trans hparse)
    have hcomplains : Complains bounds world wast
        (fault.diagnostic.inFile "<input>") :=
      ⟨ra, hra, hrastatus.trans hastatus, hratext.trans hatext⟩
    refine ⟨hcomplains, hcomplains.iff.trans hname, fun hlexical => ?_⟩
    obtain ⟨htstatus, httext⟩ :=
      htokens.tokens_of_fault (scanSource_of_lexical hparse hlexical)
    have hcomplains' : Complains bounds world wtokens
        (fault.diagnostic.inFile "<input>") :=
      ⟨rt, hrt, hrtstatus.trans htstatus, hrttext.trans httext⟩
    exact ⟨hcomplains', hcomplains'.iff.trans hname⟩
  · intro hstatus
    obtain ⟨ts, e, hscan, hparse, hdepth⟩ :=
      exists_parsed_of_frontEnd hout (hzero hstatus)
    have hsame := hast.parse_eq hfile hload hfits (by simp [hparse])
    have hprinting :=
      hast.depth_le hfile hload hfits (hsame.trans hparse) hdepth
    exact ⟨⟨ra, hra, hrastatus.trans
        (hast.ast_of_ok (hsame.trans hparse) hprinting)⟩,
      rt, hrt, hrtstatus.trans (htokens.tokens_of_ok hscan)⟩

/-- A world with one file, `a.ml`, in which a parenthesis is not
closed. -/
def unclosed : World where
  look path :=
    if path = "a.ml" then .ok (.file "(1".toUTF8) else .error .missing
  decoders := ⟨fun _ => .error .malformed, fun _ => .error .malformed⟩

/-- The same bound for everything. -/
def Bounds.flat (limit : Nat) : Bounds where
  run := .flat limit limit
  exporting := limit
  parsing := limit
  printing := limit
  settings := limit

/-- The report for `a.ml`, with its name. -/
def unclosedFault : Fault where
  cause := .unexpectedToken "')'" "end of input"
  location := some { line := 1, column := 3, file := "a.ml" }

theorem parsePoints_unclosed :
    parsePoints 9 { file := "a.ml" } (.ofString "(1")
      = .error (.fault unclosedFault) := by
  cbv

theorem holds_unclosed : unclosed.Holds "a.ml" "(1" := ⟨by decide, _, rfl, rfl⟩

theorem load_unclosed :
    (ConfigFile.nearest.load (Bounds.settings (.flat 9)) unclosed).run []
      = .ok {} [] := by
  cbv

/-- The words ask for the type of `a.ml`, as JSON. -/
theorem asks_unclosed :
    Asks ["infer", "-f", "a.ml", "--output-format", "json"]
      .nearest .infer "a.ml" false
      { verb := .infer, file := some "a.ml", format := some .json } :=
  ⟨⟨false, rfl⟩, rfl, rfl, rfl⟩

/-- The run is a failed one. -/
theorem run_unclosed :
    InferTrace.run (Bounds.run (.flat 9)) (modeOf "a.ml" {} false)
        (.ofString "(1")
      = .ok (.failed (.ofString "(1") none unclosedFault {}) :=
  run_of_parse_error parsePoints_unclosed rfl

/-- It is printed, as every run that ends is. -/
theorem exists_run_unclosed : ∃ r, run (.flat 9) unclosed
    ["infer", "-f", "a.ml", "--output-format", "json"] = .ok r := by
  have htraced : runTraced (.flat 9 9) { file := "a.ml" } (.ofString "(1")
      = .ok (.failed (.ofString "(1") none unclosedFault {}, {}) := by
    unfold runTraced
    rw [show Limits.parsing (.flat 9 9) = 9 from rfl, parsePoints_unclosed]
    rfl
  have hprinted : ∃ p, infer (.flat 9) unclosed {}
      { verb := .infer, file := some "a.ml", format := some .json } "(1"
        = .ok p := by
    simp only [infer, runNoticed, asks_unclosed.file? holds_unclosed,
      Option.getD_some, Bounds.flat, htraced]
    exact ⟨_, rfl⟩
  obtain ⟨p, hprinted⟩ := hprinted
  have htask : Task.run (.flat 9) unclosed {}
      { verb := .infer, file := some "a.ml", format := some .json }
        = .ok p := by
    unfold Task.run
    rw [asks_unclosed.readSource holds_unclosed]
    exact hprinted
  obtain ⟨r, hrun, -, -⟩ := asks_unclosed.exists_run load_unclosed htask
  exact ⟨r, hrun⟩

/-- With the type, the fault of `a.ml` is reported as one of `a.ml`, and
without it as one of `<input>`. -/
theorem run_frontEnd_unclosed : ∃ r o names,
    run (.flat 9) unclosed ["infer", "-f", "a.ml", "--output-format", "json"]
        = .ok r ∧
      Outcome.decode r.text = some (o, names) ∧
      o.error = some unclosedFault.diagnostic ∧
      Complains (.flat 9) unclosed ["ast", "-f", "a.ml"]
        (unclosedFault.diagnostic.inFile "<input>") ∧
      ¬ Complains (.flat 9) unclosed ["ast", "-f", "a.ml"]
        unclosedFault.diagnostic := by
  have hast : Asks ["ast", "-f", "a.ml"] .nearest .ast "a.ml" false
      { verb := .ast, file := some "a.ml" } :=
    ⟨⟨false, rfl⟩, rfl, rfl, rfl⟩
  have htokens : Asks ["tokens", "-f", "a.ml"] .nearest .tokens "a.ml" false
      { verb := .tokens, file := some "a.ml" } :=
    ⟨⟨false, rfl⟩, rfl, rfl, rfl⟩
  have hfits : Fits (.flat 9) unclosed ["ast", "-f", "a.ml"] :=
    Or.inl ⟨Nat.le_refl _, Nat.le_refl _⟩
  obtain ⟨r, hrun⟩ := exists_run_unclosed
  obtain ⟨settings, loaded, o, hload, hout, -, hjson⟩ :=
    asks_unclosed.exists_outcome holds_unclosed hrun
  rw [load_unclosed] at hload
  cases hload
  have hdecode := decode_lineOf (Points.unpaired_ofString "a.ml") hout
  rw [← hjson rfl] at hdecode
  have herror : o.error = some unclosedFault.diagnostic := by
    rw [run_unclosed] at hout
    cases hout
    rfl
  obtain ⟨hagree, -⟩ :=
    run_frontEnd holds_unclosed asks_unclosed hast htokens hfits hrun
  obtain ⟨hcomplains, hname, -⟩ :=
    hagree _ _ _ rfl hdecode herror (Or.inr rfl)
  refine ⟨r, o, _, hrun, hdecode, herror, hcomplains, fun h => ?_⟩
  exact absurd (hname.1 h) (by decide)

end InferTrace.Command
