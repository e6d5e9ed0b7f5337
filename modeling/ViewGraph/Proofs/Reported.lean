import ViewGraph.Proofs.JsonReading
import ViewGraph.Proofs.Nodes
import ViewGraph.Proofs.Output
import ViewGraph.Proofs.Refusals
import ViewGraph.Proofs.Strictness

/-!
# What is not reported

A command reports what goes wrong in the log and ends with an exit code.  Some faults it does not report: they end
it wherever they occur.  And a log that lets no errors through has no report.

* `Action.Faults`: a step ends the command with a fault.
* `LogFails`, `Unreadable`, `TooDeep`, `Escapes`: the faults of the set-up of the log, of the input, of data that are
  nested too deeply for a step, and of a whole command.
* `Silences`: the log is set up to let no errors through.
* `faults_readData_iff`, `faults_normalizeFile_iff`, `faults_writeData_iff`, `faults_runJob_iff`: the faults of the
  steps.
* `execute_reported_iff`: a command reports what goes wrong, unless one of these faults escapes or the log is
  silenced.
* `not_execute_reported`: a file that is no text is not reported.
-/

namespace ViewGraph

open Files

/-! ### Definitions -/

namespace Cli

/-- A step ends the command with a fault. -/
def Action.Faults {α : Type} (x : Action α) (c : Console) (f : Fault) : Prop :=
  ∃ later, x c = (.error (.fault f), later)

/-- The log cannot be set up: the name of its level stands for something else, or its file cannot be written. -/
inductive LogFails (c : Console) (s : LogSetup) : SetupError → Prop
  | level {e : SetupError} (h : levelNamed s.level = .error e) : LogFails c s e
  | file {level : Level} {path : String} {e : FileError} (hlevel : levelNamed s.level = .ok level)
      (hpath : s.file = some path) (hne : path ≠ "")
      (h : c.files.append (pathOf (c.files.placeOf path)) .empty = .error e) : LogFails c s (.file e)

/-- A file has no data, for a reason that is not reported. -/
inductive Unreadable (limits : DepthLimits) (files : Files) (path : String) : Fault → Prop
  | file {e : FileError} (hread : files.read path = .error e) (hne : e ≠ .notFound) :
      Unreadable limits files path (.file e)
  | undecodable {content : ByteArray} (hread : files.read path = .ok content)
      (h : String.fromUTF8? content = none) : Unreadable limits files path .undecodable
  | tooDeep {content : ByteArray} {text : String} (hread : files.read path = .ok content)
      (hutf8 : String.fromUTF8? content = some text) (h : limits.reading text.toList = true) :
      Unreadable limits files path .tooDeep
  | tooManyDigits {content : ByteArray} {text : String} (hread : files.read path = .ok content)
      (hutf8 : String.fromUTF8? content = some text) (hshallow : limits.reading text.toList = false)
      (h : Document.ofText text.toList = .error .tooManyDigits) : Unreadable limits files path .tooManyDigits

/-- An indentation is beyond all bounds. -/
def BeyondBounds (indent : Int) : Prop := indent < -wordBound ∨ wordBound ≤ indent

/-- A job comes to a step for which something is nested too deeply, once its input is read. -/
inductive TooDeep (context : Context) (job : Job) (files : Files) : Prop
  | loading {doc : Value} (h : ReadsTo context.limits files job.input doc)
      (hdeep : context.limits.loading doc = true)
  | normalizing {g : Graph} {root : Value} (h : LoadsTo context.limits files job.input g root)
      (hdeep : context.limits.normalizing g root = true)
  | dumping {g : Graph} {records : DocumentFragment} (h : NormalizesTo context.limits files job.input g records)
      (hdeep : context.limits.dumping records = true)
  | writing {g : Graph} {records : DocumentFragment} {data : Value}
      (h : NormalizesTo context.limits files job.input g records) (hflat : context.limits.dumping records = false)
      (hdata : IsOutput context job g records data) (hdeep : context.limits.writing data = true)

/-- A job comes to the output with these data. -/
def Outputs (context : Context) (job : Job) (files : Files) (data : Value) : Prop :=
  ∃ g records, NormalizesTo context.limits files job.input g records ∧ context.limits.dumping records = false ∧
    IsOutput context job g records data ∧ context.limits.writing data = false

/-- A job ends with a fault: its input has no data, something is nested too deeply for a step, its indentation is too
large, or its text is for a path that is none. -/
inductive JobFails (context : Context) (job : Job) (files : Files) : Fault → Prop
  | input {f : Fault} (h : Unreadable context.limits files job.input f) : JobFails context job files f
  | tooDeep (h : TooDeep context job files) : JobFails context job files .tooDeep
  | indent {data : Value} (hdata : Outputs context job files data)
      (h : BeyondBounds context.settings.jsonIndent) : JobFails context job files .indentTooLarge
  | output {data : Value} {line path : String} (hdata : Outputs context job files data)
      (hline : jsonText (Graph.empty).displayed (.int context.settings.jsonIndent) data = .ok line)
      (hpath : job.output = some path) (hnull : '\x00' ∈ path.toList) : JobFails context job files (.file .notAPath)

/-- A fault ends a command without a report: the log cannot be set up, or the job ends with a fault after its first
entry was logged. -/
inductive Escapes (context : Context) (job : Job) (c : Console) : Fault → Prop
  | log {e : SetupError} (h : LogFails c (Console.setupOf context.settings) e) : Escapes context job c (.setup e)
  | job {f : Fault} (hlog : ∀ e, ¬ LogFails c (Console.setupOf context.settings) e)
      (h : JobFails context job ((c.configure context.settings).1.emit (firstEntry job)).files f) :
      Escapes context job c f

/-- The log is set up to let no errors through. -/
def Silences (s : LogSetup) : Prop := ∃ level, levelNamed s.level = .ok level ∧ Level.error < level

/-- A command returned, or it ended with the exit code 1 after it had logged an error. -/
def IsReported (c : Console) (ending : Ending) (later : Console) : Prop :=
  ending = .exit 0 ∨ ending = .exit 1 ∧ c.LoggedError later

end Cli

/-! ### Setting up the log -/

namespace Cli

variable {context : Context} {job : Job} {g : Graph} {records : DocumentFragment} {data : Value} {path : String}
  {c later : Console} {f : Fault}

theorem setUp_eq_some_iff {s : LogSetup} {e : SetupError} : (c.setUp s).2 = some e ↔ LogFails c s e := by
  constructor
  · intro h
    unfold Console.setUp at h
    cases hlevel : levelNamed s.level with
    | error failure =>
      rw [hlevel] at h
      obtain rfl := Option.some.inj h
      exact .level hlevel
    | ok level =>
      cases hpath : s.file with
      | none => simp [hlevel, hpath] at h
      | some path =>
        by_cases hempty : path = ""
        · simp [hlevel, hpath, hempty] at h
        cases happend : c.files.append (pathOf (c.files.placeOf path)) .empty with
        | ok files => simp [hlevel, hpath, hempty, happend] at h
        | error failure =>
          obtain rfl : .file failure = e := by simpa [hlevel, hpath, hempty, happend] using h
          exact .file hlevel hpath hempty happend
  · rintro (h | ⟨hlevel, hpath, hne, h⟩)
    · simp [Console.setUp, h]
    · simp [Console.setUp, hlevel, hpath, hne, h]

theorem configure_eq_some_iff {settings : Settings} {e : SetupError} :
    (c.configure settings).2 = some e ↔ LogFails c (Console.setupOf settings) e := by
  rw [← setUp_eq_some_iff]
  simp only [Console.configure]
  rcases c.setUp (Console.setupOf settings) with ⟨mid, failure | _⟩ <;> simp

theorem setUp_log {s : LogSetup} (h : c.setUp s = (later, none)) :
    levelNamed s.level = .ok later.log.level ∧ later.logged = c.logged := by
  unfold Console.setUp at h
  cases hlevel : levelNamed s.level with
  | error failure => simp [hlevel] at h
  | ok level =>
    cases hpath : s.file with
    | none =>
      obtain rfl : _ = later := by simpa [hlevel, hpath] using h
      exact ⟨rfl, rfl⟩
    | some path =>
      by_cases hempty : path = ""
      · obtain rfl : _ = later := by simpa [hlevel, hpath, hempty] using h
        exact ⟨rfl, rfl⟩
      cases happend : c.files.append (pathOf (c.files.placeOf path)) .empty with
      | error failure => simp [hlevel, hpath, hempty, happend] at h
      | ok files =>
        obtain rfl : _ = later := by simpa [hlevel, hpath, hempty, happend] using h
        exact ⟨rfl, rfl⟩

/-- Once the log is set up, it has the level of its name, and goes on. -/
theorem configure_log {settings : Settings} (h : c.configure settings = (later, none)) :
    levelNamed (Console.setupOf settings).level = .ok later.log.level ∧
      Console.Continues { c with log := later.log } later := by
  simp only [Console.configure] at h
  cases hsetup : c.setUp (Console.setupOf settings) with
  | mk mid failure =>
    rw [hsetup] at h
    cases failure with
    | some e => simp at h
    | none =>
      obtain ⟨hlevel, hlogged⟩ := setUp_log hsetup
      obtain ⟨hlater, -⟩ := Prod.mk.inj h
      have hemit : mid.Continues later := hlater ▸ Console.continues_emit mid _
      have hmid : Console.Continues { c with log := mid.log } mid := .of_eq rfl hlogged
      rw [hemit.log]
      exact ⟨hlevel, hmid.trans hemit⟩

/-- Only two names stand for a level above that of errors. -/
theorem exists_levelNamed_iff (name : String) : (∃ level, levelNamed name = .ok level ∧ Level.error < level) ↔
    upperLatin name ∈ ["CRITICAL", "FATAL"] := by
  unfold levelNamed
  generalize upperLatin name = name
  constructor
  · rintro ⟨level, hlevel, hlt⟩
    cases hfound : levelsByName.lookup name with
    | some found =>
      simp only [hfound] at hlevel
      obtain rfl := Except.ok.inj hlevel
      have hall : ∀ a ∈ levelsByName, Level.error < a.2 → a.1 ∈ ["CRITICAL", "FATAL"] := by decide
      exact hall (name, found) (Table.mem_of_find? hfound) hlt
    | none =>
      simp only [hfound] at hlevel
      split_ifs at hlevel
      obtain rfl := Except.ok.inj hlevel
      exact absurd hlt (by decide)
  · intro h
    obtain rfl | rfl : name = "CRITICAL" ∨ name = "FATAL" := by simpa using h
    · exact ⟨50, rfl, by decide⟩
    · exact ⟨50, rfl, by decide⟩

/-- Only with these two names, and unless it is for debugging, the settings silence the log. -/
theorem silences_iff {settings : Settings} : Silences (Console.setupOf settings) ↔
    settings.debug = false ∧ upperLatin settings.logLevel ∈ ["CRITICAL", "FATAL"] := by
  have hdebug : upperLatin "DEBUG" ∉ ["CRITICAL", "FATAL"] := by decide +kernel
  rw [Silences, exists_levelNamed_iff, Console.setupOf]
  cases settings.debug with
  | true => simpa using hdebug
  | false => simp

/-- Errors are logged exactly if the log was not set up to let none through. -/
theorem isLogged_error_iff {s : LogSetup} (h : levelNamed s.level = .ok c.log.level) :
    c.isLogged Level.error = true ↔ ¬ Silences s := by
  have hsilences : Silences s ↔ Level.error < c.log.level := by
    refine ⟨?_, fun hlt => ⟨_, h, hlt⟩⟩
    rintro ⟨level, hlevel, hlt⟩
    rwa [Except.ok.inj (h.symm.trans hlevel)]
  rw [hsilences, Console.isLogged, Bool.and_eq_true, decide_eq_true_iff, decide_eq_true_iff, not_lt]
  exact and_iff_right (by decide)

/-! ### Steps -/

namespace Action

variable {α β : Type} {x : Action α} {k : α → Action β}

theorem faults_bind_iff : (x >>= k).Faults c f ↔
    x.Faults c f ∨ ∃ a mid, x c = (.ok a, mid) ∧ (k a).Faults mid f := by
  constructor
  · rintro ⟨later, h⟩
    rcases bind_eq_error.mp h with hx | ⟨a, mid, hx, hk⟩
    · exact .inl ⟨later, hx⟩
    · exact .inr ⟨a, mid, hx, later, hk⟩
  · rintro (⟨later, hx⟩ | ⟨a, mid, hx, later, hk⟩)
    · exact ⟨later, bind_eq_error.mpr (.inl hx)⟩
    · exact ⟨later, bind_eq_error.mpr (.inr ⟨a, mid, hx, hk⟩)⟩

/-- A step that cannot end with a fault adds none. -/
theorem faults_bind_iff_left (hk : ∀ a mid, ¬ (k a).Faults mid f) : (x >>= k).Faults c f ↔ x.Faults c f := by
  rw [faults_bind_iff]
  refine or_iff_left ?_
  rintro ⟨a, mid, -, h⟩
  exact hk a mid h

theorem faults_ofExcept_bind_iff {ε : Type} {e : ε → Fault} {r : Except ε α} {a : α} (hr : r = .ok a) :
    (Action.ofExcept e r >>= k).Faults c f ↔ (k a).Faults c f := by
  subst hr
  rfl

theorem faults_fault_iff {e : Fault} : (Action.fault e : Action α).Faults c f ↔ f = e := by
  simp [Faults, Action.fault, Action.stop, eq_comm]

theorem not_faults_pure (a : α) : ¬ (Pure.pure a : Action α).Faults c f := by
  simp [Faults, Pure.pure]

theorem not_faults_modify (h : Console → Console) : ¬ (Action.modify h).Faults c f := by
  simp [Faults, Action.modify]

theorem not_faults_exit (code : Nat) : ¬ (Action.stop (.exit code) : Action α).Faults c f := by
  simp [Faults, Action.stop]

theorem faults_descend_bind_iff {tooDeep : Bool} {k : Unit → Action β} :
    (Action.descend tooDeep >>= k).Faults c f ↔
      tooDeep = true ∧ f = .tooDeep ∨ tooDeep = false ∧ (k ()).Faults c f := by
  cases tooDeep with
  | true =>
    have hdeep : (Action.descend true >>= k).Faults c f ↔ (Action.fault .tooDeep : Action β).Faults c f := Iff.rfl
    rw [hdeep, faults_fault_iff]
    simp
  | false =>
    have hnone : (Action.descend false >>= k).Faults c f ↔ (k ()).Faults c f := Iff.rfl
    simp [hnone]

end Action

open ViewGraph.Cli.Action

theorem not_faults_fail {α : Type} (message : String) : ¬ (fail message : Action α).Faults c f := by
  rw [fail, faults_bind_iff]
  rintro (h | ⟨_, _, -, h⟩)
  · exact not_faults_modify _ h
  · exact not_faults_exit 1 h

theorem faults_console_bind_iff {α : Type} {k : Console → Action α} :
    (Action.console >>= k).Faults c f ↔ (k c).Faults c f := Iff.rfl

/-! ### Reading -/

section

variable {limits : DepthLimits} {files : Files}

theorem unreadable_of_error {e : FileError} (hread : files.read path = .error e) :
    Unreadable limits files path f ↔ e ≠ .notFound ∧ f = .file e := by
  constructor
  · rintro (⟨h, hne⟩ | ⟨h, -⟩ | ⟨h, -, -⟩ | ⟨h, -, -, -⟩)
    · rw [hread] at h
      obtain rfl := Except.error.inj h
      exact ⟨hne, rfl⟩
    all_goals simp [hread] at h
  · rintro ⟨hne, rfl⟩
    exact .file hread hne

theorem unreadable_of_undecodable {content : ByteArray} (hread : files.read path = .ok content)
    (hutf8 : String.fromUTF8? content = none) : Unreadable limits files path f ↔ f = .undecodable := by
  constructor
  · rintro (⟨h, -⟩ | ⟨-, -⟩ | ⟨h, htext, -⟩ | ⟨h, htext, -, -⟩)
    · simp [hread] at h
    · rfl
    all_goals
      rw [hread] at h
      obtain rfl := Except.ok.inj h
      simp [hutf8] at htext
  · rintro rfl
    exact .undecodable hread hutf8

theorem unreadable_of_text {content : ByteArray} {text : String} (hread : files.read path = .ok content)
    (hutf8 : String.fromUTF8? content = some text) : Unreadable limits files path f ↔
      limits.reading text.toList = true ∧ f = .tooDeep ∨ limits.reading text.toList = false ∧
        Document.ofText text.toList = .error .tooManyDigits ∧ f = .tooManyDigits := by
  have hsame : ∀ {other : ByteArray} {text' : String}, files.read path = .ok other →
      String.fromUTF8? other = some text' → text' = text := by
    intro other text' h h'
    obtain rfl := Except.ok.inj (hread.symm.trans h)
    exact Option.some.inj (h'.symm.trans hutf8)
  constructor
  · rintro (⟨h, -⟩ | ⟨h, hnone⟩ | ⟨h, hsome, hdeep⟩ | ⟨h, hsome, hshallow, hdigits⟩)
    · simp [hread] at h
    · obtain rfl := Except.ok.inj (hread.symm.trans h)
      simp [hutf8] at hnone
    · obtain rfl := hsame h hsome
      exact .inl ⟨hdeep, rfl⟩
    · obtain rfl := hsame h hsome
      exact .inr ⟨hshallow, hdigits, rfl⟩
  · rintro (⟨hdeep, rfl⟩ | ⟨hshallow, hdigits, rfl⟩)
    · exact .tooDeep hread hutf8 hdeep
    · exact .tooManyDigits hread hutf8 hshallow hdigits

theorem faults_readData_iff : (readData limits path).Faults c f ↔ Unreadable limits c.files path f := by
  rw [readData, faults_console_bind_iff]
  cases hread : c.files.read path with
  | error e =>
    rw [unreadable_of_error hread]
    cases e with
    | notFound => exact iff_of_false (not_faults_fail _) fun h => h.1 rfl
    | _ => exact faults_fault_iff.trans (by simp)
  | ok content =>
    simp only
    cases hutf8 : String.fromUTF8? content with
    | none => exact faults_fault_iff.trans (unreadable_of_undecodable hread hutf8).symm
    | some text =>
      rw [unreadable_of_text hread hutf8]
      refine faults_descend_bind_iff.trans (or_congr_right (and_congr_right fun _ => ?_))
      cases Document.ofText text.toList with
      | ok doc => exact iff_of_false (not_faults_pure _) (by simp)
      | error failure =>
        cases failure with
        | malformed message => exact iff_of_false (not_faults_fail _) (by simp)
        | tooManyDigits => exact faults_fault_iff.trans (by simp)

theorem isShortDocument_of_readsTo {doc : Value} (h : ReadsTo limits files path doc) :
    doc.isShortDocument = true := by
  obtain ⟨content, text, -, -, -, htext⟩ := h
  exact Document.isShortDocument_of_ofText htext

end

/-- What is read is loaded, refused or normalized, and none of these goes unreported, unless it is nested too
deeply. -/
theorem faults_normalizeFile_iff (hquiet : context.interrupted = false) :
    (normalizeFile context path).Faults c f ↔ Unreadable context.limits c.files path f ∨ f = .tooDeep ∧
      ((∃ doc, ReadsTo context.limits c.files path doc ∧ context.limits.loading doc = true) ∨
        ∃ g root, LoadsTo context.limits c.files path g root ∧ context.limits.normalizing g root = true) := by
  rw [normalizeFile, faults_bind_iff, faults_readData_iff]
  refine or_congr_right ⟨?_, ?_⟩
  · rintro ⟨doc, mid, hdata, hrest⟩
    obtain ⟨rfl, hreads⟩ := readData_eq_ok hdata
    have hdoc := isShortDocument_of_readsTo hreads
    simp only [hquiet, Bool.false_eq_true, if_false] at hrest
    rcases faults_descend_bind_iff.mp hrest with ⟨hdeep, rfl⟩ | ⟨hshallow, htree⟩
    · exact ⟨rfl, .inl ⟨doc, hreads, hdeep⟩⟩
    cases hload : Document.loadInto .empty doc with
    | error e =>
      obtain ⟨e, rfl⟩ := (Document.formatOnly_loadInto hdoc .empty).exists_format hload
      simp only [hload] at htree
      exact absurd htree (not_faults_fail _)
    | ok loaded =>
      simp only [hload] at htree
      rcases faults_descend_bind_iff.mp htree with ⟨hdeep, rfl⟩ | ⟨-, hrecords⟩
      · exact ⟨rfl, .inr ⟨loaded.1, loaded.2, ⟨doc, hreads, hshallow, hload⟩, hdeep⟩⟩
      rcases faults_bind_iff.mp hrecords with hentries | ⟨_, _, -, hnormal⟩
      · exact absurd hentries (not_faults_modify _)
      rcases rendered_or_duplicate hdoc hload with ⟨records, hok⟩ | ⟨d, hduplicate⟩
      · simp only [hok] at hnormal
        exact absurd hnormal (not_faults_pure _)
      · simp only [hduplicate] at hnormal
        exact absurd hnormal (not_faults_fail _)
  · rintro ⟨rfl, ⟨doc, hreads, hdeep⟩ | ⟨g, root, ⟨doc, hreads, hshallow, hload⟩, hdeep⟩⟩
    · refine ⟨doc, c, readData_of_readsTo hreads, ?_⟩
      simp only [hquiet, Bool.false_eq_true, if_false]
      exact faults_descend_bind_iff.mpr (.inl ⟨hdeep, rfl⟩)
    · refine ⟨doc, c, readData_of_readsTo hreads, ?_⟩
      simp only [hquiet, Bool.false_eq_true, if_false, hload]
      exact faults_descend_bind_iff.mpr (.inr ⟨hshallow, faults_descend_bind_iff.mpr (.inl ⟨hdeep, rfl⟩)⟩)

/-! ### Writing -/

/-- The records of a template in a file have data, which are a table. -/
theorem exists_isOutput (context : Context) (job : Job) {files : Files} (h : Renders files path g records) :
    ∃ members, IsOutput context job g records (.dict members) := by
  obtain ⟨content, text, doc, root, -, -, htext, hload, hok⟩ := h
  have hdoc := Document.isShortDocument_of_ofText htext
  have hdump := dumpFragment_of_loadInto hdoc hload hok
  by_cases hkeyed : job.keyed = true
  · obtain ⟨t, -, ht, hplant⟩ := exists_sound_of_loadInto hdoc hload
    have hprops : ∀ a ∈ (Maps.ofFragment records).props, ∃ b,
        (do return (a.1, ← dumpProp g {} a.2) : Except DumpError (String × Value)) = .ok b := by
      intro a ha
      obtain ⟨p, hp, rfl⟩ := List.mem_map.mp (Table.mem_of_mem_ofList ha)
      exact ⟨_, by rw [dumpProp_eq (isData_of_mem_props ht hplant hok hp)]; rfl⟩
    obtain ⟨dumped, hdumped⟩ := exists_mapM_eq_ok hprops
    obtain ⟨members, hmaps⟩ : ∃ members, (Maps.ofFragment records).dump g = .ok (.dict members) := by
      unfold Maps.dump
      rw [hdumped]
      exact ⟨_, rfl⟩
    exact ⟨members, .keyed hkeyed hmaps⟩
  · have hplain : job.keyed = false := by simpa using hkeyed
    by_cases hsummary : job.summary = true ∨ context.settings.includeSummary = true
    · obtain ⟨members, hreport⟩ : ∃ members, report g context.time records = .ok (.dict members) := by
        unfold report
        rw [hdump]
        exact ⟨_, rfl⟩
      exact ⟨members, .report hplain hsummary hreport⟩
    · exact ⟨_, .plain hplain hsummary hdump⟩

/-- A table has a text, unless the indentation is too large or a number in the table is refused. -/
theorem jsonText_int_dict (display : Value → Shown (List Char)) (indent : Int) (members : List (String × Value)) :
    BeyondBounds indent ∧ jsonText display (.int indent) (.dict members) = .error .indentTooLarge ∨
      ¬ BeyondBounds indent ∧ ((∃ line, jsonText display (.int indent) (.dict members) = .ok line) ∨
        (∃ x indented, jsonText display (.int indent) (.dict members) = .error (.notFinite x indented)) ∨
          jsonText display (.int indent) (.dict members) = .error .tooManyDigits) := by
  by_cases hindent : BeyondBounds indent
  · exact .inl ⟨hindent, by rw [jsonText_dict, Json.layout_eq_error hindent]; rfl⟩
  · have hbounds : -wordBound ≤ indent ∧ indent < wordBound := by
      unfold BeyondBounds at hindent
      omega
    obtain ⟨layout, hlayout⟩ := Json.exists_layout (.inr ⟨indent, rfl, hbounds⟩)
    rw [jsonText_dict, hlayout]
    refine .inr ⟨hindent, ?_⟩
    show (∃ line, layoutText display layout _ = .ok line) ∨
      (∃ x indented, layoutText display layout _ = _) ∨ layoutText display layout _ = _
    unfold layoutText
    cases Json.write display layout (.dict members) with
    | ok text => exact .inl ⟨_, rfl⟩
    | error e =>
      cases e with
      | notFinite x => exact .inr (.inl ⟨_, _, rfl⟩)
      | tooManyDigits => exact .inr (.inr rfl)

section

variable {limits : DepthLimits} {indent : Int} {members : List (String × Value)} {output : Option String}

theorem faults_outputText_iff : (outputText limits indent (.dict members)).Faults c f ↔
    limits.writing (.dict members) = true ∧ f = .tooDeep ∨
      limits.writing (.dict members) = false ∧ BeyondBounds indent ∧ f = .indentTooLarge := by
  refine faults_descend_bind_iff.trans (or_congr_right (and_congr_right fun _ => ?_))
  rcases jsonText_int_dict Graph.empty.displayed indent members with
    ⟨hindent, htext⟩ | ⟨hindent, ⟨line, htext⟩ | ⟨x, indented, htext⟩ | htext⟩
  · rw [htext]
    exact faults_fault_iff.trans (by simp [hindent])
  · rw [htext]
    exact iff_of_false (not_faults_pure _) (by simp [hindent])
  · rw [htext]
    exact iff_of_false (not_faults_fail _) (by simp [hindent])
  · rw [htext]
    exact iff_of_false (not_faults_fail _) (by simp [hindent])

/-- The text of a table is written, unless the table is nested too deeply, it has no text, or the path is none. -/
theorem faults_writeData_iff : (writeData limits indent output (.dict members)).Faults c f ↔
    limits.writing (.dict members) = true ∧ f = .tooDeep ∨ limits.writing (.dict members) = false ∧
      (BeyondBounds indent ∧ f = .indentTooLarge ∨
        (∃ line, jsonText Graph.empty.displayed (.int indent) (.dict members) = .ok line) ∧
          (∃ path, output = some path ∧ '\x00' ∈ path.toList) ∧ f = .file .notAPath) := by
  constructor
  · rintro ⟨later, h⟩
    rcases bind_eq_error.mp h with htext | ⟨text, mid, htext, -⟩
    · exact (faults_outputText_iff.mp ⟨later, htext⟩).imp_right fun ⟨hshallow, hindent⟩ =>
        ⟨hshallow, .inl hindent⟩
    obtain ⟨-, hshallow, line, hline, -⟩ := outputText_eq_ok htext
    cases saves_of_writeData hshallow hline h with
    | notAPath houtput hwrite =>
      exact .inr ⟨hshallow, .inr ⟨⟨line, hline⟩, ⟨_, houtput, write_eq_notAPath_iff.mp hwrite⟩, rfl⟩⟩
  · rintro (hdeep | ⟨hshallow, hindent | ⟨⟨line, hline⟩, ⟨path, rfl, hnull⟩, rfl⟩⟩)
    · exact faults_bind_iff.mpr (.inl (faults_outputText_iff.mpr (.inl hdeep)))
    · exact faults_bind_iff.mpr (.inl (faults_outputText_iff.mpr (.inr ⟨hshallow, hindent⟩)))
    have hempty : path.isEmpty = false := by
      rw [Bool.eq_false_iff]
      intro h
      simp [String.isEmpty_iff.mp h] at hnull
    refine faults_bind_iff.mpr (.inr ⟨line ++ "\n", c, outputText_of_text hshallow hline, ?_⟩)
    simp only [Option.getD_some, hempty]
    refine faults_console_bind_iff.mpr ?_
    simp only [write_eq_notAPath_iff.mpr hnull]
    exact faults_fault_iff.mpr rfl

end

/-! ### A whole command -/

theorem faults_log_bind_iff {α : Type} {level : Level} {message : String} {k : Unit → Action α} :
    (log level message >>= k).Faults c f ↔ (k ()).Faults (c.emit ⟨level, commandLogger, message⟩) f := Iff.rfl

/-- The data of the records of a template are a table. -/
theorem exists_dict_of_isOutput {files : Files} (hrenders : Renders files path g records)
    (hdata : IsOutput context job g records data) : ∃ members, data = .dict members := by
  obtain ⟨members, h⟩ := exists_isOutput context job hrenders
  exact ⟨members, Except.ok.inj ((isOutput_iff.mp hdata).symm.trans (isOutput_iff.mp h))⟩

/-- What is left of a job once there are records fails where their data cannot be written. -/
theorem faults_records_iff {files : Files} {last : Action Unit} (hlast : ∀ mid, ¬ last.Faults mid f)
    (hrenders : Renders files path g records) : Action.Faults (do
      Action.descend (context.limits.dumping records)
      let data ← Action.ofExcept .dump (dataOf context job g records)
      writeData context.limits context.settings.jsonIndent job.output data
      last) c f ↔ context.limits.dumping records = true ∧ f = .tooDeep ∨
        context.limits.dumping records = false ∧ ∃ members, IsOutput context job g records (.dict members) ∧
          (writeData context.limits context.settings.jsonIndent job.output (.dict members)).Faults c f := by
  refine faults_descend_bind_iff.trans (or_congr_right (and_congr_right fun _ => ?_))
  obtain ⟨members, hdata⟩ := exists_isOutput context job hrenders
  rw [faults_ofExcept_bind_iff (isOutput_iff.mp hdata), faults_bind_iff_left fun _ => hlast]
  refine ⟨fun h => ⟨members, hdata, h⟩, ?_⟩
  rintro ⟨members', hdata', h⟩
  obtain rfl := Value.dict.inj (Except.ok.inj ((isOutput_iff.mp hdata).symm.trans (isOutput_iff.mp hdata')))
  exact h

/-- The last entry of a job is no fault. -/
theorem not_faults_last (keyed : Bool) (message : String) (mid : Console) :
    ¬ Action.Faults (if !keyed then log Level.info message else pure ()) mid f := by
  split_ifs
  · exact not_faults_modify _
  · exact not_faults_pure _

/-- A job that comes to the records of its template fails where they do. -/
theorem faults_runJob_of_records (hquiet : context.interrupted = false)
    (hnormalizes : NormalizesTo context.limits (c.emit (firstEntry job)).files job.input g records)
    (h : context.limits.dumping records = true ∧ f = .tooDeep ∨ context.limits.dumping records = false ∧
      ∃ members, IsOutput context job g records (.dict members) ∧ ∀ mid,
        (writeData context.limits context.settings.jsonIndent job.output (.dict members)).Faults mid f) :
    (runJob context job).Faults c f := by
  obtain ⟨entries, hnormal⟩ := normalizeFile_of_normalizesTo hquiet hnormalizes
  rw [runJob, faults_log_bind_iff, faults_bind_iff]
  refine .inr ⟨_, _, hnormal, (faults_records_iff (not_faults_last _ _) hnormalizes.renders).mpr ?_⟩
  exact h.imp_right fun ⟨hflat, members, hdata, hwrite⟩ => ⟨hflat, members, hdata, hwrite _⟩

/-- A job that comes to its output fails where its data cannot be written. -/
theorem faults_runJob_of_outputs (hquiet : context.interrupted = false)
    (hdata : Outputs context job (c.emit (firstEntry job)).files data)
    (h : BeyondBounds context.settings.jsonIndent ∧ f = .indentTooLarge ∨
      (∃ line, jsonText Graph.empty.displayed (.int context.settings.jsonIndent) data = .ok line) ∧
        (∃ path, job.output = some path ∧ '\x00' ∈ path.toList) ∧ f = .file .notAPath) :
    (runJob context job).Faults c f := by
  obtain ⟨g, records, hnormalizes, hflat, hdata, hshallow⟩ := hdata
  obtain ⟨members, rfl⟩ := exists_dict_of_isOutput hnormalizes.renders hdata
  have hwrite := fun mid => (faults_writeData_iff (c := mid)).mpr (.inr ⟨hshallow, h⟩)
  exact faults_runJob_of_records hquiet hnormalizes (.inr ⟨hflat, members, hdata, hwrite⟩)

/-- **Jobs.** A job that the user leaves alone ends with a fault exactly if its input has no data, something is
nested too deeply, its indentation is too large or its text is for a path that is none. -/
theorem faults_runJob_iff (hquiet : context.interrupted = false) :
    (runJob context job).Faults c f ↔ JobFails context job (c.emit (firstEntry job)).files f := by
  constructor
  · intro h
    rw [runJob, faults_log_bind_iff, faults_bind_iff, faults_normalizeFile_iff hquiet] at h
    rcases h with (hinput | ⟨rfl, ⟨doc, hreads, hdeep⟩ | ⟨g, root, hloads, hdeep⟩⟩) |
      ⟨⟨g, records⟩, mid, hnormal, hrest⟩
    · exact .input hinput
    · exact .tooDeep (.loading hreads hdeep)
    · exact .tooDeep (.normalizing hloads hdeep)
    have hnormalizes := normalizesTo_of_normalizeFile hnormal
    rcases (faults_records_iff (not_faults_last _ _) hnormalizes.renders).mp hrest with
      ⟨hdeep, rfl⟩ | ⟨hflat, members, hdata, hwrite⟩
    · exact .tooDeep (.dumping hnormalizes hdeep)
    rcases faults_writeData_iff.mp hwrite with ⟨hdeep, rfl⟩ | ⟨hshallow, hwrite⟩
    · exact .tooDeep (.writing hnormalizes hflat hdata hdeep)
    have houtputs : Outputs context job (c.emit (firstEntry job)).files (.dict members) :=
      ⟨g, records, hnormalizes, hflat, hdata, hshallow⟩
    rcases hwrite with ⟨hindent, rfl⟩ | ⟨⟨line, hline⟩, ⟨path, hpath, hnull⟩, rfl⟩
    · exact .indent houtputs hindent
    · exact .output houtputs hline hpath hnull
  · have hinput : (normalizeFile context job.input).Faults (c.emit (firstEntry job)) f →
        (runJob context job).Faults c f := fun h => by
      rw [runJob, faults_log_bind_iff, faults_bind_iff]
      exact .inl h
    rw [faults_normalizeFile_iff hquiet] at hinput
    rintro (hunreadable | hdeep | ⟨hdata, hindent⟩ | ⟨hdata, hline, hpath, hnull⟩)
    · exact hinput (.inl hunreadable)
    · rcases hdeep with ⟨hreads, hdeep⟩ | ⟨hloads, hdeep⟩ | ⟨hnormalizes, hdeep⟩ | ⟨hnormalizes, hflat, hdata, hdeep⟩
      · exact hinput (.inr ⟨rfl, .inl ⟨_, hreads, hdeep⟩⟩)
      · exact hinput (.inr ⟨rfl, .inr ⟨_, _, hloads, hdeep⟩⟩)
      · exact faults_runJob_of_records hquiet hnormalizes (.inl ⟨hdeep, rfl⟩)
      · obtain ⟨members, rfl⟩ := exists_dict_of_isOutput hnormalizes.renders hdata
        exact faults_runJob_of_records hquiet hnormalizes (.inr ⟨hflat, members, hdata, fun _ =>
          faults_writeData_iff.mpr (.inl ⟨hdeep, rfl⟩)⟩)
    · exact faults_runJob_of_outputs hquiet hdata (.inl ⟨hindent, rfl⟩)
    · exact faults_runJob_of_outputs hquiet hdata (.inr ⟨⟨_, hline⟩, ⟨_, hpath, hnull⟩, rfl⟩)

variable {arguments : List String} {ending : Ending}

/-- **Faults.** A command that the user leaves alone ends with a fault exactly if the fault is one that escapes. -/
theorem execute_eq_fault_iff (hrun : Invocation.ofArguments arguments = .run job)
    (hquiet : context.interrupted = false) (h : execute context arguments c = (ending, later)) :
    ending = .fault f ↔ Escapes context job c f := by
  have hfails := fun e => @configure_eq_some_iff c context.settings e
  rcases execute_run hrun h with ⟨e, hconfigure, rfl⟩ | ⟨configured, hconfigure, hjob⟩
  · rw [hconfigure] at hfails
    constructor
    · intro hf
      obtain rfl := Ending.fault.inj hf
      exact .log ((hfails e).mp rfl)
    · rintro (he | ⟨hlog, -⟩)
      · rw [Option.some.inj ((hfails _).mpr he)]
      · exact absurd ((hfails e).mp rfl) (hlog e)
  · rw [hconfigure] at hfails
    have hlog : ∀ e, ¬ LogFails c (Console.setupOf context.settings) e := fun e he => by
      simpa using (hfails e).mpr he
    have hfault : ending = .fault f ↔ Action.Faults (runJob context job) configured f := by
      unfold Faults
      rcases hjob with ⟨hjob, rfl⟩ | hjob <;> simp [hjob]
    rw [hfault, faults_runJob_iff hquiet]
    constructor
    · exact fun hfails => .job hlog (by rwa [hconfigure])
    · rintro (he | ⟨-, hfails⟩)
      · exact absurd he (hlog _)
      · rwa [hconfigure] at hfails

/-- A command that the user leaves alone ends with a fault, returns, or exits with the code 1; before that it has logged
an error exactly if the log lets errors through. -/
theorem fault_or_isReported_iff (hrun : Invocation.ofArguments arguments = .run job)
    (hquiet : context.interrupted = false) (h : execute context arguments c = (ending, later)) :
    (∃ f, ending = .fault f) ∨ ending = .exit 0 ∨ ending = .exit 1 ∧
      (c.LoggedError later ↔ ¬ Silences (Console.setupOf context.settings)) := by
  rcases execute_run hrun h with ⟨e, -, rfl⟩ | ⟨configured, hconfigure, ⟨-, rfl⟩ | hjob⟩
  · exact .inl ⟨_, rfl⟩
  · exact .inr (.inl rfl)
  obtain ⟨hlevel, hbefore⟩ := configure_log hconfigure
  have hreports := reports_runJob context job
  have hwhole := hreports.continues configured
  rw [hjob] at hwhole
  refine (hreports.ends configured later ending hjob).imp_right fun ⟨hexit, herror⟩ => .inr ⟨hexit, ?_⟩
  rw [← isLogged_error_iff hlevel]
  refine ⟨fun hlogged => ?_, fun hlogged => hbefore.loggedError (herror hquiet hlogged)⟩
  by_contra hsilent
  have hoff : configured.isLogged Level.error = false := by simpa using hsilent
  exact (hbefore.trans hwhole).not_loggedError hoff hlogged

/-- A console with a list of a text that is no text: one of its bytes stands in none. -/
def undecodableConsole : Console :=
  { files := { nodes := [(["t.json"], .file ⟨#[0x5b, 0x22, 0xff, 0x22, 0x5d]⟩)] } }

theorem escapes_undecodableConsole : Escapes {} renderJob undecodableConsole .undecodable := by
  have hlog : ∀ e, ¬ LogFails undecodableConsole (Console.setupOf {}) e := by
    intro e he
    have hsome := configure_eq_some_iff.mpr he
    have hnone : (undecodableConsole.configure {}).2 = none := rfl
    simp [hnone] at hsome
  have hfiles : ((undecodableConsole.configure {}).1.emit (firstEntry renderJob)).files = undecodableConsole.files :=
    rfl
  refine .job hlog (.input ?_)
  rw [Context.settings, hfiles]
  have hread : undecodableConsole.files.read "t.json" = .ok _ := read_name rfl rfl
  exact .undecodable hread (by decide +kernel)

/-- **Reports.** A command that the user leaves alone returns, or ends with the exit code 1 after it has logged an
error, exactly if no fault escapes and the log is not silenced where there is something to report; a fault that
escapes ends it, and otherwise it returns or ends with the exit code 1. -/
theorem execute_reported_iff (context : Context) (hquiet : context.interrupted = false)
    (hrun : Invocation.ofArguments arguments = .run job) (c later : Console) (ending : Ending)
    (h : execute context arguments c = (ending, later)) :
    (IsReported c ending later ↔ (∀ f, ¬ Escapes context job c f) ∧
      (ending ≠ .exit 0 → ¬ Silences (Console.setupOf context.settings))) ∧
      (∀ f, ending = .fault f ↔ Escapes context job c f) ∧
        ((∀ f, ¬ Escapes context job c f) → ending = .exit 0 ∨ ending = .exit 1) := by
  have hfault : ∀ f, ending = .fault f ↔ Escapes context job c f := fun f => execute_eq_fault_iff hrun hquiet h
  rcases fault_or_isReported_iff hrun hquiet h with ⟨f, rfl⟩ | rfl | ⟨rfl, herror⟩
  · have hescapes := (hfault f).mp rfl
    refine ⟨iff_of_false ?_ fun hnone => hnone.1 f hescapes, hfault, fun hnone => absurd hescapes (hnone f)⟩
    simp [IsReported]
  · have hnone : ∀ f, ¬ Escapes context job c f := fun f hf => by simpa using (hfault f).mpr hf
    exact ⟨iff_of_true (.inl rfl) ⟨hnone, fun hne => absurd rfl hne⟩, hfault, fun _ => .inl rfl⟩
  · have hnone : ∀ f, ¬ Escapes context job c f := fun f hf => by simpa using (hfault f).mpr hf
    refine ⟨?_, hfault, fun _ => .inr rfl⟩
    simp [IsReported, herror, hnone]

theorem execute_reported_iff_undecodable :
    ∃ later, execute {} renderArguments undecodableConsole = (.fault .undecodable, later) := by
  cases hexecute : execute {} renderArguments undecodableConsole with
  | mk ending later =>
    obtain ⟨-, hfault, -⟩ := execute_reported_iff {} rfl ofArguments_renderArguments _ later ending hexecute
    exact ⟨later, by rw [(hfault _).mpr escapes_undecodableConsole]⟩

/-- Commands do not report all that goes wrong. -/
theorem not_execute_reported : ¬ ∀ (context : Context) (arguments : List String) (job : Job) (c later : Console)
    (ending : Ending), context.interrupted = false → Invocation.ofArguments arguments = .run job →
      execute context arguments c = (ending, later) → IsReported c ending later := by
  intro h
  cases hexecute : execute {} renderArguments undecodableConsole with
  | mk ending later =>
    have hfault : ending = .fault .undecodable :=
      (execute_eq_fault_iff ofArguments_renderArguments rfl hexecute).mpr escapes_undecodableConsole
    rcases h {} _ _ _ _ _ rfl ofArguments_renderArguments hexecute with hexit | ⟨hexit, -⟩
    · simp [hfault] at hexit
    · simp [hfault] at hexit

end Cli

end ViewGraph
