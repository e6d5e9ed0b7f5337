import ViewGraph.Proofs.Actions

/-!
# What a command writes

A command writes its text to one destination, once everything that can fail has succeeded.

* `Renders`: the records of the template in a file.
* `ReadsTo`, `LoadsTo`, `NormalizesTo`: the steps on the way to these, as far as nothing is nested too deeply.
* `IsOutput`: the data that a job writes for these records.
* `Received`: one destination received a text, and nothing else changed but the log.
* `saves_of_writeData`: what is done with a text.
* `onlyLogged_writeData`, `writeData_eq_ok`: writing fails and leaves everything as it was, or one destination
  receives the text.
* `execute_allOrNothing`: so it is with a command as a whole.
-/

namespace ViewGraph.Cli

open Files ViewGraph.Cli.Action

/-! ### Definitions -/

/-- The template in a file can be read, loaded and normalized; `f` are its records, in the graph `g`. -/
def Renders (files : Files) (path : String) (g : Graph) (f : DocumentFragment) : Prop :=
  ∃ content text doc root, files.read path = .ok content ∧ String.fromUTF8? content = some text ∧
    Document.ofText text.toList = .ok doc ∧ Document.loadInto .empty doc = .ok (g, root) ∧
      (normalize g root).outcome = .ok f

/-- The document in a file can be read, and its text is not nested too deeply. -/
def ReadsTo (limits : DepthLimits) (files : Files) (path : String) (doc : Value) : Prop :=
  ∃ content text, files.read path = .ok content ∧ String.fromUTF8? content = some text ∧
    limits.reading text.toList = false ∧ Document.ofText text.toList = .ok doc

/-- The document in a file can be loaded, and is not nested too deeply. -/
def LoadsTo (limits : DepthLimits) (files : Files) (path : String) (g : Graph) (root : Value) : Prop :=
  ∃ doc, ReadsTo limits files path doc ∧ limits.loading doc = false ∧ Document.loadInto .empty doc = .ok (g, root)

/-- The template in a file can be normalized, and is not nested too deeply. -/
def NormalizesTo (limits : DepthLimits) (files : Files) (path : String) (g : Graph) (f : DocumentFragment) : Prop :=
  ∃ root, LoadsTo limits files path g root ∧ limits.normalizing g root = false ∧ (normalize g root).outcome = .ok f

/-- The first entry of a job. -/
def firstEntry (job : Job) : LogEntry :=
  ⟨Level.info, commandLogger,
    "Normalizing template " ++ job.input ++ (if job.keyed then " to maps" else "") ++ "..."⟩

/-- What a job writes for some records: the records keyed by their ids, a report, or the records as they are. -/
inductive IsOutput (context : Context) (job : Job) (g : Graph) (f : DocumentFragment) (data : Value) : Prop
  | keyed (hjob : job.keyed = true) (h : (Maps.ofFragment f).dump g = .ok data)
  | report (hjob : job.keyed = false) (hsummary : job.summary = true ∨ context.settings.includeSummary = true)
      (h : report g context.time f = .ok data)
  | plain (hjob : job.keyed = false) (hsummary : ¬ (job.summary = true ∨ context.settings.includeSummary = true))
      (h : dumpFragment g {} f = .ok data)

/-- What is done with a text: it goes to the terminal or to a file.  If the file cannot be written, that is reported,
unless its path is none. -/
inductive Saves (output : Option String) (text : String) (c : Console) : Except Ending Unit → Console → Prop
  | terminal (houtput : output.getD "" = "") :
      Saves output text c (.ok ()) { c with stdout := c.stdout ++ text }
  | file {path : String} {files : Files} (houtput : output = some path) (hpath : path ≠ "")
      (hwrite : c.files.write path text.toUTF8 = .ok files) : Saves output text c (.ok ())
        (Console.emit { c with files := files } ⟨Level.info, commandLogger, "Output saved to: " ++ path⟩)
  | notAPath {path : String} (houtput : output = some path)
      (hwrite : c.files.write path text.toUTF8 = .error .notAPath) :
      Saves output text c (.error (.fault (.file .notAPath))) c
  | refused {path : String} {e : FileError} (houtput : output = some path) (he : e ≠ .notAPath)
      (hwrite : c.files.write path text.toUTF8 = .error e) : Saves output text c (.error (.exit 1))
        (c.emit ⟨Level.error, commandLogger, "Failed to save output to " ++ path ++ ": " ++ e.message path⟩)

/-- One destination received a text, the terminal or the file that is named, and nothing else changed but the
log. -/
inductive Received (place? : Option (List String)) (output : Option String) (c later : Console) (text : String) :
    Prop
  | terminal (houtput : output.getD "" = "") (stdout : later.stdout = c.stdout ++ text)
      (files : SameBut place? c.files later.files)
  | file (path : String) (houtput : output = some path) (hpath : path ≠ "") (stdout : later.stdout = c.stdout)
      (received : later.files.node? (c.files.placeOf path) = some (.file text.toUTF8))
      (directory : later.files.directory = c.files.directory)
      (others : ∀ place, place ≠ c.files.placeOf path → place? ≠ some place →
        later.files.node? place = c.files.node? place)

variable {context : Context} {job : Job} {g : Graph} {f : DocumentFragment} {data : Value} {text path : String}
  {place? : Option (List String)} {output : Option String} {c mid later : Console} {e : Ending}

theorem NormalizesTo.renders {limits : DepthLimits} {files : Files} (h : NormalizesTo limits files path g f) :
    Renders files path g f := by
  obtain ⟨root, ⟨doc, ⟨content, text, hread, hutf8, -, htext⟩, -, hload⟩, -, hok⟩ := h
  exact ⟨content, text, doc, root, hread, hutf8, htext, hload, hok⟩

/-- Where nothing is ever nested too deeply, a template that can be normalized at all is normalized. -/
theorem Renders.normalizesTo {files : Files} (h : Renders files path g f) : NormalizesTo {} files path g f := by
  obtain ⟨content, text, doc, root, hread, hutf8, htext, hload, hok⟩ := h
  exact ⟨root, ⟨doc, ⟨content, text, hread, hutf8, rfl, htext⟩, rfl, hload⟩, rfl, hok⟩

theorem Renders.of_sameBut {files now : Files} (h : Renders now path g f) (hfiles : SameBut place? files now)
    (hne : place? ≠ some (files.placeOf path)) : Renders files path g f := by
  obtain ⟨content, text, doc, root, hread, hrest⟩ := h
  exact ⟨content, text, doc, root, hfiles.read hne hread, hrest⟩

theorem isOutput_iff : IsOutput context job g f data ↔ dataOf context job g f = .ok data := by
  unfold dataOf
  constructor
  · rintro (⟨hjob, h⟩ | ⟨hjob, hsummary, h⟩ | ⟨hjob, hsummary, h⟩)
    · rw [if_pos hjob, h]
    · rw [if_neg (by simp [hjob]), if_pos (by simpa using hsummary), h]
    · rw [if_neg (by simp [hjob]), if_neg (by simpa using hsummary), h]
  · intro h
    by_cases hjob : job.keyed = true
    · exact .keyed hjob (by rwa [if_pos hjob] at h)
    rw [if_neg hjob] at h
    by_cases hsummary : job.summary = true ∨ context.settings.includeSummary = true
    · exact .report (by simpa using hjob) hsummary (by rwa [if_pos (by simpa using hsummary)] at h)
    · exact .plain (by simpa using hjob) hsummary (by rwa [if_neg (by simpa using hsummary)] at h)

/-! ### Before the output -/

section

variable {α : Type} {a : α}

theorem stop_ne_ok : Action.stop e c ≠ (.ok a, later) := by simp [Action.stop]

theorem fault_ne_ok (fault : Fault) : Action.fault fault c ≠ (.ok a, later) := stop_ne_ok

theorem fail_ne_ok (message : String) : fail message c ≠ (.ok a, later) := by
  intro h
  obtain ⟨_, _, -, hstop⟩ := bind_eq_ok.mp h
  exact stop_ne_ok hstop

end

theorem descend_eq_ok {tooDeep : Bool} {u : Unit} (h : Action.descend tooDeep c = (.ok u, later)) :
    tooDeep = false ∧ later = c := by
  cases tooDeep with
  | true => exact absurd h (fault_ne_ok _)
  | false => exact ⟨rfl, ((Prod.mk.inj h).2).symm⟩

theorem descend_of_false {tooDeep : Bool} (h : tooDeep = false) (c : Console) :
    Action.descend tooDeep c = (.ok (), c) := by
  subst h
  rfl

variable {limits : DepthLimits}

theorem readData_eq_ok {v : Value} (h : readData limits path c = (.ok v, later)) :
    later = c ∧ ReadsTo limits c.files path v := by
  obtain ⟨_, _, hconsole, hfile⟩ := bind_eq_ok.mp h
  obtain ⟨hc, rfl⟩ := Prod.mk.inj hconsole
  obtain rfl := Except.ok.inj hc
  cases hread : c.files.read path with
  | error failure =>
    simp only [hread] at hfile
    cases failure with
    | notFound => exact absurd hfile (fail_ne_ok _)
    | _ => exact absurd hfile (fault_ne_ok _)
  | ok content =>
    simp only [hread] at hfile
    cases hutf8 : String.fromUTF8? content with
    | none =>
      simp only [hutf8] at hfile
      exact absurd hfile (fault_ne_ok _)
    | some text =>
      simp only [hutf8] at hfile
      obtain ⟨_, _, hdeep, hparse⟩ := bind_eq_ok.mp hfile
      obtain ⟨hshallow, rfl⟩ := descend_eq_ok hdeep
      cases htext : Document.ofText text.toList with
      | error failure =>
        simp only [htext] at hparse
        cases failure with
        | tooManyDigits => exact absurd hparse (fault_ne_ok _)
        | malformed _ => exact absurd hparse (fail_ne_ok _)
      | ok doc =>
        simp only [htext] at hparse
        obtain ⟨hv, rfl⟩ := Prod.mk.inj hparse
        exact ⟨rfl, content, text, hread, hutf8, hshallow, Except.ok.inj hv ▸ htext⟩

theorem readData_of_readsTo {doc : Value} (h : ReadsTo limits c.files path doc) :
    readData limits path c = (.ok doc, c) := by
  obtain ⟨content, text, hread, hutf8, hshallow, htext⟩ := h
  refine bind_eq_ok.mpr ⟨c, c, rfl, ?_⟩
  simp only [hread, hutf8]
  refine bind_eq_ok.mpr ⟨(), c, descend_of_false hshallow c, ?_⟩
  simp only [htext]
  rfl

theorem normalizesTo_of_normalizeFile (h : normalizeFile context path c = (.ok (g, f), later)) :
    NormalizesTo context.limits c.files path g f := by
  obtain ⟨doc, mid, hdata, hdoc⟩ := bind_eq_ok.mp h
  obtain ⟨rfl, hreads⟩ := readData_eq_ok hdata
  split_ifs at hdoc
  · obtain ⟨_, _, -, hstop⟩ := bind_eq_ok.mp hdoc
    exact absurd hstop stop_ne_ok
  obtain ⟨_, _, hdeep, htree⟩ := bind_eq_ok.mp hdoc
  obtain ⟨hshallow, rfl⟩ := descend_eq_ok hdeep
  cases hload : Document.loadInto .empty doc with
  | error failure =>
    simp only [hload] at htree
    cases failure with
    | format _ => exact absurd htree (fail_ne_ok _)
    | tooManyDigits => exact absurd htree (fault_ne_ok _)
  | ok loaded =>
    simp only [hload] at htree
    obtain ⟨_, _, hdeep, hrecords⟩ := bind_eq_ok.mp htree
    obtain ⟨hflat, rfl⟩ := descend_eq_ok hdeep
    obtain ⟨_, _, -, hnormal⟩ := bind_eq_ok.mp hrecords
    cases hrun : (normalize loaded.1 loaded.2).outcome with
    | error failure =>
      simp only [hrun] at hnormal
      cases failure with
      | notIterable => exact absurd hnormal (fault_ne_ok _)
      | tooManyDigits => exact absurd hnormal (fault_ne_ok _)
      | _ => exact absurd hnormal (fail_ne_ok _)
    | ok records =>
      simp only [hrun] at hnormal
      obtain ⟨hgf, -⟩ := Prod.mk.inj hnormal
      obtain ⟨rfl, rfl⟩ := Prod.mk.inj (Except.ok.inj hgf)
      exact ⟨loaded.2, ⟨doc, hreads, hshallow, hload⟩, hflat, hrun⟩

theorem normalizeFile_of_normalizesTo (hquiet : context.interrupted = false)
    (h : NormalizesTo context.limits c.files path g f) :
    ∃ entries, normalizeFile context path c = (.ok (g, f), c.emitAll entries) := by
  obtain ⟨root, ⟨doc, hreads, hshallow, hload⟩, hflat, hok⟩ := h
  refine ⟨(normalize g root).entries, bind_eq_ok.mpr ⟨doc, c, readData_of_readsTo hreads, ?_⟩⟩
  simp only [hquiet, Bool.false_eq_true, if_false]
  refine bind_eq_ok.mpr ⟨(), c, descend_of_false hshallow c, ?_⟩
  simp only [hload]
  refine bind_eq_ok.mpr ⟨(), c, descend_of_false hflat c, bind_eq_ok.mpr ⟨(), _, rfl, ?_⟩⟩
  simp only [hok]
  rfl

theorem outputText_eq_ok {indent : Int} (h : outputText limits indent data c = (.ok text, later)) :
    later = c ∧ limits.writing data = false ∧
      ∃ line, jsonText (Graph.empty).displayed (.int indent) data = .ok line ∧ text = line ++ "\n" := by
  obtain ⟨_, _, hdeep, hwrite⟩ := bind_eq_ok.mp h
  obtain ⟨hshallow, rfl⟩ := descend_eq_ok hdeep
  cases hline : jsonText (Graph.empty).displayed (.int indent) data with
  | error failure =>
    simp only [hline] at hwrite
    cases failure with
    | notFinite _ _ => exact absurd hwrite (fail_ne_ok _)
    | tooManyDigits => exact absurd hwrite (fail_ne_ok _)
    | _ => exact absurd hwrite (fault_ne_ok _)
  | ok line =>
    simp only [hline] at hwrite
    obtain ⟨htext, rfl⟩ := Prod.mk.inj hwrite
    exact ⟨rfl, hshallow, line, rfl, (Except.ok.inj htext).symm⟩

theorem outputText_of_text {indent : Int} (hshallow : limits.writing data = false)
    (hline : jsonText (Graph.empty).displayed (.int indent) data = .ok text) :
    outputText limits indent data c = (.ok (text ++ "\n"), c) := by
  refine bind_eq_ok.mpr ⟨(), c, descend_of_false hshallow c, ?_⟩
  simp only [hline]
  rfl

/-! ### The output -/

namespace Received

/-- What was received is as well what was received since before some entries. -/
theorem of_sameBut (hstdout : mid.stdout = c.stdout) (hfiles : SameBut place? c.files mid.files)
    (h : Received place? output mid later text) : Received place? output c later text := by
  cases h with
  | terminal houtput stdout files => exact .terminal houtput (stdout.trans (by rw [hstdout])) (hfiles.trans files)
  | file path houtput hpath stdout received directory others =>
    rw [placeOf_congr hfiles.directory] at received others
    refine .file path houtput hpath (stdout.trans hstdout) received (directory.trans hfiles.directory) ?_
    exact fun place hne hlog => (others place hne hlog).trans (hfiles.node?_of_ne hlog)

/-- Entries that are logged elsewhere leave what was received. -/
theorem onlyLogged (hout : ∀ path, output = some path → path ≠ "" → place? ≠ some (c.files.placeOf path))
    (h : Received place? output c mid text) (hlog : mid.OnlyLogged place? later) :
    Received place? output c later text := by
  cases h with
  | terminal houtput stdout files => exact .terminal houtput (hlog.stdout.trans stdout) (files.trans hlog.files)
  | file path houtput hpath stdout received directory others =>
    refine .file path houtput hpath (hlog.stdout.trans stdout) ?_ (hlog.files.directory.trans directory) ?_
    · rw [hlog.files.node?_of_ne (hout path houtput hpath), received]
    · exact fun place hne hplace => (hlog.files.node?_of_ne hplace).trans (others place hne hplace)

end Received

/-- What is done with a text, once there is one. -/
theorem saves_of_writeData {indent : Int} {r : Except Ending Unit} (hshallow : limits.writing data = false)
    (hline : jsonText (Graph.empty).displayed (.int indent) data = .ok text)
    (h : writeData limits indent output data c = (r, later)) : Saves output (text ++ "\n") c r later := by
  rw [writeData, bind_apply, outputText_of_text hshallow hline] at h
  by_cases hempty : output.getD "" = ""
  · simp only [hempty] at h
    obtain ⟨rfl, rfl⟩ := Prod.mk.inj h
    exact .terminal hempty
  obtain ⟨path, rfl⟩ : ∃ path, output = some path := by
    cases output with
    | none => exact absurd rfl hempty
    | some path => exact ⟨path, rfl⟩
  rw [Option.getD_some] at hempty
  simp only [Option.getD_some, String.isEmpty_iff, if_neg hempty, bind_apply, Action.console] at h
  cases hwrite : c.files.write path (text ++ "\n").toUTF8 with
  | ok files =>
    simp only [hwrite] at h
    obtain ⟨rfl, rfl⟩ := Prod.mk.inj h
    exact .file rfl hempty hwrite
  | error failure =>
    simp only [hwrite] at h
    cases failure with
    | notAPath =>
      obtain ⟨rfl, rfl⟩ := Prod.mk.inj h
      exact .notAPath rfl hwrite
    | _ =>
      obtain ⟨rfl, rfl⟩ := Prod.mk.inj h
      exact .refused rfl (by simp) hwrite

/-- **A failed output.** If writing fails, nothing changed but the log. -/
theorem onlyLogged_writeData {indent : Int} (hc : c.LogsAt place?)
    (h : writeData limits indent output data c = (.error e, later)) : c.OnlyLogged place? later := by
  rcases bind_eq_error.mp h with htext | ⟨text, mid, htext, -⟩
  · exact ((onlyLogs_outputText _ _ _).of_ok hc htext).1
  obtain ⟨-, hshallow, line, hline, -⟩ := outputText_eq_ok htext
  cases saves_of_writeData hshallow hline h with
  | notAPath _ _ => exact .refl _
  | refused _ _ _ => exact Console.onlyLogged_emit hc _

/-- **The output.** If writing succeeds, one destination received the text of the data, and a line end. -/
theorem writeData_eq_ok {indent : Int} (hc : c.LogsAt place?)
    (hout : ∀ path, output = some path → path ≠ "" → place? ≠ some (c.files.placeOf path))
    (h : writeData limits indent output data c = (.ok (), later)) :
    ∃ line, jsonText (Graph.empty).displayed (.int indent) data = .ok line ∧
      Received place? output c later (line ++ "\n") ∧ later.LogsAt place? := by
  obtain ⟨text, mid, htext, -⟩ := bind_eq_ok.mp h
  obtain ⟨-, hshallow, line, hline, -⟩ := outputText_eq_ok htext
  refine ⟨line, hline, ?_⟩
  cases saves_of_writeData hshallow hline h with
  | terminal houtput => exact ⟨.terminal houtput rfl (.refl _), hc.of_eq rfl rfl⟩
  | @file path files houtput hne hwrite =>
    obtain ⟨rfl, hway⟩ := write_eq_ok hwrite
    have hreceived : Received place? output c
        { c with files := c.files.set (c.files.placeOf path) (.file (line ++ "\n").toUTF8) } (line ++ "\n") :=
      .file path houtput hne rfl (node?_set_self hway _) rfl fun place hplace _ => node?_set_of_ne hplace _
    have hlogs : Console.LogsAt place?
        { c with files := c.files.set (c.files.placeOf path) (.file (line ++ "\n").toUTF8) } := hc.of_eq rfl rfl
    have hlogged := Console.onlyLogged_emit hlogs ⟨Level.info, commandLogger, "Output saved to: " ++ path⟩
    exact ⟨hreceived.onlyLogged hout hlogged, hlogged.logsAt hlogs⟩

/-! ### A command line -/

/-- A job that writes the records of a template to the terminal, and its command line. -/
def renderJob : Job := ⟨false, "t.json", none, false⟩

def renderArguments : List String := ["render", "--in", "t.json"]

theorem ofArguments_renderArguments : Invocation.ofArguments renderArguments = .run renderJob := by decide +kernel

theorem stepsOf_name : stepsOf "t.json" = ["t.json"] := by
  have hsplit : "t.json".splitOn "/" = ["t.json"] := by
    unfold String.splitOn
    rw [if_neg (by decide)]
    repeat (rw [String.splitOnAux]; simp +decide only [if_true, if_false])
  rw [stepsOf, hsplit]
  decide

/-- A file in the root is read by its name there. -/
theorem read_name {files : Files} {content : ByteArray} (hdirectory : files.directory = [])
    (hnode : files.node? ["t.json"] = some (.file content)) : files.read "t.json" = .ok content := by
  have hroot : files.node? [] = some .directory := by rw [node?, if_pos (by simp [isOnTheWay])]
  have hplace : files.resolve "t.json" = .ok ["t.json"] := by
    rw [Files.resolve, String.contains_char_eq, if_neg (by decide), if_neg (by decide), if_neg (by decide),
      stepsOf_name, start, if_neg (by decide), hdirectory, walk, hroot]
    simp only
    rw [if_neg (by decide)]
    rfl
  refine Logged.bind_eq_ok.mpr ⟨_, hplace, ?_⟩
  rw [hnode]
  rfl

/-! ### A whole command -/

theorem ofExcept_eq_ok {ε α : Type} {g : ε → Fault} {r : Except ε α} {a : α}
    (h : Action.ofExcept g r c = (.ok a, later)) : later = c ∧ r = .ok a := by
  cases r with
  | error failure => exact absurd h (fault_ne_ok _)
  | ok b =>
    obtain ⟨hb, rfl⟩ := Prod.mk.inj h
    exact ⟨rfl, congrArg _ (Except.ok.inj hb)⟩

/-- A job that ends early changed nothing but the log. -/
theorem onlyLogged_runJob (hc : c.LogsAt place?) (h : runJob context job c = (.error e, later)) :
    c.OnlyLogged place? later := by
  rcases bind_eq_error.mp h with hstart | ⟨_, started, hstart, hrest⟩
  · simp [log, Action.modify] at hstart
  obtain ⟨hstarted, hlogs⟩ := (onlyLogs_log _ _).of_ok hc hstart
  refine hstarted.trans ?_
  rcases bind_eq_error.mp hrest with hnormal | ⟨⟨g, f⟩, normal, hnormal, hrecords⟩
  · exact ((onlyLogs_normalizeFile _ _).of_ok hlogs hnormal).1
  obtain ⟨hnormalized, hlogs⟩ := (onlyLogs_normalizeFile _ _).of_ok hlogs hnormal
  refine hnormalized.trans ?_
  rcases bind_eq_error.mp hrecords with hdeep | ⟨_, _, hdeep, hdumped⟩
  · exact ((Action.OnlyLogs.descend _).of_ok hlogs hdeep).1
  obtain ⟨-, rfl⟩ := descend_eq_ok hdeep
  rcases bind_eq_error.mp hdumped with hdump | ⟨data, dumped, hdump, hdata⟩
  · exact ((Action.OnlyLogs.ofExcept _ _).of_ok hlogs hdump).1
  obtain ⟨rfl, -⟩ := ofExcept_eq_ok hdump
  rcases bind_eq_error.mp hdata with hwrite | ⟨_, _, -, hend⟩
  · exact onlyLogged_writeData hlogs hwrite
  · -- the output is written, and what follows cannot fail
    split_ifs at hend <;> simp [log, Action.modify, Pure.pure] at hend

/-- A job that does not end early writes its data. -/
theorem runJob_eq_ok (hc : c.LogsAt place?) (hin : place? ≠ some (c.files.placeOf job.input))
    (hout : ∀ path, job.output = some path → path ≠ "" → place? ≠ some (c.files.placeOf path))
    (h : runJob context job c = (.ok (), later)) :
    ∃ g f data line, Renders c.files job.input g f ∧ IsOutput context job g f data ∧
      jsonText (Graph.empty).displayed (.int context.settings.jsonIndent) data = .ok line ∧
        Received place? job.output c later (line ++ "\n") := by
  obtain ⟨_, started, hstart, hrest⟩ := bind_eq_ok.mp h
  obtain ⟨hstarted, hlogs⟩ := (onlyLogs_log _ _).of_ok hc hstart
  obtain ⟨⟨g, f⟩, normal, hnormal, hrecords⟩ := bind_eq_ok.mp hrest
  obtain ⟨hnormalized, hlogs⟩ := (onlyLogs_normalizeFile _ _).of_ok hlogs hnormal
  obtain ⟨_, _, hdeep, hdumped⟩ := bind_eq_ok.mp hrecords
  obtain ⟨-, rfl⟩ := descend_eq_ok hdeep
  obtain ⟨data, dumped, hdump, hdata⟩ := bind_eq_ok.mp hdumped
  obtain ⟨rfl, houtput⟩ := ofExcept_eq_ok hdump
  obtain ⟨⟨⟩, written, hwrite, hend⟩ := bind_eq_ok.mp hdata
  have hbefore := hstarted.trans hnormalized
  have houtBefore : ∀ path, job.output = some path → path ≠ "" → place? ≠ some (dumped.files.placeOf path) := by
    intro path hpath hne
    rw [placeOf_congr hbefore.files.directory]
    exact hout path hpath hne
  obtain ⟨line, hline, hreceived, hlogs⟩ := writeData_eq_ok hlogs houtBefore hwrite
  refine ⟨g, f, data, line, ?_, isOutput_iff.mpr houtput, hline, ?_⟩
  · exact (normalizesTo_of_normalizeFile hnormal).renders.of_sameBut hstarted.files hin
  · refine Received.onlyLogged hout (hreceived.of_sameBut hbefore.stdout hbefore.files) ?_
    split_ifs at hend
    · exact ((onlyLogs_log _ _).of_ok hlogs hend).1
    · exact ((Action.OnlyLogs.pure _).of_ok hlogs hend).1

/-- A job that writes to the terminal does not end early, once its data have a text. -/
theorem exists_runJob_eq_ok (hquiet : context.interrupted = false) (houtput : job.output = none)
    (hnormalizes : NormalizesTo context.limits (c.emit (firstEntry job)).files job.input g f)
    (hflat : context.limits.dumping f = false) (hdata : IsOutput context job g f data)
    (hshallow : context.limits.writing data = false)
    (hline : jsonText (Graph.empty).displayed (.int context.settings.jsonIndent) data = .ok text) :
    ∃ later, runJob context job c = (.ok (), later) := by
  obtain ⟨entries, hnormal⟩ := normalizeFile_of_normalizesTo hquiet hnormalizes
  refine exists_bind_eq_ok rfl (exists_bind_eq_ok hnormal (exists_bind_eq_ok (descend_of_false hflat _) ?_))
  simp only [isOutput_iff.mp hdata]
  refine exists_bind_eq_ok rfl ?_
  have hwrite : ∃ later, writeData context.limits context.settings.jsonIndent job.output data
      ((c.emit (firstEntry job)).emitAll entries) = (.ok (), later) := by
    rw [houtput]
    exact exists_bind_eq_ok (outputText_of_text hshallow hline) ⟨_, rfl⟩
  obtain ⟨written, hwrite⟩ := hwrite
  refine exists_bind_eq_ok hwrite ?_
  split_ifs
  · exact ⟨_, rfl⟩
  · exact ⟨_, rfl⟩

/-- **All or nothing.** A command that does not return has written nothing but its log.  A command that returns has
written the text of its data, and a line end, to one destination, and nothing else but its log. -/
theorem execute_allOrNothing (context : Context) {arguments : List String}
    (hrun : Invocation.ofArguments arguments = .run job) (c later : Console) (ending : Ending)
    (hin : logPlace? c.files context.settings.logFile ≠ some (c.files.placeOf job.input))
    (hout : ∀ path, job.output = some path → path ≠ "" →
      logPlace? c.files context.settings.logFile ≠ some (c.files.placeOf path))
    (h : execute context arguments c = (ending, later)) :
    (ending ≠ .exit 0 → later.stdout = c.stdout ∧
      SameBut (logPlace? c.files context.settings.logFile) c.files later.files) ∧
    (ending = .exit 0 → ∃ g f data line, Renders c.files job.input g f ∧ IsOutput context job g f data ∧
      jsonText (Graph.empty).displayed (.int context.settings.jsonIndent) data = .ok line ∧
        Received (logPlace? c.files context.settings.logFile) job.output c later (line ++ "\n")) := by
  rcases execute_run hrun h with ⟨e, hconfigure, rfl⟩ | ⟨configured, hconfigure, hjob⟩
  · obtain ⟨hstdout, hfiles, -⟩ := Console.configure_spec _ hconfigure
    exact ⟨fun _ => ⟨hstdout, hfiles⟩, fun hending => by simp at hending⟩
  obtain ⟨hstdout, hfiles, hlogs⟩ := Console.configure_spec _ hconfigure
  rcases hjob with ⟨hjob, rfl⟩ | hjob
  · refine ⟨fun hending => absurd rfl hending, fun _ => ?_⟩
    have hinNow : logPlace? c.files context.settings.logFile ≠ some (configured.files.placeOf job.input) := by
      rw [placeOf_congr hfiles.directory]
      exact hin
    have houtNow : ∀ path, job.output = some path → path ≠ "" →
        logPlace? c.files context.settings.logFile ≠ some (configured.files.placeOf path) := by
      intro path hpath hne
      rw [placeOf_congr hfiles.directory]
      exact hout path hpath hne
    obtain ⟨g, f, data, line, hrenders, houtput, hline, hreceived⟩ := runJob_eq_ok (hlogs rfl) hinNow houtNow hjob
    exact ⟨g, f, data, line, hrenders.of_sameBut hfiles hin, houtput, hline, hreceived.of_sameBut hstdout hfiles⟩
  · have hlogged := onlyLogged_runJob (hlogs rfl) hjob
    refine ⟨fun _ => ⟨hlogged.stdout.trans hstdout, hfiles.trans hlogged.files⟩, fun hending => ?_⟩
    -- no job is ended early with the code of a success
    rcases (reports_runJob context job).ends configured _ ending hjob with ⟨fault, rfl⟩ | ⟨rfl, -⟩ <;> simp at hending

/-- A console with the template of a box. -/
def boxConsole : Console :=
  { files := { nodes := [(["t.json"], .file "\x7b\"component\": \"Box\"\x7d".toUTF8)] } }

theorem renders_boxConsole : ∃ g f data line, Renders boxConsole.files "t.json" g f ∧
    dumpFragment g {} f = .ok data ∧ jsonText (Graph.empty).displayed (.int 2) data = .ok line := by
  have heval : ((Document.ofText "\x7b\"component\": \"Box\"\x7d".toList).toOption.bind fun doc =>
      (Document.loadInto .empty doc).toOption.bind fun r => (normalize r.1 r.2).outcome.toOption.bind fun f =>
        (dumpFragment r.1 {} f).toOption.bind fun data =>
          (jsonText (Graph.empty).displayed (.int 2) data).toOption).isSome = true := by decide +kernel
  have hok : ∀ {ε α : Type} {r : Except ε α} {a : α}, r.toOption = some a → r = .ok a := by
    rintro ε α (e | b) a h
    · simp [Except.toOption] at h
    · exact congrArg _ (Option.some.inj h)
  obtain ⟨line, h⟩ := Option.isSome_iff_exists.mp heval
  obtain ⟨doc, htext, h⟩ := Option.bind_eq_some_iff.mp h
  obtain ⟨⟨g, root⟩, hload, h⟩ := Option.bind_eq_some_iff.mp h
  obtain ⟨f, hrun, h⟩ := Option.bind_eq_some_iff.mp h
  obtain ⟨data, hdump, hline⟩ := Option.bind_eq_some_iff.mp h
  have hread : boxConsole.files.read "t.json" = .ok _ := read_name rfl rfl
  exact ⟨g, f, data, line, ⟨_, _, doc, root, hread, by decide +kernel, hok htext, hok hload, hok hrun⟩,
    hok hdump, hok hline⟩

theorem execute_allOrNothing_box : ∃ later, execute {} renderArguments boxConsole = (.exit 0, later) ∧
    ∃ g f data line, Renders boxConsole.files "t.json" g f ∧ IsOutput {} renderJob g f data ∧
      jsonText (Graph.empty).displayed (.int 2) data = .ok line ∧
        Received none none boxConsole later (line ++ "\n") := by
  obtain ⟨g, f, data, line, hrenders, hdump, hline⟩ := renders_boxConsole
  have hdata : IsOutput {} renderJob g f data := .plain rfl (by simp [renderJob]) hdump
  have hfiles : ((boxConsole.configure {}).1.emit (firstEntry renderJob)).files = boxConsole.files := rfl
  rw [← hfiles] at hrenders
  obtain ⟨later, hjob⟩ : ∃ later, runJob {} renderJob (boxConsole.configure {}).1 = (.ok (), later) :=
    exists_runJob_eq_ok rfl rfl hrenders.normalizesTo rfl hdata rfl hline
  have hconfigure : boxConsole.configure {} = ((boxConsole.configure {}).1, none) := rfl
  have hexecute : execute {} renderArguments boxConsole = (.exit 0, later) := by
    rw [execute_eq ofArguments_renderArguments, hconfigure]
    simp only
    rw [hjob]
  refine ⟨later, hexecute, ?_⟩
  refine (execute_allOrNothing {} ofArguments_renderArguments boxConsole later _ ?_ ?_ hexecute).2 rfl
  · simp [logPlace?]
  · simp [renderJob]

end ViewGraph.Cli
