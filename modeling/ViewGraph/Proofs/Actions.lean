import ViewGraph.Command.Run
import ViewGraph.Proofs.Places

/-!
# What the steps of a command do

A step of a command changes the console, and it may end the command.  Most steps change nothing but the log.

* `bind_eq_ok`, `bind_eq_error`: how two steps end, one after the other.
* `execute_run`: a command sets up the log, and does its job.
* `logPlace?`: the place of the log file.
* `Console.LogsAt`, `Console.OnlyLogged`: the log is written at one place, and nothing else changed.
* `Console.Continues`: the log goes on as it was set up.
* `onlyLogged_emit`, `continues_emit`: so it is with every entry.
* `configure_spec`: the set-up of the log.
* `Action.OnlyLogs`: a step that changes nothing else.
* `Action.Reports`: a step that ends the command with an error for the log, unless it ends in a fault.
-/

namespace ViewGraph

open Files

/-! ### Definitions -/

/-- The place of the log file, if one is named.  Its path is made absolute first. -/
def logPlace? (files : Files) (logFile : Option String) : Option (List String) :=
  logFile.bind fun path =>
    if path.isEmpty then none else some (files.placeOf (pathOf (files.placeOf path)))

namespace Console

variable (place? : Option (List String))

/-- Whatever the log writes to a file, it writes at one place. -/
def LogsAt (c : Console) : Prop :=
  ∀ h ∈ c.log.handlers, ∀ path, h.sink = .file path → place? = some (c.files.placeOf path)

/-- Nothing changed but what was logged, to the terminal or at that place. -/
structure OnlyLogged (c later : Console) : Prop where
  stdout : later.stdout = c.stdout
  log : later.log = c.log
  files : SameBut place? c.files later.files

/-- The log is set up as before, and nothing was logged since then that it does not let through. -/
structure Continues (c later : Console) : Prop where
  log : later.log = c.log
  logged : ∃ new, later.logged = c.logged ++ new ∧ ∀ e ∈ new, c.isLogged e.level = true

end Console

/-- A step after which nothing changed but what was logged. -/
def Cli.Action.OnlyLogs {α : Type} (place? : Option (List String)) (x : Action α) : Prop :=
  ∀ c : Console, c.LogsAt place? → c.OnlyLogged place? (x c).2

/-- An error of the command was logged, after whatever else was logged. -/
def Console.LoggedError (c later : Console) : Prop :=
  ∃ before e, later.logged = c.logged ++ before ++ [e] ∧ e.logger = Cli.commandLogger ∧ e.level = Level.error

/-- A step with which the log goes on, and that ends the command with the exit code 1, after it has logged an error if
the log lets errors through, unless it ends in a fault.  An interruption is no error. -/
structure Cli.Action.Reports {α : Type} (interrupted : Bool) (x : Action α) : Prop where
  continues : ∀ c : Console, c.Continues (x c).2
  ends : ∀ (c later : Console) (ending : Ending), x c = (.error ending, later) → (∃ f, ending = .fault f) ∨
    ending = .exit 1 ∧ (interrupted = false → c.isLogged Level.error = true → c.LoggedError later)

/-! ### Entries -/

namespace Console

variable {place? : Option (List String)} {c later : Console}

theorem LogsAt.of_eq (hc : c.LogsAt place?) (hlog : later.log = c.log)
    (hdirectory : later.files.directory = c.files.directory) : later.LogsAt place? := by
  intro handler hmem path hsink
  rw [placeOf_congr hdirectory]
  rw [hlog] at hmem
  exact hc handler hmem path hsink

namespace OnlyLogged

theorem refl (c : Console) : c.OnlyLogged place? c := ⟨rfl, rfl, .refl _⟩

theorem trans {mid : Console} (h : c.OnlyLogged place? mid) (h' : mid.OnlyLogged place? later) :
    c.OnlyLogged place? later :=
  ⟨h'.stdout.trans h.stdout, h'.log.trans h.log, h.files.trans h'.files⟩

theorem logsAt (h : c.OnlyLogged place? later) (hc : c.LogsAt place?) : later.LogsAt place? :=
  hc.of_eq h.log h.files.directory

end OnlyLogged

theorem onlyLogged_handle {h : Handler} (hh : ∀ path, h.sink = .file path → place? = some (c.files.placeOf path))
    (e : LogEntry) : c.OnlyLogged place? (c.handle e h) := by
  unfold handle
  split_ifs with hlevel
  · exact .refl c
  · cases hsink : h.sink with
    | terminal => exact ⟨rfl, rfl, .refl _⟩
    | file path =>
      cases happend : c.files.append path (h.formatter.render c.time e ++ "\n").toUTF8 with
      | error _ =>
        simp only [happend]
        exact .refl c
      | ok files =>
        obtain ⟨old, rfl, hway⟩ := append_eq_ok happend
        rw [hh path hsink]
        simp only [happend]
        exact ⟨rfl, rfl, sameBut_set hway _⟩

/-- **Logging.** An entry changes nothing but the log. -/
theorem onlyLogged_emit (hc : c.LogsAt place?) (e : LogEntry) : c.OnlyLogged place? (c.emit e) := by
  have hfold : ∀ (handlers : List Handler) (c : Console),
      (∀ h ∈ handlers, ∀ path, h.sink = .file path → place? = some (c.files.placeOf path)) →
        c.OnlyLogged place? (handlers.foldl (fun c h => c.handle e h) c) := by
    intro handlers
    induction handlers with
    | nil => exact fun c _ => .refl c
    | cons h rest ih =>
      intro c hall
      obtain ⟨hh, hrest⟩ := List.forall_mem_cons.mp hall
      have hstep := onlyLogged_handle hh e
      refine hstep.trans (ih (c.handle e h) fun k hk path hsink => ?_)
      rw [placeOf_congr hstep.files.directory]
      exact hrest k hk path hsink
  have hnoted : ∀ logged, c.OnlyLogged place? { c with entries := c.entries ++ [e], logged := logged } :=
    fun _ => ⟨rfl, rfl, .refl _⟩
  simp only [emit]
  split_ifs
  · exact (hnoted _).trans (hfold c.log.handlers _ hc)
  · exact hnoted _

theorem onlyLogged_emitAll (hc : c.LogsAt place?) (entries : List LogEntry) :
    c.OnlyLogged place? (c.emitAll entries) := by
  induction entries generalizing c with
  | nil => exact .refl c
  | cons e rest ih =>
    have hstep := onlyLogged_emit hc e
    exact hstep.trans (ih (hstep.logsAt hc))

/-- What a handler writes is no entry of its own. -/
theorem foldl_handle (handlers : List Handler) (e : LogEntry) (c : Console) :
    (handlers.foldl (fun c h => c.handle e h) c).log = c.log ∧
      (handlers.foldl (fun c h => c.handle e h) c).logged = c.logged := by
  have hhandle : ∀ (c : Console) (h : Handler), (c.handle e h).log = c.log ∧ (c.handle e h).logged = c.logged := by
    intro c h
    unfold handle
    split_ifs
    · exact ⟨rfl, rfl⟩
    · cases h.sink with
      | terminal => exact ⟨rfl, rfl⟩
      | file path =>
        cases happend : c.files.append path (h.formatter.render c.time e ++ "\n").toUTF8 <;>
          simp only [happend, and_self]
  induction handlers generalizing c with
  | nil => exact ⟨rfl, rfl⟩
  | cons h rest ih =>
    obtain ⟨hlog, hlogged⟩ := ih (c.handle e h)
    exact ⟨hlog.trans (hhandle c h).1, hlogged.trans (hhandle c h).2⟩

/-- An entry is logged exactly if its level is let through. -/
theorem emit_spec (c : Console) (e : LogEntry) : (c.emit e).log = c.log ∧
    (c.emit e).logged = if c.isLogged e.level then c.logged ++ [e] else c.logged := by
  have hlevel : ∀ entries, isLogged { c with entries := entries } e.level = c.isLogged e.level := fun _ => rfl
  simp only [emit, hlevel]
  split_ifs
  · exact foldl_handle _ _ _
  · exact ⟨rfl, rfl⟩

theorem isLogged_congr (h : later.log = c.log) (level : Level) : later.isLogged level = c.isLogged level := by
  rw [isLogged, isLogged, h]

namespace Continues

theorem refl (c : Console) : c.Continues c := ⟨rfl, [], by simp⟩

theorem of_eq (hlog : later.log = c.log) (hlogged : later.logged = c.logged) : c.Continues later :=
  ⟨hlog, [], by simp [hlogged]⟩

theorem trans {mid : Console} (h : c.Continues mid) (h' : mid.Continues later) : c.Continues later := by
  obtain ⟨hlog, new, hnew, hall⟩ := h
  obtain ⟨hlog', new', hnew', hall'⟩ := h'
  refine ⟨hlog'.trans hlog, new ++ new', by rw [hnew', hnew, List.append_assoc], ?_⟩
  refine List.forall_mem_append.mpr ⟨hall, fun e he => ?_⟩
  rw [← isLogged_congr hlog]
  exact hall' e he

/-- An error that is logged later is logged as well after what was logged before. -/
theorem loggedError {mid : Console} (h : c.Continues mid) (h' : mid.LoggedError later) : c.LoggedError later := by
  obtain ⟨-, new, hnew, -⟩ := h
  obtain ⟨before, e, hlater, he⟩ := h'
  exact ⟨new ++ before, e, by rw [hlater, hnew, List.append_assoc c.logged], he⟩

/-- A log that lets no errors through has none. -/
theorem not_loggedError (h : c.Continues later) (hsilent : c.isLogged Level.error = false) :
    ¬ c.LoggedError later := by
  obtain ⟨-, new, hnew, hall⟩ := h
  rintro ⟨before, e, hlater, -, hlevel⟩
  rw [hnew, List.append_assoc, List.append_cancel_left_eq] at hlater
  have hlogged := hall e (by simp [hlater])
  rw [hlevel, hsilent] at hlogged
  cases hlogged

end Continues

theorem continues_emit (c : Console) (e : LogEntry) : c.Continues (c.emit e) := by
  obtain ⟨hlog, hlogged⟩ := emit_spec c e
  split_ifs at hlogged with hlevel
  · exact ⟨hlog, [e], hlogged, by simpa using hlevel⟩
  · exact .of_eq hlog hlogged

theorem continues_emitAll (c : Console) (entries : List LogEntry) : c.Continues (c.emitAll entries) := by
  induction entries generalizing c with
  | nil => exact .refl c
  | cons e rest ih => exact (continues_emit c e).trans (ih _)

/-! ### Setting up the log -/

theorem setUp_spec (s : LogSetup) {failure : Option SetupError} (h : c.setUp s = (later, failure)) :
    later.stdout = c.stdout ∧ SameBut (logPlace? c.files s.file) c.files later.files ∧
      (failure = none → later.LogsAt (logPlace? c.files s.file)) := by
  unfold setUp at h
  split at h
  · obtain ⟨rfl, rfl⟩ := Prod.mk.inj h
    exact ⟨rfl, .refl _, by simp⟩
  · rename_i level hlevel
    simp only at h
    split at h
    · obtain ⟨rfl, rfl⟩ := Prod.mk.inj h
      exact ⟨rfl, .refl _, fun _ handler hmem path hsink => by simp_all⟩
    · rename_i path hpath
      split_ifs at h with hempty
      · obtain ⟨rfl, rfl⟩ := Prod.mk.inj h
        exact ⟨rfl, .refl _, fun _ handler hmem path hsink => by simp_all⟩
      · have hplace : logPlace? c.files s.file = some (c.files.placeOf (pathOf (c.files.placeOf path))) := by
          rw [logPlace?, hpath]
          exact if_neg hempty
        rw [hplace]
        split at h
        · obtain ⟨rfl, rfl⟩ := Prod.mk.inj h
          exact ⟨rfl, .refl _, by simp⟩
        · rename_i files happend
          obtain ⟨old, hfiles, hway⟩ := append_eq_ok happend
          obtain ⟨rfl, rfl⟩ := Prod.mk.inj h
          have hsame : SameBut (some (c.files.placeOf (pathOf (c.files.placeOf path)))) c.files files :=
            hfiles ▸ sameBut_set hway _
          refine ⟨rfl, hsame, fun _ handler hmem path' hsink => ?_⟩
          rw [placeOf_congr hsame.directory]
          rcases List.mem_cons.mp hmem with rfl | hmem
          · simp at hsink
          · obtain rfl := List.mem_singleton.mp hmem
            rw [← Sink.file.inj hsink]

/-- The set-up of the log changes nothing but the log.  Once it is done, the log is written at the place of its
file. -/
theorem configure_spec (settings : Settings) {failure : Option SetupError}
    (h : c.configure settings = (later, failure)) : later.stdout = c.stdout ∧
      SameBut (logPlace? c.files settings.logFile) c.files later.files ∧
        (failure = none → later.LogsAt (logPlace? c.files settings.logFile)) := by
  simp only [configure] at h
  split at h
  · rename_i mid e hsetup
    obtain ⟨rfl, rfl⟩ := Prod.mk.inj h
    exact setUp_spec _ hsetup
  · rename_i mid hsetup
    obtain ⟨hstdout, hfiles, hlogs⟩ := setUp_spec _ hsetup
    obtain ⟨hlater, rfl⟩ := Prod.mk.inj h
    have hemit : mid.OnlyLogged (logPlace? c.files settings.logFile) later :=
      hlater ▸ onlyLogged_emit (hlogs rfl) _
    exact ⟨hemit.stdout.trans hstdout, hfiles.trans hemit.files, fun _ => hemit.logsAt (hlogs rfl)⟩

end Console

/-! ### Steps -/

namespace Cli

namespace Action

variable {α β : Type} {x : Action α} {f : α → Action β} {c later : Console} {place? : Option (List String)}

theorem bind_apply (x : Action α) (f : α → Action β) (c : Console) : (x >>= f) c = match x c with
    | (.ok a, c) => f a c
    | (.error e, c) => (.error e, c) := rfl

theorem bind_eq_ok {b : β} : (x >>= f) c = (.ok b, later) ↔
    ∃ a mid, x c = (.ok a, mid) ∧ f a mid = (.ok b, later) := by
  rw [bind_apply]
  rcases x c with ⟨e | a, mid⟩ <;> simp

theorem exists_bind_eq_ok {a : α} {b : β} {mid : Console} (hx : x c = (.ok a, mid))
    (hf : ∃ later, f a mid = (.ok b, later)) : ∃ later, (x >>= f) c = (.ok b, later) :=
  hf.imp fun _ hlater => bind_eq_ok.mpr ⟨a, mid, hx, hlater⟩

theorem bind_eq_error {e : Ending} : (x >>= f) c = (.error e, later) ↔
    x c = (.error e, later) ∨ ∃ a mid, x c = (.ok a, mid) ∧ f a mid = (.error e, later) := by
  rw [bind_apply]
  rcases x c with ⟨e | a, mid⟩ <;> simp

namespace OnlyLogs

theorem of_ok (hx : x.OnlyLogs place?) (hc : c.LogsAt place?) {r : Except Ending α} (h : x c = (r, later)) :
    c.OnlyLogged place? later ∧ later.LogsAt place? := by
  have hlogged := hx c hc
  rw [h] at hlogged
  exact ⟨hlogged, hlogged.logsAt hc⟩

theorem pure (a : α) : (Pure.pure a : Action α).OnlyLogs place? := fun c _ => .refl c

theorem stop (e : Ending) : (Action.stop e : Action α).OnlyLogs place? := fun c _ => .refl c

theorem console : Action.console.OnlyLogs place? := fun c _ => .refl c

theorem bind (hx : x.OnlyLogs place?) (hf : ∀ a, (f a).OnlyLogs place?) : (x >>= f).OnlyLogs place? := by
  intro c hc
  cases hresult : (x >>= f) c with
  | mk r later =>
    cases r with
    | ok b =>
      obtain ⟨a, mid, ha, hb⟩ := bind_eq_ok.mp hresult
      obtain ⟨hmid, hlogs⟩ := hx.of_ok hc ha
      exact hmid.trans ((hf a).of_ok hlogs hb).1
    | error e =>
      rcases bind_eq_error.mp hresult with he | ⟨a, mid, ha, hb⟩
      · exact (hx.of_ok hc he).1
      · obtain ⟨hmid, hlogs⟩ := hx.of_ok hc ha
        exact hmid.trans ((hf a).of_ok hlogs hb).1

theorem ofExcept {ε : Type} (g : ε → Fault) (r : Except ε α) : (Action.ofExcept g r).OnlyLogs place? := by
  cases r with
  | error e => exact stop _
  | ok a => exact pure a

/-- A step that is done unless something is nested too deeply. -/
theorem descend (tooDeep : Bool) : (Action.descend tooDeep).OnlyLogs place? := by
  unfold Action.descend
  split_ifs
  · exact stop _
  · exact pure _

end OnlyLogs

namespace Reports

variable {interrupted : Bool}

theorem pure (a : α) : (Pure.pure a : Action α).Reports interrupted where
  continues := .refl
  ends _ _ _ h := by simp [Pure.pure] at h

theorem fault (f : Fault) : (Action.fault f : Action α).Reports interrupted where
  continues := .refl
  ends _ _ _ h := by
    obtain ⟨he, -⟩ := Prod.mk.inj h
    exact .inl ⟨f, (Except.error.inj he).symm⟩

theorem modify {g : Console → Console} (hg : ∀ c : Console, c.Continues (g c)) : (Action.modify g).Reports interrupted where
  continues := hg
  ends _ _ _ h := by simp [Action.modify] at h

theorem console : Action.console.Reports interrupted where
  continues := .refl
  ends _ _ _ h := by simp [Action.console] at h

theorem bind (hx : x.Reports interrupted) (hf : ∀ a, (f a).Reports interrupted) :
    (x >>= f).Reports interrupted where
  continues c := by
    have hmid := hx.continues c
    rw [bind_apply]
    cases h : x c with
    | mk r mid =>
      rw [h] at hmid
      cases r with
      | error e => exact hmid
      | ok a => exact hmid.trans ((hf a).continues mid)
  ends c later e h := by
    rcases bind_eq_error.mp h with he | ⟨a, mid, ha, he⟩
    · exact hx.ends c later e he
    · have hmid := hx.continues c
      rw [ha] at hmid
      refine ((hf a).ends mid later e he).imp_right fun ⟨hexit, herror⟩ => ⟨hexit, fun hquiet hlogged => ?_⟩
      rw [← Console.isLogged_congr hmid.log] at hlogged
      exact hmid.loggedError (herror hquiet hlogged)

theorem ofExcept {ε : Type} (g : ε → Fault) (r : Except ε α) : (Action.ofExcept g r).Reports interrupted := by
  cases r with
  | error e => exact fault _
  | ok a => exact pure a

theorem descend (tooDeep : Bool) : (Action.descend tooDeep).Reports interrupted := by
  unfold Action.descend
  split_ifs
  · exact fault _
  · exact pure _

/-- The entry before an exit is the one that was logged for it. -/
theorem log_stop {level : Level} (hlevel : interrupted = false → level = Level.error) (message : String) :
    (log level message >>= fun _ => Action.stop (.exit 1) : Action α).Reports interrupted where
  continues c := Console.continues_emit c _
  ends c later e h := by
    obtain ⟨he, rfl⟩ := Prod.mk.inj h
    refine .inr ⟨(Except.error.inj he).symm, fun hquiet hlogged => ?_⟩
    obtain rfl := hlevel hquiet
    obtain ⟨-, hlater⟩ := Console.emit_spec c ⟨Level.error, commandLogger, message⟩
    rw [if_pos hlogged] at hlater
    exact ⟨[], _, by rw [List.append_nil]; exact hlater, rfl, rfl⟩

end Reports

end Action

section Reports

variable {α : Type} {interrupted : Bool}

open Action.Reports

theorem reports_log (level : Level) (message : String) : (log level message).Reports interrupted :=
  modify fun c => Console.continues_emit c _

theorem reports_fail (message : String) : (fail message : Action α).Reports interrupted :=
  log_stop (fun _ => rfl) message

theorem reports_readData (limits : DepthLimits) (path : String) : (readData limits path).Reports interrupted := by
  refine console.bind fun c => ?_
  split
  · exact reports_fail _
  · exact fault _
  · split
    · exact fault _
    · refine (descend _).bind fun _ => ?_
      split
      · exact fault _
      · exact reports_fail _
      · exact pure _

theorem reports_normalizeFile (context : Context) (path : String) :
    (normalizeFile context path).Reports context.interrupted := by
  refine (reports_readData _ path).bind fun v => ?_
  split_ifs with hinterrupted
  · exact log_stop (fun hfalse => by simp [hinterrupted] at hfalse) _
  · refine (descend _).bind fun _ => ?_
    split
    · exact reports_fail _
    · exact fault _
    · refine (descend _).bind fun _ => ?_
      refine (modify fun c => Console.continues_emitAll c _).bind fun _ => ?_
      split
      · exact pure _
      · exact reports_fail _
      · exact fault _
      · exact reports_fail _
      · exact fault _

theorem reports_outputText (limits : DepthLimits) (indent : Int) (data : Value) :
    (outputText limits indent data).Reports interrupted := by
  refine (descend _).bind fun _ => ?_
  split
  · exact pure _
  · exact reports_fail _
  · exact reports_fail _
  · exact fault _
  · exact fault _

theorem reports_writeData (limits : DepthLimits) (indent : Int) (output : Option String) (data : Value) :
    (writeData limits indent output data).Reports interrupted := by
  refine (reports_outputText limits indent data).bind fun text => ?_
  simp only
  split_ifs
  · exact modify fun c => .of_eq rfl rfl
  · refine console.bind fun c => ?_
    split
    · refine bind (modify fun c => ?_) fun _ => reports_log _ _
      exact .of_eq rfl rfl
    · exact fault _
    · exact reports_fail _

theorem reports_runJob (context : Context) (job : Job) :
    (runJob context job).Reports context.interrupted := by
  refine (reports_log _ _).bind fun _ => (reports_normalizeFile context _).bind fun r => ?_
  refine (descend _).bind fun _ => (ofExcept _ _).bind fun data => ?_
  refine (reports_writeData _ _ _ _).bind fun _ => ?_
  split_ifs
  · exact reports_log _ _
  · exact pure _

end Reports

section OnlyLogs

variable {α : Type} {place? : Option (List String)}

open Action.OnlyLogs

theorem onlyLogs_log (level : Level) (message : String) : (log level message).OnlyLogs place? :=
  fun _ hc => Console.onlyLogged_emit hc _

theorem onlyLogs_fail (message : String) : (fail message : Action α).OnlyLogs place? :=
  (onlyLogs_log _ _).bind fun _ => stop _

theorem onlyLogs_readData (limits : DepthLimits) (path : String) : (readData limits path).OnlyLogs place? := by
  refine console.bind fun c => ?_
  split
  · exact onlyLogs_fail _
  · exact stop _
  · split
    · exact stop _
    · refine (descend _).bind fun _ => ?_
      split
      · exact stop _
      · exact onlyLogs_fail _
      · exact pure _

/-- What comes before the output changes nothing but the log. -/
theorem onlyLogs_normalizeFile (context : Context) (path : String) :
    (normalizeFile context path).OnlyLogs place? := by
  refine (onlyLogs_readData _ path).bind fun v => ?_
  split_ifs
  · exact (onlyLogs_log _ _).bind fun _ => stop _
  · refine (descend _).bind fun _ => ?_
    split
    · exact onlyLogs_fail _
    · exact stop _
    · refine (descend _).bind fun _ => ?_
      refine Action.OnlyLogs.bind (fun c hc => Console.onlyLogged_emitAll hc _) fun _ => ?_
      split
      · exact pure _
      · exact onlyLogs_fail _
      · exact stop _
      · exact onlyLogs_fail _
      · exact stop _

theorem onlyLogs_outputText (limits : DepthLimits) (indent : Int) (data : Value) :
    (outputText limits indent data).OnlyLogs place? := by
  refine (descend _).bind fun _ => ?_
  split
  · exact pure _
  · exact onlyLogs_fail _
  · exact onlyLogs_fail _
  · exact stop _
  · exact stop _

end OnlyLogs

/-! ### Whole commands -/

variable {context : Context} {arguments : List String} {job : Job}

theorem execute_eq (hrun : Invocation.ofArguments arguments = .run job) (c : Console) :
    execute context arguments c = match c.configure context.settings with
      | (configured, some e) => (.fault (.setup e), configured)
      | (configured, none) => match runJob context job configured with
        | (.ok (), later) => (.exit 0, later)
        | (.error ending, later) => (ending, later) := by
  rw [execute, hrun, invoke, Action.bind_apply, configureLog]
  rcases c.configure context.settings with ⟨configured, failure | _⟩ <;> rfl

/-- A command sets up the log, and does its job. -/
theorem execute_run {c later : Console} {ending : Ending} (hrun : Invocation.ofArguments arguments = .run job)
    (h : execute context arguments c = (ending, later)) :
    (∃ e, c.configure context.settings = (later, some e) ∧ ending = .fault (.setup e)) ∨
      ∃ configured, c.configure context.settings = (configured, none) ∧
        (runJob context job configured = (.ok (), later) ∧ ending = .exit 0 ∨
          runJob context job configured = (.error ending, later)) := by
  rw [execute_eq hrun] at h
  cases hconfigure : c.configure context.settings with
  | mk configured failure =>
    rw [hconfigure] at h
    cases failure with
    | some e =>
      obtain ⟨rfl, rfl⟩ := Prod.mk.inj h
      exact .inl ⟨e, rfl, rfl⟩
    | none =>
      refine .inr ⟨configured, rfl, ?_⟩
      cases hjob : runJob context job configured with
      | mk r last =>
        simp only [hjob] at h
        cases r with
        | ok _ =>
          obtain ⟨rfl, rfl⟩ := Prod.mk.inj h
          exact .inl ⟨rfl, rfl⟩
        | error e =>
          obtain ⟨rfl, rfl⟩ := Prod.mk.inj h
          exact .inr rfl

end Cli

end ViewGraph
