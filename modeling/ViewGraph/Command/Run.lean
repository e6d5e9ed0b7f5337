import ViewGraph.Command.Invocation
import ViewGraph.Document.Text
import ViewGraph.Log.Setup
import ViewGraph.Report

/-!
# Running a command

A command reads a template from a file, normalizes it and writes its records to a file or to the
terminal. Nothing is written before everything that can fail in the template has succeeded.

Of the limits of the machine, the number of digits of a whole number is part of the rules here
(`maxDigits`), and so is the length of a path. How deeply data may be nested is not: which data are too
deep for a step is given from outside (`DepthLimits`), for a command only; a text, a document, a template
or data that are handled without a command are never too deep. Memory is never exhausted, whatever the
indentation, and a counter and the level of an entry never have too many digits to be shown.

* `Cli.execute`: what a command line does, and how it ends.
* `Ending`: an exit with a code, or a fault that nobody handles.
* `DepthLimits`: which data are nested too deeply for a step.
-/

namespace ViewGraph.Cli

/-- What ends a command without being reported. -/
inductive Fault
  | file (e : FileError)
  /-- A file is no text. -/
  | undecodable
  | tooManyDigits
  | setup (e : SetupError)
  | dump (e : DumpError)
  | indentUnusable
  | indentTooLarge
  | notIterable
  /-- Data are nested too deeply for a step. -/
  | tooDeep
deriving DecidableEq

/-- A fault in words. -/
def Fault.message : Fault → String
  | file e => e.text
  | undecodable => "The file is no UTF-8 text"
  | tooManyDigits => "A whole number has too many digits"
  | setup (.file e) => "The log cannot be written: " ++ e.text
  | setup _ => "The level of the log is no level"
  | dump .notData => "The records hold a value that is no data"
  | dump .circular => "The records hold an element that contains itself"
  | indentUnusable => "The indentation is no number"
  | indentTooLarge => "The indentation is too large"
  | notIterable => "A value that is no list stands in place of one"
  | tooDeep => "The data are nested too deeply"

/-- Which data are nested too deeply for a step of a command: for reading a text, loading a document,
normalizing a template, dumping its records and writing data. The machine sets these bounds. -/
structure DepthLimits where
  reading : List Char → Bool := fun _ => false
  loading : Value → Bool := fun _ => false
  normalizing : Graph → Value → Bool := fun _ _ => false
  dumping : DocumentFragment → Bool := fun _ => false
  writing : Value → Bool := fun _ => false

/-- What a command depends on besides its command line. -/
structure Context where
  settings : Settings := {}
  /-- The time on a report. -/
  time : String := ""
  /-- Does the user interrupt the command? The interrupt is taken between reading the input and loading
  it. One that comes elsewhere before the output ends the command in the same way; one that comes during
  the set-up of the log, where nobody handles it, or during the output is not modelled. -/
  interrupted : Bool := false
  limits : DepthLimits := {}

/-- How a command ends. -/
inductive Ending
  | exit (code : Nat)
  | fault (f : Fault)
deriving DecidableEq

/-- A step of a command: it changes the console, and may end the command. -/
def Action (α : Type) : Type := Console → Except Ending α × Console

namespace Action

variable {α β : Type}

instance : Monad Action where
  pure a := fun c => (.ok a, c)
  bind x f := fun c =>
    match x c with
    | (.ok a, c) => f a c
    | (.error e, c) => (.error e, c)

/-- Ends the command. -/
def stop (e : Ending) : Action α := fun c => (.error e, c)

def fault (f : Fault) : Action α := stop (.fault f)

def console : Action Console := fun c => (.ok c, c)

def modify (f : Console → Console) : Action Unit := fun c => (.ok (), f c)

def ofExcept {ε : Type} (f : ε → Fault) : Except ε α → Action α
  | .ok a => pure a
  | .error e => fault (f e)

/-- Goes on with a step unless its data are nested too deeply. What such a step logs before it breaks
off is left out. -/
def descend (tooDeep : Bool) : Action Unit := if tooDeep then fault .tooDeep else pure ()

end Action

/-- The logger of this module. -/
def commandLogger : String := "core.template.cli"

/-- Logs a message of the command. -/
def log (level : Level) (message : String) : Action Unit :=
  Action.modify fun c => c.emit ⟨level, commandLogger, message⟩

/-- Reports an error and ends the command. -/
def fail {α : Type} (message : String) : Action α := do
  log Level.error message
  Action.stop (.exit 1)

/-- The data in a file. -/
def readData (limits : DepthLimits) (path : String) : Action Value := do
  match (← Action.console).files.read path with
  | .error .notFound => fail ("File not found: " ++ path)
  | .error e => Action.fault (.file e)
  | .ok content =>
    match String.fromUTF8? content with
    | none => Action.fault .undecodable
    | some text =>
      Action.descend (limits.reading text.toList)
      match Document.ofText text.toList with
      | .error .tooManyDigits => Action.fault .tooManyDigits
      | .error (.malformed message) => fail ("Invalid JSON in " ++ path ++ ": " ++ message)
      | .ok v => return v

/-- The issues of a record in words. -/
def issuesText (className : String) (issues : List Issue) : String :=
  let noun := if issues.length = 1 then " validation error for " else " validation errors for "
  numeral issues.length ++ noun ++ className ++ "\n" ++
    "\n".intercalate (issues.map fun i => ".".intercalate i.path ++ "\n  " ++ i.kind.message)

/-- Reports that a template cannot be normalized. -/
def failTemplate {α : Type} (reason : String) : Action α :=
  fail ("Template normalization failed: " ++ reason)

/-- The graph and the records of the template in a file. -/
def normalizeFile (context : Context) (path : String) : Action (Graph × DocumentFragment) := do
  let v ← readData context.limits path
  if context.interrupted then
    log Level.info "Normalization interrupted by user"
    Action.stop (.exit 1)
  else
    Action.descend (context.limits.loading v)
    match Document.loadInto .empty v with
    | .error (.format e) => failTemplate (e.message "")
    | .error .tooManyDigits => Action.fault .tooManyDigits
    | .ok (g, root) =>
      Action.descend (context.limits.normalizing g root)
      let r := normalize g root
      Action.modify fun c => c.emitAll r.entries
      match r.outcome with
      | .ok f => return (g, f)
      | .error (.duplicate e) => failTemplate e.message
      | .error .tooManyDigits => Action.fault .tooManyDigits
      | .error (.invalidRecord className issues) => failTemplate (issuesText className issues)
      | .error .notIterable => Action.fault .notIterable

/-- The text that is written for some data. -/
def outputText (limits : DepthLimits) (indent : Int) (data : Value) : Action String := do
  Action.descend (limits.writing data)
  match jsonText (Graph.empty).displayed (.int indent) data with
  | .ok text => return text ++ "\n"
  | .error (.notFinite x indented) =>
    fail ("Failed to serialize output: " ++ notFiniteMessage x indented)
  | .error .tooManyDigits => fail ("Failed to serialize output: " ++ tooManyDigitsMessage)
  | .error .indentTooLarge => Action.fault .indentTooLarge
  | .error .indentUnusable => Action.fault .indentUnusable

/-- Writes data to a file, or to the terminal if none is named. -/
def writeData (limits : DepthLimits) (indent : Int) (output : Option String) (data : Value) :
    Action Unit := do
  let text ← outputText limits indent data
  let path := output.getD ""
  if path.isEmpty then Action.modify fun c => { c with stdout := c.stdout ++ text }
  else
    match (← Action.console).files.write path text.toUTF8 with
    | .ok files =>
      Action.modify fun c => { c with files := files }
      log Level.info ("Output saved to: " ++ path)
    | .error .notAPath => Action.fault (.file .notAPath)
    | .error e => fail ("Failed to save output to " ++ path ++ ": " ++ e.message path)

/-- The data that a job writes. -/
def dataOf (context : Context) (job : Job) (g : Graph) (f : DocumentFragment) :
    Except DumpError Value :=
  if job.keyed then (Maps.ofFragment f).dump g
  else if job.summary || context.settings.includeSummary then report g context.time f
  else dumpFragment g {} f

/-- Does a job. -/
def runJob (context : Context) (job : Job) : Action Unit := do
  log Level.info ("Normalizing template " ++ job.input ++ (if job.keyed then " to maps" else "") ++
    "...")
  let (g, f) ← normalizeFile context job.input
  Action.descend (context.limits.dumping f)
  let data ← Action.ofExcept .dump (dataOf context job g f)
  writeData context.limits context.settings.jsonIndent job.output data
  if !job.keyed then
    log Level.info ("Normalized " ++ numeral f.instances.length ++ " instances and " ++
      numeral f.props.length ++ " props")

/-- Writes a text to the terminal. -/
def print (text : String) : Action Unit :=
  Action.modify fun c => { c with stdout := c.stdout ++ text }

def printError (text : String) : Action Unit :=
  Action.modify fun c => { c with stderr := c.stderr ++ text }

/-- Sets up the log. -/
def configureLog (settings : Settings) : Action Unit := fun c =>
  match c.configure settings with
  | (c, none) => (.ok (), c)
  | (c, some e) => (.error (.fault (.setup e)), c)

/-- Does what a command line asks for. -/
def invoke (context : Context) : Invocation → Action Unit
  | .help page => do
    print page.help
    Action.stop (.exit 0)
  | .nothing => do
    print Page.program.help
    Action.stop (.exit 1)
  | .refused page e => do
    printError (page.usage ++ page.title ++ ": error: " ++ e.message ++ "\n")
    Action.stop (.exit 2)
  | .run job => do
    configureLog context.settings
    runJob context job

/-- What a command line does, and how it ends. -/
def execute (context : Context) (arguments : List String) (c : Console) : Ending × Console :=
  match invoke context (.ofArguments arguments) c with
  | (.ok (), c) => (.exit 0, c)
  | (.error e, c) => (e, c)

end ViewGraph.Cli
