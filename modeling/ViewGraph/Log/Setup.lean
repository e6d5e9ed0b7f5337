import ViewGraph.Files
import ViewGraph.Log.Format
import ViewGraph.Settings

/-!
# The log

Entries go to the terminal and perhaps to a file, each line in its format, if their level is high
enough. What goes where is set up from the name of a level, the name of a format and the path of a
file.

* `levelNamed`: the level of a name.
* `Console.setUp`: a new set-up of the log.
* `Console.emit`: writes an entry.
-/

namespace ViewGraph

/-- Where the lines of a handler go. -/
inductive Sink
  | terminal
  | file (path : String)
deriving DecidableEq

/-- A place where entries are written, from a level on. -/
structure Handler where
  sink : Sink
  level : Level
  formatter : Formatter
deriving DecidableEq

/-- The log: the least level, and the handlers. -/
structure Log where
  level : Level := Level.warning
  handlers : List Handler := []
deriving DecidableEq

/-- What the log is set up from. -/
structure LogSetup where
  level : String := "INFO"
  format : String := "detailed"
  file : Option String := none
  colours : Bool := true
deriving DecidableEq

/-- Why the log cannot be set up. -/
inductive SetupError
  /-- The name stands for a text. -/
  | levelIsText
  /-- The name stands for something else. -/
  | levelIsNoLevel
  | file (e : FileError)
deriving DecidableEq

/-- The levels that can be named. -/
def levelsByName : List (String × Level) :=
  [("CRITICAL", 50), ("FATAL", 50), ("ERROR", 40), ("WARNING", 30), ("WARN", 30), ("INFO", 20),
   ("DEBUG", 10), ("NOTSET", 0)]

/-- The level of a name in any letter case. Two names are taken for other things; any other unknown
name stands for the level of information. -/
def levelNamed (name : String) : Except SetupError Level :=
  let name := upperLatin name
  match levelsByName.lookup name with
  | some level => .ok level
  | none =>
    if name = "BASIC_FORMAT" then .error .levelIsText
    else if name = "_STYLES" then .error .levelIsNoLevel
    else .ok Level.info

/-- What a command can see and change: files, a terminal and the log. -/
structure Console where
  files : Files := {}
  stdout : String := ""
  stderr : String := ""
  log : Log := {}
  /-- All entries so far, those below the level of the log as well. -/
  entries : List LogEntry := []
  /-- The entries that were logged: those that their level let through, whether a handler wrote them
  or not. -/
  logged : List LogEntry := []
  /-- The time on the lines of the log. -/
  time : String := ""
  /-- Does the terminal show colours? -/
  terminal : Bool := false

namespace Console

/-- Writes the line of an entry where a handler puts it. -/
def handle (c : Console) (e : LogEntry) (h : Handler) : Console :=
  if e.level < h.level then c
  else
    let line := h.formatter.render c.time e ++ "\n"
    match h.sink with
    | .terminal => { c with stderr := c.stderr ++ line }
    | .file path =>
      match c.files.append path line.toUTF8 with
      | .ok files => { c with files := files }
      | .error _ => c

/-- Is an entry of this level logged at all? -/
def isLogged (c : Console) (level : Level) : Bool := 0 < level && c.log.level ≤ level

/-- Writes an entry, if it is logged. -/
def emit (c : Console) (e : LogEntry) : Console :=
  let c := { c with entries := c.entries ++ [e] }
  if c.isLogged e.level then
    c.log.handlers.foldl (fun c h => c.handle e h) { c with logged := c.logged ++ [e] }
  else c

def emitAll (c : Console) (entries : List LogEntry) : Console := entries.foldl emit c

/-- Sets up the log: to the terminal, and to a file if one is named, which is created if need be. A
failure leaves what was done before it. -/
def setUp (c : Console) (s : LogSetup) : Console × Option SetupError :=
  match levelNamed s.level with
  | .error e => (c, some e)
  | .ok level =>
    let terminal : Handler := ⟨.terminal, level, .ofName s.format (s.colours && c.terminal)⟩
    let c := { c with log := ⟨level, [terminal]⟩ }
    match s.file with
    | none => (c, none)
    | some path =>
      if path.isEmpty then (c, none)
      else
        let path := Files.pathOf (c.files.placeOf path)
        match c.files.append path .empty with
        | .error e => (c, some (.file e))
        | .ok files =>
          let file : Handler := ⟨.file path, level, .ofName s.format false⟩
          ({ c with files := files, log := ⟨level, [terminal, file]⟩ }, none)

/-- The logger of this module. -/
def setupLogger : String := "core.logging_config"

/-- What the settings ask of the log. When debugging, everything is logged. -/
def setupOf (s : Settings) : LogSetup :=
  { level := if s.debug then "DEBUG" else s.logLevel, format := s.logFormat, file := s.logFile }

/-- Sets up the log from the settings. -/
def configure (c : Console) (s : Settings) : Console × Option SetupError :=
  let setup := setupOf s
  match c.setUp setup with
  | (c, some e) => (c, some e)
  | (c, none) =>
    (c.emit ⟨.debug, setupLogger,
      "Logging configured with level: " ++ setup.level ++ ", format: " ++ setup.format⟩, none)

end Console

end ViewGraph
