import Std.Time.Zoned
import ViewGraph.Command.Run

/-!
# The program

Takes the settings, the time and the files that a command line names from outside, runs the command
on them, and hands back what it has changed.
-/

open ViewGraph

namespace ViewGraph.Program

/-- A number with at least so many digits. -/
def padded (width : Nat) (n : Int) : String :=
  let digits := (toString n).toList
  String.ofList (List.replicate (width - digits.length) '0' ++ digits)

/-- A time of a day, as the log shows it; `separator` stands between the day and the time. -/
def timeText (separator : String) (t : Std.Time.PlainDateTime) : String :=
  padded 4 t.date.year ++ "-" ++ padded 2 t.date.month.val ++ "-" ++ padded 2 t.date.day.val ++
    separator ++ padded 2 t.time.hour.val ++ ":" ++ padded 2 t.time.minute.val ++ ":" ++
    padded 2 t.time.second.val

/-- A universal time with its microseconds, if there are any, as reports show it. -/
def reportTime (t : Std.Time.PlainDateTime) : String :=
  let micros := t.time.nanosecond.val / 1000
  timeText "T" t ++ (if micros = 0 then "" else "." ++ padded 6 micros) ++ "+00:00"

/-- A result, or a default where there is none. -/
def orElse {α : Type} (default : α) (action : IO α) : IO α := do
  try action catch _ => return default

/-- The text of a file, or no text where there is none. -/
def textAt (path : String) : IO String := orElse "" (IO.FS.readFile path)

/-- The environment: names and values, each ended by a null character. -/
def environment : IO (List (String × String)) := do
  let entries := (← textAt "/proc/self/environ").splitOn "\x00"
  return entries.filterMap fun entry =>
    match entry.splitOn "=" with
    | name :: value => if value.isEmpty then none else some (name, "=".intercalate value)
    | [] => none

/-- What stands at a place. The content of a file that is only written is not read. -/
def nodeAt (isRead : Bool) (place : List String) : IO (Option Node) := do
  let path := Files.pathOf place
  let opened (path : String) : IO Bool :=
    orElse false (do let _ ← IO.FS.Handle.mk path .read; return true)
  if ← opened (path ++ "/.") then return some .directory
  else if ← opened path then
    return some (.file (← orElse .empty (if isRead then IO.FS.readBinFile path else pure .empty)))
  else return none

/-- Adds what stands on the way of a path and at its end. -/
def addPath (files : Files) (path : String) (isRead : Bool) : IO Files := do
  let mut files := files
  for place in files.placesOn path do
    if (files.node? place).isNone then
      if let some node ← nodeAt isRead place then files := files.set place node
  return files

/-- The files that a command line and the settings name. -/
def filesOf (directory : List String) (settings : Settings) (arguments : List String) :
    IO Files := do
  let mut files : Files := { directory }
  if let some path := settings.logFile then files ← addPath files path true
  if let .run job := Cli.Invocation.ofArguments arguments then
    files ← addPath files job.input true
    if let some path := job.output then files ← addPath files path false
  return files

/-- Runs a command line. -/
def run (settings : Settings) (arguments : List String) : IO UInt32 := do
  let directory := Files.stepsOf (← IO.currentDir).toString
  let files ← filesOf directory settings arguments
  let now ← Std.Time.Timestamp.now
  let context : Cli.Context :=
    { settings, time := reportTime (.ofWallTime (now.toWallTime Std.Time.TimeZone.UTC.offset)) }
  let c : Console :=
    { files, time := timeText " " (← Std.Time.PlainDateTime.now)
      terminal := ← (← IO.getStderr).isTty }
  let (ending, later) := Cli.execute context arguments c
  IO.eprint later.stderr
  for (place, content) in files.changes later.files do
    IO.FS.writeBinFile (Files.pathOf place) content
  IO.print later.stdout
  match ending with
  | .exit code => return code.toUInt32
  | .fault f =>
    IO.eprintln f.message
    return 1

end ViewGraph.Program

open ViewGraph.Program in
/-- Runs a command line under the settings of the environment and of the file `.env`. -/
def main (arguments : List String) : IO UInt32 := do
  let sources : Settings.Sources :=
    { environment := ← environment, file := unifyLineEnds (← textAt ".env").toList }
  match Settings.ofSources sources with
  | .valid settings => run settings arguments
  | .invalid issues =>
    IO.eprintln (Cli.issuesText "Settings" issues)
    return 1
