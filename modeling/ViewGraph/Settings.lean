import ViewGraph.Record.Checked
import ViewGraph.Settings.EnvironmentFile
import ViewGraph.Text.LetterCase

/-!
# Settings

The settings of the command come from arguments, from the environment, from an environment file and
from defaults; the first of them that gives a setting decides. Names match in any letter case.

* `Settings.Sources`: where settings come from.
* `Settings.ofSources`: the settings, or all issues.
-/

namespace ViewGraph

/-- The settings of the command. -/
structure Settings where
  debug : Bool := false
  logLevel : String := "INFO"
  logFormat : String := "detailed"
  logFile : Option String := none
  jsonIndent : Int := 2
  includeSummary : Bool := false
deriving DecidableEq

namespace Settings

/-- Where settings come from. -/
structure Sources where
  arguments : List (String × Value) := []
  environment : List (String × String) := []
  /-- The text of the environment file. -/
  file : List Char := []

/-- The names of the settings. -/
def names : List String :=
  ["debug", "log_level", "log_format", "log_file", "json_indent", "include_summary"]

/-- A table with its names in lower case; of names that become one, the last has its value kept. -/
def lowerNames {α : Type} (t : List (String × α)) : List (String × α) :=
  Table.ofList (t.map fun (name, a) => (lower name, a))

/-- The names of an environment file that have a value. -/
def fileValues (s : Sources) : List (String × String) :=
  (lowerNames (EnvironmentFile.read s.environment s.file)).filterMap fun (name, value) =>
    value.map fun v => (name, v)

/-- An argument for a setting, by its name in any letter case. -/
def argument? (s : Sources) (name : String) : Option Value :=
  match Table.find? name s.arguments with
  | some v => some v
  | none => (s.arguments.find? fun (given, _) => lower given = name).map (·.2)

/-- What the sources give for a setting. -/
def given? (s : Sources) (name : String) : Option Value :=
  match argument? s name with
  | some v => some v
  | none =>
    match Table.find? name (lowerNames s.environment) with
    | some text => some (.str text)
    | none => (Table.find? name (fileValues s)).map .str

/-- The values that the sources give for all settings. -/
def given (s : Sources) : List (String × Value) :=
  names.filterMap fun name => (given? s name).map fun v => (name, v)

/-- Names in the file or among the arguments that are no settings. A name of the file without a text
is not reported. -/
def extras (s : Sources) : List String :=
  let fromFile := (fileValues s).filterMap fun (name, text) =>
    if names.contains name || text.isEmpty then none else some name
  let fromArguments := s.arguments.filterMap fun (name, _) =>
    if names.contains (lower name) || fromFile.contains name then none else some name
  fromFile ++ fromArguments

open Checked in
/-- The settings of a table of values. -/
def check (values : List (String × Value)) : Checked Settings :=
  pure Settings.mk <*> (Field.plain "debug").checkOr false checkBool values <*>
    (Field.plain "log_level").checkOr "INFO" checkText values <*>
    (Field.plain "log_format").checkOr "detailed" checkText values <*>
    (Field.plain "log_file").checkOr none (checkOption checkText) values <*>
    (Field.plain "json_indent").checkOr 2 checkWhole values <*>
    (Field.plain "include_summary").checkOr false checkBool values

/-- The settings that the sources give. Names that are no settings are reported last. -/
def ofSources (s : Sources) : Checked Settings :=
  let extra : Checked Unit := match extras s with
    | [] => .valid ()
    | names => .invalid (names.map fun name => ⟨.extraGiven, [name]⟩)
  pure (fun settings _ => settings) <*> check (given s) <*> extra

end Settings

end ViewGraph
