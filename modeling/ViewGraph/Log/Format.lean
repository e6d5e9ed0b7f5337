import ViewGraph.Log
import ViewGraph.Number.Decimal
import ViewGraph.Text.Digit

/-!
# Lines of the log

An entry is written as one line in one of three formats. On a terminal the level, the time and the
logger of a line are coloured. A level without a name is shown as a number, which never has too many
digits for that.

* `LineFormat.pieces`, `LineFormat.line`: a format, and a line with its places filled.
* `colouredLine`: a line with colours.
* `levelName`: the name of a level.
-/

namespace ViewGraph

/-- The part of an entry that stands at a place of a line. -/
inductive Place
  | time
  | logger
  | level
  | message
deriving DecidableEq

/-- A line is made of fixed text and places. -/
inductive Piece
  | fixed (text : String)
  | place (p : Place)
deriving DecidableEq

/-- The formats of lines. -/
inductive LineFormat
  | simple
  | detailed
  | json
deriving DecidableEq

/-- The parts of an entry as texts. -/
structure LineParts where
  time : String
  logger : String
  level : String
  message : String

def LineParts.at (parts : LineParts) : Place → String
  | .time => parts.time
  | .logger => parts.logger
  | .level => parts.level
  | .message => parts.message

namespace LineFormat

/-- The format of a name; unknown names stand for the detailed one. -/
def ofName (name : String) : LineFormat :=
  if name = "json" then json else if name = "simple" then simple else detailed

def pieces : LineFormat → List Piece
  | simple => [.place .level, .fixed " - ", .place .message]
  | detailed =>
    [.place .time, .fixed " - ", .place .logger, .fixed " - ", .place .level, .fixed " - ",
     .place .message]
  | json =>
    [.fixed "\x7b\"timestamp\": \"", .place .time, .fixed "\", \"level\": \"", .place .level,
     .fixed "\", \"logger\": \"", .place .logger, .fixed "\", \"message\": \"", .place .message,
     .fixed "\"\x7d"]

/-- The line of an entry. -/
def line (f : LineFormat) (parts : LineParts) : String :=
  String.join (f.pieces.map fun
    | .fixed text => text
    | .place p => parts.at p)

end LineFormat

/-! ### Levels -/

/-- The named levels. -/
def namedLevels : List (Level × String) :=
  [(50, "CRITICAL"), (40, "ERROR"), (30, "WARNING"), (20, "INFO"), (10, "DEBUG"), (0, "NOTSET")]

/-- The name of a level. -/
def levelName (level : Level) : String :=
  (namedLevels.lookup level).getD ("Level " ++ String.ofList (writeInt level))

/-! ### Colours -/

/-- The colours of a terminal, by their codes. -/
inductive Colour
  | grey
  | red
  | green
  | yellow
  | blue
  | magenta
  | cyan
  | white
deriving DecidableEq

namespace Colour

def code : Colour → String
  | grey => "90"
  | red => "91"
  | green => "92"
  | yellow => "93"
  | blue => "94"
  | magenta => "95"
  | cyan => "96"
  | white => "97"

/-- The colour of a level. -/
def ofLevel (level : Level) : Colour :=
  if level = Level.debug then grey else if level = Level.info then green
  else if level = Level.warning then yellow else if level = Level.error then red
  else if level = Level.critical then magenta else white

/-- A text in a colour. -/
def paint (colour : Colour) (text : List Char) : List Char :=
  '\x1b' :: '[' :: colour.code.toList ++ 'm' :: text ++ ['\x1b', '[', '0', 'm']

end Colour

/-- Replaces the first place where a text occurs. -/
def replaceFirst (old new : List Char) : List Char → List Char
  | [] => if old.isEmpty then new else []
  | c :: cs =>
    if old.isPrefixOf (c :: cs) then new ++ (c :: cs).drop old.length
    else c :: replaceFirst old new cs

/-- The shape of a time: digits stand for digits, any other character for itself. -/
def timeShape : List Char := "0000-00-00 00:00:00".toList

/-- Does a text begin with a time? -/
def beginsWithTime (cs : List Char) : Bool :=
  timeShape.length ≤ cs.length &&
    (timeShape.zip cs).all fun (s, c) => if s = '0' then isDecimalDigit c else s = c

/-- Paints the first time in a text. -/
def paintTime : List Char → List Char
  | [] => []
  | c :: cs =>
    if beginsWithTime (c :: cs) then
      Colour.cyan.paint ((c :: cs).take timeShape.length) ++ (c :: cs).drop timeShape.length
    else c :: paintTime cs

/-- Paints the first place where a logger is followed by a dash. -/
def paintLogger (logger : List Char) (cs : List Char) : List Char :=
  if logger.isEmpty then cs
  else
    let dash := [' ', '-', ' ']
    replaceFirst (logger ++ dash) (Colour.blue.paint logger ++ dash) cs

/-- A line with its level, its time and its logger in colours. -/
def colouredLine (level : Level) (parts : LineParts) (line : String) : String :=
  let name := parts.level.toList
  let painted := replaceFirst name ((Colour.ofLevel level).paint name) line.toList
  String.ofList (paintLogger parts.logger.toList (paintTime painted))

/-! ### Formatters -/

/-- A format, with or without colours. Lines of JSON have none. -/
structure Formatter where
  format : LineFormat
  coloured : Bool
deriving DecidableEq

namespace Formatter

/-- The formatter of a named format. -/
def ofName (name : String) (coloured : Bool) : Formatter :=
  let format := LineFormat.ofName name
  ⟨format, coloured && format ≠ .json⟩

/-- The line of an entry at a time. -/
def render (f : Formatter) (time : String) (e : LogEntry) : String :=
  let parts : LineParts := ⟨time, e.logger, levelName e.level, e.message⟩
  let line := f.format.line parts
  if f.coloured then colouredLine e.level parts line else line

end Formatter

end ViewGraph
