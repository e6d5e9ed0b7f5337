import ViewGraph.Text.Digit
import ViewGraph.Text.Quoted

/-!
# Command lines

A command line is read against a list of options. An option may be given by a prefix that no other
option shares, its value may follow an equals sign, and whatever is neither an option nor a value is
kept as an extra. Behind `--` nothing is an option.

* `Cli.classify`: what an argument is.
* `Cli.parse`: the options that are given, in order, and the extras.
-/

namespace ViewGraph.Cli

/-- An option of a command. -/
inductive Flag
  | help
  | input
  | output
  | summary
deriving DecidableEq

namespace Flag

/-- The spellings of an option. -/
def spellings : Flag → List String
  | help => ["-h", "--help"]
  | input => ["--in"]
  | output => ["--out"]
  | summary => ["--summary"]

/-- Does an option take a value? -/
def takesValue : Flag → Bool
  | input => true
  | output => true
  | _ => false

/-- The name of an option in messages. -/
def name (f : Flag) : String := "/".intercalate f.spellings

end Flag

/-- Why a command line is refused. -/
inductive UsageError
  | ambiguous (argument : String) (candidates : List String)
  | valueMissing (flag : Flag)
  | valueIgnored (flag : Flag) (value : String)
  | unknownCommand (name : String)
  | required (flags : List Flag)
  | unrecognized (extras : List String)
deriving DecidableEq

/-- A value in the same argument as its option: behind an equals sign, or right behind a letter. -/
structure Attached where
  behindEquals : Bool
  text : List Char
deriving DecidableEq

/-- What an argument is: no option, or an option with its spelling and perhaps a value. An argument
that looks like an option and is none has no flag. -/
inductive Token
  | word
  | option (flag? : Option Flag) (spelling : String) (value? : Option Attached)

/-- The spellings of some options. -/
def spellingsOf (flags : List Flag) : List (String × Flag) :=
  flags.flatMap fun f => f.spellings.map fun s => (s, f)

/-- Splits a text at its first equals sign. -/
def splitValue (argument : List Char) : List Char × Option Attached :=
  match argument.dropWhile (· ≠ '=') with
  | [] => (argument, none)
  | _ :: value => (argument.takeWhile (· ≠ '='), some ⟨true, value⟩)

/-- The options that an argument may abbreviate, with the value behind it. -/
def candidates (flags : List Flag) (argument : List Char) :
    List (String × Flag × Option Attached) :=
  let known := spellingsOf flags
  match argument with
  | '-' :: '-' :: _ =>
    let (start, value?) := splitValue argument
    known.filterMap fun (spelling, f) =>
      if start.isPrefixOf spelling.toList then some (spelling, f, value?) else none
  | _ =>
    known.filterMap fun (spelling, f) =>
      if spelling.toList = argument.take 2 then some (spelling, f, some ⟨false, argument.drop 2⟩)
      else if argument.isPrefixOf spelling.toList then some (spelling, f, none)
      else none

/-- Does an argument look like a negative number? -/
def isNegativeNumber : List Char → Bool
  | '-' :: cs =>
    let rest := cs.dropWhile isDecimalDigit
    match rest with
    | [] => !cs.isEmpty
    | ['\n'] => 1 < cs.length
    | '.' :: digits =>
      let digits := if digits.getLast? = some '\n' then digits.dropLast else digits
      !digits.isEmpty && digits.all isDecimalDigit
    | _ => false
  | _ => false

/-- What an argument is, before `--`. -/
def classify (flags : List Flag) (argument : String) : Except UsageError Token :=
  let known := spellingsOf flags
  let cs := argument.toList
  if cs.head? ≠ some '-' then .ok .word
  else match known.lookup argument with
    | some f => .ok (.option (some f) argument none)
    | none =>
      if cs.length = 1 then .ok .word
      else
        let (start, value?) := splitValue cs
        match if value?.isSome then known.lookup (String.ofList start) else none with
        | some f => .ok (.option (some f) (String.ofList start) value?)
        | none =>
          match candidates flags cs with
          | [(spelling, f, value?)] => .ok (.option (some f) spelling value?)
          | [] =>
            if isNegativeNumber cs || cs.contains ' ' then .ok .word
            else .ok (.option none argument none)
          | many => .error (.ambiguous argument (many.map (·.1)))

/-- An argument with what it is. Behind `--` everything is a word; `--` itself is neither. -/
inductive Part
  | token (argument : String) (t : Token)
  | divider

def Part.text : Part → String
  | token argument _ => argument
  | divider => "--"

/-- The parts of a command line. -/
def partsOf (flags : List Flag) : List String → Except UsageError (List Part)
  | [] => .ok []
  | argument :: rest =>
    if argument = "--" then .ok (.divider :: rest.map fun a => .token a .word)
    else do
      let t ← classify flags argument
      let parts ← partsOf flags rest
      return .token argument t :: parts

/-- An option that is given, with its value. -/
structure Given where
  flag : Flag
  value : String
deriving DecidableEq

/-- The outcome of reading: options in order, extras, and the error that ended it. Options that were
read before an error count. -/
structure Parsed where
  given : List Given := []
  extras : List String := []
  error : Option UsageError := none

namespace Parsed

def addGiven (more : List Given) (p : Parsed) : Parsed := { p with given := more ++ p.given }

def addExtra (extra : String) (p : Parsed) : Parsed := { p with extras := extra :: p.extras }

def fail (e : UsageError) : Parsed := { error := some e }

/-- One outcome and then another. -/
def andThen (p q : Parsed) : Parsed :=
  if p.error.isSome then p else ⟨p.given ++ q.given, p.extras ++ q.extras, q.error⟩

end Parsed

/-- An option without a value to which a text is attached. Behind one dash the text may be further
options, each a letter; a letter that is no option makes the rest an extra. -/
def readAttached (flags : List Flag) (flag : Flag) (spelling : String) (behindEquals : Bool) :
    List Char → Parsed
  | [] => .fail (.valueIgnored flag "")
  | c :: rest =>
    if spelling.toList.take 2 = ['-', '-'] || behindEquals || c = '-' then
      .fail (.valueIgnored flag (String.ofList (c :: rest)))
    else
      let next := String.ofList ['-', c]
      match (spellingsOf flags).lookup next with
      | none => { given := [⟨flag, ""⟩], extras := [String.ofList ('-' :: c :: rest)] }
      | some f =>
        match rest with
        | [] => { given := [⟨flag, ""⟩, ⟨f, ""⟩] }
        | '=' :: value =>
          { error := some (.valueIgnored f (String.ofList value)) }
        | rest =>
          let more := readAttached flags f next false rest
          if more.error.isSome then more else more.addGiven [⟨flag, ""⟩]

/-- Reads the parts of a command line. -/
def readParts (flags : List Flag) : List Part → Parsed
  | [] => {}
  | .divider :: rest => (readParts flags rest).addExtra "--"
  | .token argument .word :: rest => (readParts flags rest).addExtra argument
  | .token argument (.option none ..) :: rest => (readParts flags rest).addExtra argument
  | .token _ (.option (some f) spelling (some value)) :: rest =>
    if f.takesValue then (readParts flags rest).addGiven [⟨f, String.ofList value.text⟩]
    else
      let here := readAttached flags f spelling value.behindEquals value.text
      here.andThen (readParts flags rest)
  | .token _ (.option (some f) _ none) :: rest =>
    if f.takesValue then
      match rest with
      | .token value .word :: rest => (readParts flags rest).addGiven [⟨f, value⟩]
      | _ => .fail (.valueMissing f)
    else (readParts flags rest).addGiven [⟨f, ""⟩]

/-- Reads a command line without its command. -/
def parse (flags : List Flag) (arguments : List String) : Parsed :=
  match partsOf flags arguments with
  | .ok parts => readParts flags parts
  | .error e => .fail e

/-- A command line before its command: options and extras, and the command with what follows it. -/
structure Front where
  parsed : Parsed
  command : Option (String × List String)

/-- Reads the parts in front of the command. The command is the first word; everything behind it is
left to the command. -/
def readFront (flags : List Flag) : List Part → Front
  | [] => ⟨{}, none⟩
  | .divider :: rest =>
    match rest with
    | [] => ⟨({} : Parsed).addExtra "--", none⟩
    | rest => ⟨{}, some ("--", rest.map Part.text)⟩
  | .token argument .word :: rest => ⟨{}, some (argument, rest.map Part.text)⟩
  | .token argument (.option none ..) :: rest =>
    let front := readFront flags rest
    { front with parsed := front.parsed.addExtra argument }
  | .token _ (.option (some f) spelling value?) :: rest =>
    let here : Parsed := match value? with
      | none => { given := [⟨f, ""⟩] }
      | some value => readAttached flags f spelling value.behindEquals value.text
    if here.error.isSome then ⟨here, none⟩
    else
      let front := readFront flags rest
      { front with parsed := here.andThen front.parsed }

end ViewGraph.Cli
