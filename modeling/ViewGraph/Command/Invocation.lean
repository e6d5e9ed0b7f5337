import ViewGraph.Command.Arguments

/-!
# Invocations

The program has two commands. What a command line asks for is one of them with its files, a page of
help, or nothing that can be done.

* `Invocation.ofArguments`: what a command line asks for.
* `Page.usage`, `Page.help`: the texts.
* `UsageError.message`: a refusal in words.
-/

namespace ViewGraph.Cli

/-- A page of help: the program or one of its commands. -/
inductive Page
  | program
  | render
  | maps
deriving DecidableEq

namespace Page

/-- The name on the page. -/
def title : Page → String
  | program => "template-graph"
  | render => "template-graph render"
  | maps => "template-graph maps"

/-- The page of a command. -/
def ofCommand? (name : String) : Option Page :=
  if name = "render" then some render else if name = "maps" then some maps else none

def flags : Page → List Flag
  | program => [.help]
  | render => [.help, .input, .output, .summary]
  | maps => [.help, .input, .output]

def usage : Page → String
  | program => "usage: template-graph [-h] \x7brender,maps\x7d ...\n"
  | render => "usage: template-graph render [-h] --in INPUT [--out OUTPUT] [--summary]\n"
  | maps => "usage: template-graph maps [-h] --in INPUT [--out OUTPUT]\n"

/-- What a page says below the usage. -/
def details : Page → String
  | program =>
    "\nTemplate normalizer CLI\n\n" ++
    "positional arguments:\n" ++
    "  \x7brender,maps\x7d  Command\n" ++
    "    render       Normalize a template into a fragment\n" ++
    "    maps         Normalize a template into id-keyed instances and props\n\n" ++
    "options:\n" ++
    "  -h, --help     show this help message and exit\n\n" ++
    "Examples:\n" ++
    "  # Normalize a template into a fragment\n" ++
    "  template-graph render --in template.json --out fragment.json\n\n" ++
    "  # Instances and props keyed by id\n" ++
    "  template-graph maps --in template.json\n        \n"
  | render =>
    "\noptions:\n" ++
    "  -h, --help    show this help message and exit\n" ++
    "  --in INPUT    Input template file\n" ++
    "  --out OUTPUT  Output file (stdout when omitted)\n" ++
    "  --summary     Wrap output with a summary block\n"
  | maps =>
    "\noptions:\n" ++
    "  -h, --help    show this help message and exit\n" ++
    "  --in INPUT    Input template file\n" ++
    "  --out OUTPUT  Output file (stdout when omitted)\n"

def help (p : Page) : String := p.usage ++ p.details

end Page

/-- A text in quotes. -/
def quotedText (s : String) : String := String.ofList (quoted s.toList)

/-- A refusal in words. -/
def UsageError.message : UsageError → String
  | ambiguous argument candidates =>
    "ambiguous option: " ++ argument ++ " could match " ++ ", ".intercalate candidates
  | valueMissing flag => "argument " ++ flag.name ++ ": expected one argument"
  | valueIgnored flag value =>
    "argument " ++ flag.name ++ ": ignored explicit argument " ++ quotedText value
  | unknownCommand name =>
    "argument command: invalid choice: " ++ quotedText name ++ " (choose from 'render', 'maps')"
  | required flags =>
    "the following arguments are required: " ++ ", ".intercalate (flags.map Flag.name)
  | unrecognized extras => "unrecognized arguments: " ++ " ".intercalate extras

/-- What a command does: a template is read from a file and its records are written, as they are or
keyed by their ids. -/
structure Job where
  /-- Are the records keyed by their ids? -/
  keyed : Bool
  input : String
  output : Option String
  summary : Bool
deriving DecidableEq

/-- What a command line asks for. -/
inductive Invocation
  | run (job : Job)
  | help (page : Page)
  /-- No command is named. -/
  | nothing
  | refused (page : Page) (e : UsageError)
deriving DecidableEq

namespace Invocation

/-- The last value of an option. -/
def valueOf? (flag : Flag) (given : List Given) : Option String :=
  (given.reverse.find? fun g => g.flag = flag).map (·.value)

def isGiven (flag : Flag) (given : List Given) : Bool := given.any fun g => g.flag = flag

/-- What the options of a command ask for; extras in front of the command count too. -/
def ofOptions (page : Page) (extras : List String) (p : Parsed) : Invocation :=
  if isGiven .help p.given then .help page
  else match p.error with
    | some e => .refused page e
    | none =>
      match valueOf? .input p.given with
      | none => .refused page (.required [.input])
      | some input =>
        if !(extras ++ p.extras).isEmpty then
          .refused .program (.unrecognized (extras ++ p.extras))
        else
          .run ⟨page = .maps, input, valueOf? .output p.given, isGiven .summary p.given⟩

/-- What a command line asks for. -/
def ofArguments (arguments : List String) : Invocation :=
  match partsOf Page.program.flags arguments with
  | .error e => .refused .program e
  | .ok parts =>
    let front := readFront Page.program.flags parts
    if isGiven .help front.parsed.given then .help .program
    else match front.parsed.error with
      | some e => .refused .program e
      | none =>
        match front.command with
        | none =>
          if front.parsed.extras.isEmpty then .nothing
          else .refused .program (.unrecognized front.parsed.extras)
        | some (name, rest) =>
          match Page.ofCommand? name with
          | none => .refused .program (.unknownCommand name)
          | some page => ofOptions page front.parsed.extras (parse page.flags rest)

end Invocation

end ViewGraph.Cli
