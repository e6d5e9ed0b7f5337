import ViewGraph.Table
import ViewGraph.Text.Blank

/-!
# Environment files

A line of an environment file gives a name a value: bare up to a comment, or in quotes, in which a
value may go on over several lines. A value may refer to names that were given before it, in the
file or in the environment. A line that is malformed is dropped.

* `EnvironmentFile.bindings`: the names of a file with their values as written.
* `EnvironmentFile.expand`: a value with its references replaced.
* `EnvironmentFile.read`: the values of a file. A bare name has none.
-/

namespace ViewGraph.EnvironmentFile

/-- A blank that does not end a line. -/
def isInlineBlank (c : Char) : Bool := isBlank c && c ≠ '\n' && c ≠ '\r'

def isLineEnd (c : Char) : Bool := c = '\n' || c = '\r'

def skipInline (cs : List Char) : List Char := cs.dropWhile isInlineBlank

/-- What follows the line that a text begins with. -/
def dropLine (cs : List Char) : List Char := (cs.dropWhile fun c => !isLineEnd c).drop 1

/-! ### Quoted values -/

/-- A quoted text up to the first quote that no backslash stands before. The opening quote is read
already; `previous` is the character before the text. -/
def untilQuote? (quote : Char) : Char → List Char → Option (List Char × List Char)
  | _, [] => none
  | previous, c :: rest =>
    if c = quote && previous ≠ '\\' then some ([], rest)
    else (untilQuote? quote c rest).map fun (text, after) => (c :: text, after)

/-- A text up to the last quote in it. -/
def untilLastQuote? (quote : Char) : List Char → Option (List Char × List Char)
  | [] => none
  | c :: rest =>
    match untilLastQuote? quote rest with
    | some (text, after) => some (c :: text, after)
    | none => if c = quote then some ([], rest) else none

/-- The text in quotes, and what follows. A quote behind a backslash ends the text only if no other
quote does. -/
def quotedText? (quote : Char) (cs : List Char) : Option (List Char × List Char) :=
  match untilQuote? quote quote cs with
  | some found => some found
  | none => untilLastQuote? quote cs

/-- The character that an escape stands for in single quotes. -/
def singleEscape? (c : Char) : Option Char :=
  if c = '\\' || c = '\'' then some c else none

/-- The character that an escape stands for in double quotes. -/
def doubleEscape? (c : Char) : Option Char :=
  match c with
  | '\\' | '\'' | '"' => some c
  | 'a' => some '\x07'
  | 'b' => some '\x08'
  | 'f' => some '\x0c'
  | 'n' => some '\n'
  | 'r' => some '\r'
  | 't' => some '\t'
  | 'v' => some '\x0b'
  | _ => none

/-- A text with its escapes replaced. -/
def unescape (escape? : Char → Option Char) : List Char → List Char
  | [] => []
  | '\\' :: c :: rest =>
    match escape? c with
    | some d => d :: unescape escape? rest
    | none => '\\' :: unescape escape? (c :: rest)
  | c :: rest => c :: unescape escape? rest

/-! ### Bindings -/

/-- Does a comment begin behind blanks here? -/
def beginsComment (cs : List Char) : Bool :=
  match cs with
  | [] => false
  | c :: rest => isBlank c && (rest.dropWhile isBlank).head? = some '#'

/-- A bare value up to its comment. -/
def beforeComment : List Char → List Char
  | [] => []
  | c :: rest => if beginsComment (c :: rest) then [] else c :: beforeComment rest

/-- A value, and what follows it on its line. -/
def readValue (cs : List Char) : Option (List Char × List Char) :=
  match cs with
  | '\'' :: rest => (quotedText? '\'' rest).map fun (t, after) => (unescape singleEscape? t, after)
  | '"' :: rest => (quotedText? '"' rest).map fun (t, after) => (unescape doubleEscape? t, after)
  | cs =>
    let line := cs.takeWhile fun c => !isLineEnd c
    some (trimEnd isBlank (beforeComment line), cs.dropWhile fun c => !isLineEnd c)

/-- Drops the word `export` and the blanks behind it. -/
def skipExport : List Char → List Char
  | 'e' :: 'x' :: 'p' :: 'o' :: 'r' :: 't' :: rest =>
    if (rest.head?.map isInlineBlank).getD false then skipInline rest
    else 'e' :: 'x' :: 'p' :: 'o' :: 'r' :: 't' :: rest
  | cs => cs

/-- A name, bare or in single quotes, and what follows. A comment has no name. -/
def readName (cs : List Char) : Option (Option (List Char) × List Char) :=
  match cs with
  | '#' :: _ => some (none, cs)
  | '\'' :: rest =>
    let name := rest.takeWhile (· ≠ '\'')
    match rest.dropWhile (· ≠ '\'') with
    | _ :: after => if name.isEmpty then none else some (some name, after)
    | [] => none
  | cs =>
    let inName (c : Char) : Bool := c ≠ '=' && c ≠ '#' && !isBlank c
    let name := cs.takeWhile inName
    if name.isEmpty then none else some (some name, cs.dropWhile inName)

/-- What follows the rest of a line that holds blanks and a comment at most. -/
def endLine? (cs : List Char) : Option (List Char) :=
  let cs := match skipInline cs with
    | '#' :: rest => rest.dropWhile fun c => !isLineEnd c
    | _ => cs
  match skipInline cs with
  | [] => some []
  | '\r' :: '\n' :: rest => some rest
  | c :: rest => if isLineEnd c then some rest else none

/-- A name with its value, as they are written. -/
structure Binding where
  name : List Char
  value : Option (List Char)
deriving DecidableEq

/-- The binding that a text begins with, and what follows. Where a line is malformed, the rest of it
is given back. -/
def readBinding (cs : List Char) : Except (List Char) (Option Binding × List Char) := do
  let cs := skipExport cs
  let some (name, cs) := readName cs | .error cs
  let (value, cs) ← match skipInline cs with
    | '=' :: rest =>
      let rest := skipInline rest
      match readValue rest with
      | some (value, after) => .ok (some value, after)
      | none => .error rest
    | rest => .ok (none, rest)
  match endLine? cs with
  | some rest => return (name.map fun n => ⟨n, value⟩, rest)
  | none => .error cs

/-- The bindings of a text; each reads at least one character, which `fuel` counts. -/
def bindingsFrom : Nat → List Char → List Binding
  | 0, _ => []
  | fuel + 1, cs =>
    match cs.dropWhile isBlank with
    | [] => []
    | c :: rest =>
      match readBinding (c :: rest) with
      | .ok (binding, after) => binding.toList ++ bindingsFrom fuel after
      | .error rest => bindingsFrom fuel (dropLine rest)

def bindings (cs : List Char) : List Binding := bindingsFrom cs.length cs

/-! ### References -/

/-- A reference to a name, with a default. -/
structure Reference where
  name : List Char
  default : List Char

/-- The reference that a text begins with, behind its dollar sign and brace, and what follows. -/
def reference? (cs : List Char) : Option (Reference × List Char) :=
  let name := cs.takeWhile fun c => c ≠ '\x7d' && c ≠ ':'
  match cs.dropWhile fun c => c ≠ '\x7d' && c ≠ ':' with
  | '\x7d' :: rest => some (⟨name, []⟩, rest)
  | ':' :: '-' :: rest =>
    match rest.dropWhile (· ≠ '\x7d') with
    | _ :: after => some (⟨name, rest.takeWhile (· ≠ '\x7d')⟩, after)
    | [] => none
  | _ => none

/-- A value with its references replaced; `fuel` bounds the number of characters. -/
def expandFrom (lookup : List Char → Option (List Char)) : Nat → List Char → List Char
  | 0, _ => []
  | _, [] => []
  | fuel + 1, c :: cs =>
    match if c = '$' && cs.head? = some '\x7b' then reference? (cs.drop 1) else none with
    | some (r, rest) => (lookup r.name).getD r.default ++ expandFrom lookup fuel rest
    | none => c :: expandFrom lookup fuel cs

def expand (lookup : List Char → Option (List Char)) (cs : List Char) : List Char :=
  expandFrom lookup cs.length cs

/-- What a name stands for: what the file gave it before, or else what the environment gives it. A
bare name stands for the empty text. -/
def valueOf (given : List (String × Option String)) (environment : List (String × String))
    (name : List Char) : Option (List Char) :=
  match Table.find? (String.ofList name) given with
  | some value => some ((value.getD "").toList)
  | none => (Table.find? (String.ofList name) environment).map String.toList

/-- The values of a file. -/
def read (environment : List (String × String)) (cs : List Char) : List (String × Option String) :=
  (bindings cs).foldl
    (fun given b =>
      let value := b.value.map fun v => String.ofList (expand (valueOf given environment) v)
      Table.insert (String.ofList b.name) value given)
    []

end ViewGraph.EnvironmentFile
