import ViewGraph.Number.Decimal
import ViewGraph.Text.Blank
import ViewGraph.Value

/-!
# Checked values

Data from outside are checked against the fields of a record. A check does not stop at the first
issue: all issues are reported, in the order of the fields. Where a text can stand for a truth value
or a number, it is read as one.

* `Checked`: a value, or the list of issues; applied side by side, checks collect their issues.
* `Field.check`, `Field.checkOr`: a field of a table, under its external or its internal name.
* `checkText`, `checkBool`, `checkWhole`, `checkNumber`, `checkList`: the values.
-/

namespace ViewGraph

/-- What is wrong with a value. -/
inductive IssueKind
  | missing
  | textExpected
  | listExpected
  | tableExpected
  | recordExpected (name : String)
  | literalExpected (text : String)
  | boolExpected
  | boolUnreadable
  | wholeExpected
  | wholeUnreadable
  | wholeTooLarge
  | numberExpected
  | numberUnreadable
  | fractionGiven
  | notFinite
  | fieldsExpected
  | tagMissing
  | tagUnknown (tag : String) (known : List String)
  | extraGiven
deriving DecidableEq

namespace IssueKind

/-- The code of an issue. -/
def code : IssueKind → String
  | missing => "missing"
  | textExpected => "string_type"
  | listExpected => "list_type"
  | tableExpected => "dict_type"
  | recordExpected _ => "model_type"
  | literalExpected _ => "literal_error"
  | boolExpected => "bool_type"
  | boolUnreadable => "bool_parsing"
  | wholeExpected => "int_type"
  | wholeUnreadable => "int_parsing"
  | wholeTooLarge => "int_parsing_size"
  | numberExpected => "float_type"
  | numberUnreadable => "float_parsing"
  | fractionGiven => "int_from_float"
  | notFinite => "finite_number"
  | fieldsExpected => "model_attributes_type"
  | tagMissing => "union_tag_not_found"
  | tagUnknown .. => "union_tag_invalid"
  | extraGiven => "extra_forbidden"

/-- An issue in words. -/
def message : IssueKind → String
  | missing => "Field required"
  | textExpected => "Input should be a valid string"
  | listExpected => "Input should be a valid list"
  | tableExpected => "Input should be a valid dictionary"
  | recordExpected name => "Input should be a valid dictionary or instance of " ++ name
  | literalExpected text => "Input should be '" ++ text ++ "'"
  | boolExpected => "Input should be a valid boolean"
  | boolUnreadable => "Input should be a valid boolean, unable to interpret input"
  | wholeExpected => "Input should be a valid integer"
  | wholeUnreadable => "Input should be a valid integer, unable to parse string as an integer"
  | wholeTooLarge => "Unable to parse input string as an integer, exceeded maximum size"
  | numberExpected => "Input should be a valid number"
  | numberUnreadable => "Input should be a valid number, unable to parse string as a number"
  | fractionGiven => "Input should be a valid integer, got a number with a fractional part"
  | notFinite => "Input should be a finite number"
  | fieldsExpected => "Input should be a valid dictionary or object to extract fields from"
  | tagMissing => "Unable to extract tag using discriminator 'type'"
  | tagUnknown tag known =>
    "Input tag '" ++ tag ++ "' found using 'type' does not match any of the expected tags: " ++
      ", ".intercalate (known.map fun t => "'" ++ t ++ "'")
  | extraGiven => "Extra inputs are not permitted"

end IssueKind

/-- An issue, and the way to the value from outside in. -/
structure Issue where
  kind : IssueKind
  path : List String
deriving DecidableEq

/-- A checked value, or all issues of the value that was given. -/
inductive Checked (α : Type)
  | valid (value : α)
  | invalid (issues : List Issue)

namespace Checked

variable {α β : Type}

def map (f : α → β) : Checked α → Checked β
  | valid a => valid (f a)
  | invalid issues => invalid issues

/-- Two checks side by side: the issues of both are reported. -/
def both (f : Checked (α → β)) (a : Checked α) : Checked β :=
  match f, a with
  | valid f, valid a => valid (f a)
  | valid _, invalid issues => invalid issues
  | invalid issues, valid _ => invalid issues
  | invalid first, invalid second => invalid (first ++ second)

instance : Applicative Checked where
  pure := valid
  seq f a := both f (a ())

/-- Checks side by side succeed if each of them does. -/
theorem seq_eq_valid {f : Checked (α → β)} {a : Checked α} {b : β} :
    f <*> a = valid b ↔ ∃ f' a', f = valid f' ∧ a = valid a' ∧ f' a' = b := by
  cases f <;> cases a <;> simp [Seq.seq, both]

/-- An issue of the value itself. -/
def fail (kind : IssueKind) : Checked α := invalid [⟨kind, []⟩]

/-- The same check of a part: its issues lie on a longer way. -/
def within (step : String) : Checked α → Checked α
  | valid a => valid a
  | invalid issues => invalid (issues.map fun i => { i with path := step :: i.path })

def toExcept : Checked α → Except (List Issue) α
  | valid a => .ok a
  | invalid issues => .error issues

/-- Checks the items of a list side by side, the first of them at this index. -/
def eachFrom (check : Value → Checked α) : Nat → List Value → Checked (List α)
  | _, [] => valid []
  | i, v :: rest =>
    both (map List.cons (within (toString i) (check v))) (eachFrom check (i + 1) rest)

end Checked

open Checked

/-! ### Values -/

def checkText : Value → Checked String
  | .str s => valid s
  | _ => fail .textExpected

/-- An optional value: null stands for none. -/
def checkOption {α : Type} (check : Value → Checked α) : Value → Checked (Option α)
  | .null => valid none
  | v => map some (check v)

def checkList {α : Type} (check : Value → Checked α) : Value → Checked (List α)
  | .list items => eachFrom check 0 items
  | .tuple items => eachFrom check 0 items
  | _ => fail .listExpected

def checkTable : Value → Checked (List (String × Value))
  | .dict members => valid members
  | _ => fail .tableExpected

/-- The words for true, and those for false. -/
def trueWords : List String := ["1", "on", "t", "true", "y", "yes"]

def falseWords : List String := ["0", "off", "f", "false", "n", "no"]

/-- A truth value in words, in any letter case. -/
def readBool? (s : String) : Option Bool :=
  let word := s.map Char.toLower
  if trueWords.contains word then some true
  else if falseWords.contains word then some false
  else none

/-- The bound of a 64-bit whole number. -/
def wordBound : Int := (Nat.pow 2 63 : Nat)

/-- A whole number as a truth value. -/
def boolOfWhole (n : Int) : Checked Bool :=
  if n = 0 then valid false else if n = 1 then valid true else fail .boolUnreadable

/-- A number as a truth value, if it is whole and has 64 bits. -/
def boolOfReal (x : Binary64) : Checked Bool :=
  match x.toInt? with
  | some n => if -wordBound ≤ n && n ≤ wordBound then boolOfWhole n else fail .boolExpected
  | none => fail .boolExpected

def checkBool : Value → Checked Bool
  | .bool b => valid b
  | .str s => match readBool? s with
    | some b => valid b
    | none => fail .boolUnreadable
  | .int n =>
    if -wordBound ≤ n && n < wordBound then boolOfWhole n
    else boolOfReal (Binary64.ofRatio (n < 0) n.natAbs 1)
  | .float x => boolOfReal x
  | _ => fail .boolExpected

/-- Digits with single underscores between them. -/
def readGrouped? (cs : List Char) : Option Nat :=
  let grouped := cs.all (fun c => c.isDigit || c = '_') && cs.head? ≠ some '_' &&
    cs.getLast? ≠ some '_' && !cs.isEmpty &&
    (cs.zip (cs.drop 1)).all (fun (c, d) => c ≠ '_' || d ≠ '_')
  if grouped then some (readDigits (cs.filter (· ≠ '_'))) else none

/-- A whole number without its sign; a point may follow with zeros behind it. -/
def readUnsignedWhole? (cs : List Char) : Option Nat :=
  match cs.dropWhile (· ≠ '.') with
  | [] => readGrouped? cs
  | _ :: zeros =>
    if zeros.isEmpty || !zeros.all (· = '0') then none
    else readGrouped? (cs.takeWhile (· ≠ '.'))

/-- A text as a whole number. -/
def readWhole? (s : String) : Option Int :=
  match trim isWhiteSpace s.toList with
  | '-' :: cs => (readUnsignedWhole? cs).map fun n => -(n : Int)
  | '+' :: cs => (readUnsignedWhole? cs).map fun n => (n : Int)
  | cs => (readUnsignedWhole? cs).map fun n => (n : Int)

/-- The longest text that is read as a whole number. -/
def maxWholeText : Nat := 4300

def checkWhole : Value → Checked Int
  | .bool b => valid (if b then 1 else 0)
  | .int n => valid n
  | .str s =>
    if maxWholeText < (trim isWhiteSpace s.toList).length then fail .wholeTooLarge
    else match readWhole? s with
      | some n => valid n
      | none => fail .wholeUnreadable
  | .float x =>
    if !x.isFinite then fail .notFinite
    else match x.toInt? with
      | some n => if -wordBound ≤ n && n ≤ wordBound then valid n else fail .wholeTooLarge
      | none => fail .fractionGiven
  | _ => fail .wholeExpected

/-- Single underscores may stand inside a number. -/
def withoutUnderscores? (cs : List Char) : Option (List Char) :=
  if cs.head? = some '_' || cs.getLast? = some '_' ||
      (cs.zip (cs.drop 1)).any (fun (c, d) => c = '_' && d = '_') then none
  else some (cs.filter (· ≠ '_'))

/-- A text as a number. -/
def readReal? (s : String) : Option Binary64 :=
  let cs := trim isWhiteSpace s.toList
  match Binary64.read? cs with
  | some x => some x
  | none => (withoutUnderscores? cs).bind Binary64.read?

def checkReal : Value → Checked Binary64
  | .bool b => valid (Binary64.ofRatio false (if b then 1 else 0) 1)
  | .int n => valid (Binary64.ofRatio (n < 0) n.natAbs 1)
  | .float x => valid x
  | .str s => match readReal? s with
    | some x => valid x
    | none => fail .numberUnreadable
  | _ => fail .numberExpected

/-! ### Fields -/

/-- A field of a record: its name in data for the outside, and its name inside. -/
structure Field where
  external : String
  name : String

namespace Field

/-- A field whose two names are one. -/
def plain (name : String) : Field := ⟨name, name⟩

/-- The value of a field, and the name it was given by. -/
def find? (field : Field) (members : List (String × Value)) : Option (String × Value) :=
  match Table.find? field.external members with
  | some v => some (field.external, v)
  | none => (Table.find? field.name members).map fun v => (field.name, v)

/-- A field that has to be given. -/
def check {α : Type} (field : Field) (check : Value → Checked α)
    (members : List (String × Value)) : Checked α :=
  match field.find? members with
  | some (given, v) => within given (check v)
  | none => within field.external (fail .missing)

/-- A field with a default. -/
def checkOr {α : Type} (field : Field) (default : α) (check : Value → Checked α)
    (members : List (String × Value)) : Checked α :=
  match field.find? members with
  | some (given, v) => within given (check v)
  | none => valid default

end Field

end ViewGraph
