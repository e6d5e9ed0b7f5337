import ViewGraph.Json.Text
import ViewGraph.Number.Decimal
import ViewGraph.Value

/-!
# Reading JSON text

The reader takes the JSON grammar and the three names of numbers that are not finite. A number with
a point or an exponent is a binary64 number, any other is a whole number. If a table
names a member twice, the member keeps its first place and has its last value.

A fault is kept with what was left to read where it was found; its position in the text follows
from that.

* `Json.read`: a whole text.
* `Json.ReadError.message`: the fault in words, with line and column.
-/

namespace ViewGraph.Json

/-- What can be wrong with a text. -/
inductive Fault
  | valueExpected
  | nameExpected
  | colonExpected
  | commaExpected
  | unterminated
  | controlCharacter
  | unknownEscape
  | malformedCode
  | dataBehindEnd
  | byteOrderMark
  /-- A whole number with too many digits. -/
  | tooManyDigits
deriving DecidableEq

/-- A fault, and what was left to read there. -/
structure ReadError where
  fault : Fault
  rest : List Char
deriving DecidableEq

abbrev Reading (α : Type) := Except ReadError α

/-- The blanks of JSON text. -/
def isBlank (c : Char) : Bool := c = ' ' || c = '\t' || c = '\n' || c = '\r'

def skipBlanks (cs : List Char) : List Char := cs.dropWhile isBlank

/-- Drops a word from the start of a text. -/
def dropWord? : List Char → List Char → Option (List Char)
  | [], cs => some cs
  | _ :: _, [] => none
  | w :: word, c :: cs => if w = c then dropWord? word cs else none

/-! ### Strings -/

/-- The character that an escape stands for, and what follows. The backslash is read already. -/
def readEscape (cs : List Char) : Reading (Char × List Char) :=
  match cs with
  | [] => .error ⟨.unterminated, cs⟩
  | c :: rest =>
    if c = 'u' then
      match code? rest with
      | none => .error ⟨.malformedCode, cs⟩
      | some (n, after) =>
        match if isLeading n then dropWord? ['\\', 'u'] after else none with
        | none => .ok (ofUnit n, after)
        | some tail =>
          if tail.length ≤ 4 then .ok (ofUnit n, after)
          else match code? tail with
            | none => .error ⟨.malformedCode, 'u' :: tail⟩
            | some (m, behind) =>
              if isTrailing m then .ok (ofPair n m, behind) else .ok (ofUnit n, after)
    else match shortEscape? c with
      | some d => .ok (d, rest)
      | none => .error ⟨.unknownEscape, '\\' :: cs⟩

/-- The body of a string up to its closing quote, and what follows. A string that does not end is
at fault where it was opened. -/
def readChars (opening : List Char) : Nat → List Char → Reading (List Char × List Char)
  | 0, _ => .error ⟨.unterminated, opening⟩
  | fuel + 1, cs =>
    match cs with
    | [] => .error ⟨.unterminated, opening⟩
    | c :: rest =>
      if c = '"' then .ok ([], rest)
      else if c = '\\' then
        if rest.isEmpty then .error ⟨.unterminated, opening⟩
        else do
          let (d, rest) ← readEscape rest
          let (ds, rest) ← readChars opening fuel rest
          return (d :: ds, rest)
      else if c.toNat < 0x20 then .error ⟨.controlCharacter, cs⟩
      else do
        let (ds, rest) ← readChars opening fuel rest
        return (c :: ds, rest)

/-- A string whose opening quote is read already. -/
def readString (cs : List Char) : Reading (String × List Char) := do
  let (ds, rest) ← readChars ('"' :: cs) (cs.length + 1) cs
  return (String.ofList ds, rest)

/-! ### Numbers -/

/-- The digits of the whole part of a number: a zero, or digits that begin with another one. -/
def wholePart : List Char → List Char × List Char
  | [] => ([], [])
  | c :: rest =>
    if c = '0' then ([c], rest)
    else ((c :: rest).takeWhile Char.isDigit, (c :: rest).dropWhile Char.isDigit)

/-- The digits behind a point, if a point and a digit come next. -/
def fractionPart? : List Char → Option (List Char × List Char)
  | '.' :: rest =>
    let ds := rest.takeWhile Char.isDigit
    if ds.isEmpty then none else some (ds, rest.dropWhile Char.isDigit)
  | _ => none

/-- Digits as an exponent, if there are any. -/
def exponentDigits? (negative : Bool) (cs : List Char) : Option (Int × List Char) :=
  let ds := cs.takeWhile Char.isDigit
  if ds.isEmpty then none
  else
    let n : Int := readDigits ds
    some (if negative then -n else n, cs.dropWhile Char.isDigit)

/-- The exponent, if a mark, an optional sign and a digit come next. -/
def exponentPart? : List Char → Option (Int × List Char)
  | [] => none
  | mark :: rest =>
    if mark = 'e' || mark = 'E' then
      match rest with
      | '-' :: rest => exponentDigits? true rest
      | '+' :: rest => exponentDigits? false rest
      | rest => exponentDigits? false rest
    else none

/-- A number whose sign is read already, if one comes next. -/
def readUnsigned (negative : Bool) (cs : List Char) : Option (Reading (Value × List Char)) :=
  let (whole, rest) := wholePart cs
  if whole.isEmpty then none
  else match fractionPart? rest, exponentPart? ((fractionPart? rest).elim rest (·.2)) with
    | none, none =>
      if maxDigits < whole.length then some (.error ⟨.tooManyDigits, cs⟩)
      else
        let n : Int := readDigits whole
        some (.ok (.int (if negative then -n else n), rest))
    | fraction?, exponent? =>
      let (fraction, rest) := fraction?.getD ([], rest)
      let (exponent, rest) := exponent?.getD (0, rest)
      let x := Binary64.ofDecimal negative (readDigits (whole ++ fraction))
        (exponent - fraction.length)
      some (.ok (.float x, rest))

/-- A number, if one comes next. -/
def readNumber : List Char → Option (Reading (Value × List Char))
  | '-' :: cs => readUnsigned true cs
  | cs => readUnsigned false cs

/-! ### Values -/

/-- The words that stand for a value. -/
def words : List (List Char × Value) :=
  [(['n', 'u', 'l', 'l'], .null), (['t', 'r', 'u', 'e'], .bool true),
   (['f', 'a', 'l', 's', 'e'], .bool false), (['N', 'a', 'N'], .float .nan),
   (['I', 'n', 'f', 'i', 'n', 'i', 't', 'y'], .float (.infinity false)),
   (['-', 'I', 'n', 'f', 'i', 'n', 'i', 't', 'y'], .float (.infinity true))]

/-- A value that has no parts. -/
def readLeaf (cs : List Char) : Reading (Value × List Char) :=
  match words.findSome? fun (word, v) => (dropWord? word cs).map fun rest => (v, rest) with
  | some found => .ok found
  | none => (readNumber cs).getD (.error ⟨.valueExpected, cs⟩)

mutual

/-- The value that comes next, and what follows. -/
def readValue : Nat → List Char → Reading (Value × List Char)
  | 0, cs => .error ⟨.valueExpected, cs⟩
  | fuel + 1, cs =>
    match cs with
    | [] => .error ⟨.valueExpected, cs⟩
    | c :: rest =>
      if c = '"' then do
        let (s, rest) ← readString rest
        return (.str s, rest)
      else if c = '[' then
        match skipBlanks rest with
        | ']' :: rest => .ok (.list [], rest)
        | rest => do
          let (items, rest) ← readItems fuel rest
          return (.list items, rest)
      else if c = '\x7b' then
        match skipBlanks rest with
        | '\x7d' :: rest => .ok (.dict [], rest)
        | rest => do
          let (members, rest) ← readMembers fuel rest
          return (.dict (Table.ofList members), rest)
      else readLeaf cs

/-- The items of a list that is not empty, and what follows its end. -/
def readItems : Nat → List Char → Reading (List Value × List Char)
  | 0, cs => .error ⟨.valueExpected, cs⟩
  | fuel + 1, cs => do
    let (v, rest) ← readValue fuel cs
    match skipBlanks rest with
    | ']' :: rest => return ([v], rest)
    | ',' :: rest =>
      let (vs, rest) ← readItems fuel (skipBlanks rest)
      return (v :: vs, rest)
    | rest => .error ⟨.commaExpected, rest⟩

/-- The members of a table that is not empty, and what follows its end. -/
def readMembers : Nat → List Char → Reading (List (String × Value) × List Char)
  | 0, cs => .error ⟨.nameExpected, cs⟩
  | fuel + 1, cs =>
    match cs with
    | '"' :: rest => do
      let (name, rest) ← readString rest
      match skipBlanks rest with
      | ':' :: rest =>
        let (v, rest) ← readValue fuel (skipBlanks rest)
        match skipBlanks rest with
        | '\x7d' :: rest => return ([(name, v)], rest)
        | ',' :: rest =>
          let (members, rest) ← readMembers fuel (skipBlanks rest)
          return ((name, v) :: members, rest)
        | rest => .error ⟨.commaExpected, rest⟩
      | rest => .error ⟨.colonExpected, rest⟩
    | _ => .error ⟨.nameExpected, cs⟩

end

/-- A whole text as one value. Each step of the reader but the first of a list reads a character,
so twice the length bounds the steps. -/
def read (cs : List Char) : Reading Value :=
  if cs.head? = some (Char.ofNat 0xFEFF) then .error ⟨.byteOrderMark, cs⟩
  else do
    let (v, rest) ← readValue (2 * cs.length + 2) (skipBlanks cs)
    match skipBlanks rest with
    | [] => return v
    | rest => .error ⟨.dataBehindEnd, rest⟩

/-! ### Faults in words -/

/-- What is wrong. -/
def Fault.text : Fault → String
  | .valueExpected => "Expecting value"
  | .nameExpected => "Expecting property name enclosed in double quotes"
  | .colonExpected => "Expecting ':' delimiter"
  | .commaExpected => "Expecting ',' delimiter"
  | .unterminated => "Unterminated string starting at"
  | .controlCharacter => "Invalid control character at"
  | .unknownEscape => "Invalid \\escape"
  | .malformedCode => "Invalid \\uXXXX escape"
  | .dataBehindEnd => "Extra data"
  | .byteOrderMark => "Unexpected UTF-8 BOM (decode using utf-8-sig)"
  | .tooManyDigits => "Exceeds the limit (4300 digits) for integer string conversion"

/-- How many characters of a text were read before the fault. -/
def ReadError.position (text : List Char) (e : ReadError) : Nat := text.length - e.rest.length

/-- The fault in words, with its place in the text. -/
def ReadError.message (text : List Char) (e : ReadError) : String :=
  let position := e.position text
  let before := text.take position
  let line := before.count '\n' + 1
  let column := (before.reverse.takeWhile (· ≠ '\n')).length + 1
  e.fault.text ++ ": line " ++ toString line ++ " column " ++ toString column ++ " (char " ++
    toString position ++ ")"

end ViewGraph.Json
