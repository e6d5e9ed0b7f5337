import ViewGraph.Value.Display

/-!
# Messages with arguments

A message may hold directives, each a percent sign, perhaps the name of an argument in parentheses,
flags, a width, a precision and a letter. A directive stands for an argument in the form that it
asks for.

* `Message.substitute`: a message with its arguments in place.
* `Directive.lay`: a text under the width, the sign and the fill of a directive.
-/

namespace ViewGraph

/-- Why a message does not take its arguments. -/
inductive MessageError
  /-- An argument of the wrong kind, one too few or one too many. -/
  | mismatch
  /-- A directive that is not complete or that is not known. -/
  | malformed
  /-- A named argument that is not there. -/
  | unnamed
  /-- A number without a character or without a whole part. -/
  | outOfRange
  /-- A whole number with too many digits. -/
  | tooManyDigits
deriving DecidableEq

/-- A directive after its percent sign. -/
structure Directive where
  left : Bool := false
  plus : Bool := false
  blank : Bool := false
  alternate : Bool := false
  zero : Bool := false
  width : Nat := 0
  precision : Option Nat := none
  letter : Char := 's'

/-- The arguments that were not used yet. Arguments may also be named. -/
structure Arguments where
  named : Option (List (String × Value))
  pending : List Value

namespace Arguments

/-- Arguments in order. A single table that is not empty gives named arguments. -/
def ofList : List Value → Arguments
  | [.dict (m :: ms)] => ⟨some (m :: ms), [.dict (m :: ms)]⟩
  | values => ⟨none, values⟩

def next (args : Arguments) : Except MessageError (Value × Arguments) :=
  match args.pending with
  | [] => .error .mismatch
  | v :: rest => .ok (v, { args with pending := rest })

def select (args : Arguments) (name : String) : Except MessageError Arguments :=
  match args.named with
  | none => .error .mismatch
  | some members =>
    match Table.find? name members with
    | some v => .ok { args with pending := [v] }
    | none => .error .unnamed

end Arguments

namespace Directive

/-! ### Numbers -/

/-- Digits behind a sign, at least as many as the precision asks for. -/
def signedDigits (n : Int) (precision : Option Nat) (base : List Char) (digits : List Char) :
    List Char :=
  (if n < 0 then ['-'] else []) ++ base ++
    List.replicate (precision.getD 0 - digits.length) '0' ++ digits

/-- What is shown, in a message. -/
def ofShown {α : Type} : Shown α → Except MessageError α
  | .ok a => .ok a
  | .error _ => .error .tooManyDigits

/-- A whole number in the form that a letter asks for. Only decimal digits are bounded in number. -/
def wholeText (d : Directive) (n : Int) : Except MessageError (List Char) :=
  let base (mark : Char) : List Char := if d.alternate then ['0', mark] else []
  match d.letter with
  | 'o' => .ok (signedDigits n d.precision (base 'o') (Nat.toDigits 8 n.natAbs))
  | 'x' => .ok (signedDigits n d.precision (base 'x') (Nat.toDigits 16 n.natAbs))
  | 'X' =>
    .ok (signedDigits n d.precision (base 'X') ((Nat.toDigits 16 n.natAbs).map Char.toUpper))
  | _ => do
    let digits ← ofShown (showInt n.natAbs)
    return signedDigits n d.precision [] digits

/-- A finite number without its sign. -/
def sizeText (d : Directive) (size : Nat) : List Char :=
  let places := d.precision.getD 6
  match d.letter with
  | 'e' => Binary64.scientific size places 'e' d.alternate
  | 'E' => Binary64.scientific size places 'E' d.alternate
  | 'g' => Binary64.general size places 'e' d.alternate
  | 'G' => Binary64.general size places 'E' d.alternate
  | _ => Binary64.fixed size places d.alternate

/-- A number in the form that a letter asks for. -/
def realText (d : Directive) : Binary64 → List Char
  | .finite negative place =>
    (if negative then ['-'] else []) ++ d.sizeText (Binary64.magnitude place)
  | x => if d.letter.isUpper then x.text.map Char.toUpper else x.text

/-! ### Conversion -/

/-- An argument as a whole number; a fraction is dropped. -/
def whole (v : Value) : Except MessageError Int :=
  match v, v.whole? with
  | _, some n => .ok n
  | .float x, none =>
    match x, x.truncate? with
    | _, some n => .ok n
    | .nan, none => .error .malformed
    | _, none => .error .outOfRange
  | _, none => .error .mismatch

/-- An argument as a number. -/
def real (v : Value) : Except MessageError Binary64 :=
  match v, v.whole? with
  | .float x, _ => .ok x
  | _, some n =>
    let x := Binary64.ofRatio (n < 0) n.natAbs 1
    if x.isFinite then .ok x else .error .outOfRange
  | _, none => .error .mismatch

/-- An argument as one character. -/
def character (v : Value) : Except MessageError (List Char) :=
  match v, v.whole? with
  | .str s, _ => if s.length = 1 then .ok s.toList else .error .mismatch
  | _, some n =>
    if n < 0 || 0x110000 ≤ n then .error .outOfRange else .ok [Char.ofNat n.toNat]
  | _, none => .error .mismatch

/-- An argument in the form that a letter asks for, and whether it is a number. -/
def convert (d : Directive) (element : Handle → Shown (List Char)) (v : Value) :
    Except MessageError (List Char × Bool) :=
  let cut (text : List Char) : List Char :=
    match d.precision with
    | some n => text.take n
    | none => text
  match d.letter with
  | 's' => do return (cut (← ofShown (v.display element)), false)
  | 'r' => do return (cut (← ofShown (v.inner element)), false)
  | 'a' => do return (cut (asciiOnly (← ofShown (v.inner element))), false)
  | 'c' => (character v).map fun text => (text, false)
  | 'd' | 'i' | 'u' => do return (← d.wholeText (← whole v), true)
  | 'o' | 'x' | 'X' =>
    match v.whole? with
    | some n => do return (← d.wholeText n, true)
    | none => .error .mismatch
  | 'e' | 'E' | 'f' | 'F' | 'g' | 'G' => (real v).map fun x => (d.realText x, true)
  | _ => .error .malformed

/-! ### Layout -/

/-- Splits a number into its sign, the mark of its base and its digits. -/
def signParts (d : Directive) (text : List Char) : List Char × List Char × List Char :=
  let (sign, rest) := match text with
    | '-' :: rest => (['-'], rest)
    | '+' :: rest => (['+'], rest)
    | rest => (if d.plus then ['+'] else if d.blank then [' '] else [], rest)
  if d.alternate && (d.letter = 'x' || d.letter = 'X' || d.letter = 'o') then
    (sign, rest.take 2, rest.drop 2)
  else (sign, [], rest)

/-- A text under the width, the sign and the fill of a directive. -/
def lay (d : Directive) (text : List Char) (number : Bool) : List Char :=
  let (sign, base, body) := if number then d.signParts text else ([], [], text)
  let lacking := d.width - (sign.length + base.length + body.length)
  if d.left then sign ++ base ++ body ++ List.replicate lacking ' '
  else if d.zero && number then sign ++ base ++ List.replicate lacking '0' ++ body
  else List.replicate lacking ' ' ++ sign ++ base ++ body

/-! ### Reading a directive -/

/-- The name in parentheses, whose opening one is read already. Parentheses in it are balanced. -/
def readName : Nat → List Char → Except MessageError (List Char × List Char)
  | _, [] => .error .malformed
  | depth, c :: rest =>
    if c = ')' then
      match depth with
      | 0 => .ok ([], rest)
      | depth + 1 => do
        let (name, rest) ← readName depth rest
        return (c :: name, rest)
    else do
      let (name, rest) ← readName (if c = '(' then depth + 1 else depth) rest
      return (c :: name, rest)

def readFlags (d : Directive) : List Char → Directive × List Char
  | '-' :: rest => readFlags { d with left := true } rest
  | '+' :: rest => readFlags { d with plus := true } rest
  | ' ' :: rest => readFlags { d with blank := true } rest
  | '#' :: rest => readFlags { d with alternate := true } rest
  | '0' :: rest => readFlags { d with zero := true } rest
  | rest => (d, rest)

/-- The bound of a width, and that of a precision. -/
def widthBound : Nat := Nat.pow 2 63

def precisionBound : Nat := Nat.pow 2 31

/-- A count below a bound: digits, or a star for the next argument. -/
def readCount (bound : Nat) (args : Arguments) (cs : List Char) :
    Except MessageError (Int × Arguments × List Char) :=
  match cs with
  | '*' :: rest => do
    let (v, args) ← args.next
    match v.whole? with
    | some n => if -bound ≤ n && n < bound then return (n, args, rest) else .error .outOfRange
    | none => .error .mismatch
  | cs =>
    let n := readDigits (cs.takeWhile Char.isDigit)
    if n < bound then .ok (n, args, cs.dropWhile Char.isDigit) else .error .malformed

/-- A directive after its percent sign and the name, with the arguments it leaves. -/
def read (args : Arguments) (cs : List Char) :
    Except MessageError (Directive × Arguments × List Char) := do
  let (d, cs) := readFlags {} cs
  let (width, args, cs) ← readCount widthBound args cs
  let d := { d with width := width.natAbs, left := d.left || width < 0 }
  let (precision, args, cs) ← match cs with
    | '.' :: cs => do
      let (n, args, cs) ← readCount precisionBound args cs
      pure (some n.toNat, args, cs)
    | cs => pure (none, args, cs)
  let cs := match cs with
    | 'h' :: cs | 'l' :: cs | 'L' :: cs => cs
    | cs => cs
  match cs with
  | [] => .error .malformed
  | letter :: cs => return ({ d with precision := precision, letter := letter }, args, cs)

end Directive

namespace Message

/-- Selects the named argument of a directive, if it names one. -/
def selectName (args : Arguments) (cs : List Char) :
    Except MessageError (Arguments × List Char) :=
  match cs with
  | '(' :: rest =>
    if args.named.isNone then .error .mismatch
    else do
      let (name, rest) ← Directive.readName 0 rest
      return (← args.select (String.ofList name), rest)
  | cs => .ok (args, cs)

/-- A message with its arguments in place; two percent signs stand for one. `fuel` bounds the number
of characters. -/
def substituteFrom (element : Handle → Shown (List Char)) :
    Nat → Arguments → List Char → Except MessageError (List Char)
  | 0, _, _ => .ok []
  | _, args, [] => if args.named.isNone && !args.pending.isEmpty then .error .mismatch else .ok []
  | fuel + 1, args, '%' :: '%' :: cs => do
    return '%' :: (← substituteFrom element fuel args cs)
  | fuel + 1, args, '%' :: cs => do
    let (args, cs) ← selectName args cs
    let (d, args, cs) ← Directive.read args cs
    let (v, args) ← args.next
    let (text, number) ← d.convert element v
    return d.lay text number ++ (← substituteFrom element fuel args cs)
  | fuel + 1, args, c :: cs => do
    return c :: (← substituteFrom element fuel args cs)

/-- A message with its arguments in place. A message without arguments is left as it is. -/
def substitute (element : Handle → Shown (List Char)) (message : List Char) (args : List Value) :
    Except MessageError (List Char) :=
  if args.isEmpty then .ok message
  else substituteFrom element (message.length + 1) (.ofList args) message

end Message

end ViewGraph
