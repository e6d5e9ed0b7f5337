import ViewGraph.Number.Binary64

/-!
# Decimal numerals

Reading and writing numbers as decimal text. A whole number may have so many digits as text, and one
with more has no text.

* `showInt`: the text of a whole number, and `showInt_of_lt`, `showInt_of_le`: when it has one.
* `Shown`: what is shown, unless a whole number in it has too many digits.
* `Numeral.read?`: the permissive numeral grammar: digits with an optional point among, before or
  after them, and an optional exponent.
* `Binary64.read?`: a numeral, or a name of infinity or NaN, with an optional sign.
* `Binary64.shortest`: the fewest digits that read back, and of those the nearest.
* `Binary64.text`: shortest digits, positional from `1e-4` up to `1e16`, always with a point or an
  exponent.
* `Binary64.fixed`, `Binary64.scientific`, `Binary64.general`: a requested count of places.
-/

namespace ViewGraph

/-- The value of a decimal digit. -/
def digitValue (c : Char) : Nat := c.toNat - '0'.toNat

/-- The natural number that a run of decimal digits denotes. -/
def readDigits (cs : List Char) : Nat := cs.foldl (fun n c => 10 * n + digitValue c) 0

/-- A run of decimal digits, written. -/
def writeNat (n : Nat) : List Char := Nat.toDigits 10 n

/-- A whole number, written with a sign if it is negative. -/
def writeInt : Int → List Char
  | .ofNat n => writeNat n
  | .negSucc n => '-' :: writeNat (n + 1)

/-- The most digits that the text of a whole number may have. -/
def maxDigits : Nat := 4300

/-- A whole number has too many digits to be shown. -/
structure TooManyDigits where
deriving DecidableEq

/-- What is shown, unless a whole number in it has too many digits. -/
abbrev Shown (α : Type) := Except TooManyDigits α

/-- The text of a whole number. -/
def showInt (n : Int) : Shown (List Char) :=
  if (writeNat n.natAbs).length ≤ maxDigits then .ok (writeInt n) else .error {}

theorem length_writeNat_le_iff {n k : Nat} (hk : 0 < k) : (writeNat n).length ≤ k ↔ n < Nat.pow 10 k :=
  Nat.length_toDigits_le_iff (by decide) hk

theorem showInt_of_lt {n : Int} (h : n.natAbs < Nat.pow 10 maxDigits) : showInt n = .ok (writeInt n) :=
  if_pos ((length_writeNat_le_iff (by decide)).mpr h)

theorem showInt_of_le {n : Int} (h : Nat.pow 10 maxDigits ≤ n.natAbs) : showInt n = .error {} :=
  if_neg fun hlen => Nat.not_lt.mpr h ((length_writeNat_le_iff (by decide)).mp hlen)

/-- An unsigned numeral: it denotes `digits * 10 ^ exponent`. -/
structure Numeral where
  digits : Nat
  exponent : Int
deriving DecidableEq

namespace Numeral

/-- The exponent part of a numeral: nothing, or a mark, an optional sign and digits. -/
def readExponent? : List Char → Option Int
  | [] => some 0
  | mark :: rest =>
    if mark = 'e' || mark = 'E' then
      match rest with
      | '-' :: ds =>
        if !ds.isEmpty && ds.all Char.isDigit then some (-(readDigits ds : Int)) else none
      | '+' :: ds => if !ds.isEmpty && ds.all Char.isDigit then some (readDigits ds) else none
      | ds => if !ds.isEmpty && ds.all Char.isDigit then some (readDigits ds) else none
    else none

/-- A whole text as a numeral. A digit must stand before or after the point. -/
def read? (cs : List Char) : Option Numeral :=
  let whole := cs.takeWhile Char.isDigit
  let rest := cs.dropWhile Char.isDigit
  let (fraction, rest) := match rest with
    | '.' :: tail => (tail.takeWhile Char.isDigit, tail.dropWhile Char.isDigit)
    | tail => ([], tail)
  if whole.isEmpty && fraction.isEmpty then none
  else (readExponent? rest).map fun e => ⟨readDigits (whole ++ fraction), e - fraction.length⟩

end Numeral

namespace Binary64

/-- A number without sign, from a numeral or from a name of infinity or NaN in any letter case. -/
def readUnsigned? (negative : Bool) (cs : List Char) : Option Binary64 :=
  let word := String.ofList (cs.map Char.toLower)
  if word = "nan" then some .nan
  else if word = "inf" || word = "infinity" then some (.infinity negative)
  else (Numeral.read? cs).map fun n => ofDecimal negative n.digits n.exponent

/-- A whole text as a number with an optional sign. -/
def read? : List Char → Option Binary64
  | '-' :: cs => readUnsigned? true cs
  | '+' :: cs => readUnsigned? false cs
  | cs => readUnsigned? false cs

/-! ### Decimal digits of a finite number -/

/-- The power of ten of the leading digit of a nonzero size given in units. -/
def leadingPower (size : Nat) : Int :=
  (digitCount (size * Nat.pow 10 324 / unitsPerOne) : Int) - 325

/-- A size given in units, as a quotient counted in steps of `10 ^ step`. -/
def inSteps (size : Nat) (step : Int) : Nat × Nat :=
  if 0 ≤ step then (size, unitsPerOne * Nat.pow 10 step.toNat)
  else (size * Nat.pow 10 (-step).toNat, unitsPerOne)

/-- Does `digits * 10 ^ exponent` read back as this place? -/
def readsBack (place digits : Nat) (exponent : Int) : Bool :=
  if 0 ≤ exponent then nearest (digits * Nat.pow 10 exponent.toNat) 1 == place
  else nearest digits (Nat.pow 10 (-exponent).toNat) == place

/-- The decimal with `count` digits that reads back as this place, if one of the two neighbours of
the place on that decimal grid does; of both the nearer, and of equally near ones the even. -/
def onGrid? (place count : Nat) : Option Numeral :=
  let size := magnitude place
  let step := leadingPower size - count + 1
  let (num, den) := inSteps size step
  let below := num / den
  let near := roundDiv num den
  let far := if near = below then below + 1 else below
  if readsBack place near step then some ⟨near, step⟩
  else if readsBack place far step then some ⟨far, step⟩
  else none

/-- Moves trailing zeros of the digits into the exponent; `fuel` bounds their number. -/
def dropZeros : Nat → Numeral → Numeral
  | 0, n => n
  | fuel + 1, n =>
    if n.digits % 10 = 0 && n.digits ≠ 0 then dropZeros fuel ⟨n.digits / 10, n.exponent + 1⟩ else n

/-- The fewest digits that read back as this place, and of those the nearest. -/
def shortest (place : Nat) : Numeral :=
  if place = 0 then ⟨0, 0⟩
  else
    let found := (List.range 17).findSome? fun i => onGrid? place (i + 1)
    dropZeros 18 (found.getD ⟨0, 0⟩)

/-! ### Layouts -/

/-- Digits in front of and behind the point; `point` counts the digits in front of it. -/
def positional (digits : List Char) (point : Int) : List Char × List Char :=
  if point ≤ 0 then (['0'], List.replicate (-point).toNat '0' ++ digits)
  else
    let n := point.toNat
    (digits.take n ++ List.replicate (n - digits.length) '0', digits.drop n)

/-- An exponent: its sign and at least two digits. -/
def exponentText (e : Int) : List Char :=
  let ds := writeNat e.natAbs
  (if e < 0 then '-' else '+') :: (if ds.length < 2 then '0' :: ds else ds)

/-- Unsigned text of a place: positional when the leading digit stands for `1e-4` up to `1e15`,
otherwise one digit, the others behind a point, and an exponent. -/
def placeText (place : Nat) : List Char :=
  let n := shortest place
  let ds := writeNat n.digits
  let point := n.exponent + ds.length
  if -4 < point && point ≤ 16 then
    let (front, back) := positional ds point
    front ++ '.' :: (if back.isEmpty then ['0'] else back)
  else
    let front := ds.take 1
    let back := ds.drop 1
    front ++ (if back.isEmpty then [] else '.' :: back) ++ 'e' :: exponentText (point - 1)

/-- The text of a number. -/
def text : Binary64 → List Char
  | .nan => ['n', 'a', 'n']
  | .infinity negative => (if negative then ['-'] else []) ++ ['i', 'n', 'f']
  | .finite negative place => (if negative then ['-'] else []) ++ placeText place

/-! ### A requested count of places -/

/-- Unsigned text of a size in units with `places` digits behind the point, rounded. A point that
no digit follows is written only if `point` asks for it. -/
def fixed (size places : Nat) (point : Bool) : List Char :=
  let ds := writeNat (roundDiv (size * Nat.pow 10 places) unitsPerOne)
  let padded := List.replicate (places + 1 - ds.length) '0' ++ ds
  let front := padded.take (padded.length - places)
  let back := padded.drop (padded.length - places)
  front ++ (if back.isEmpty && !point then [] else '.' :: back)

/-- The digits of a size in units rounded to `count` digits, and the power of ten of the first. -/
def roundedDigits (size count : Nat) : List Char × Int :=
  if size = 0 then (List.replicate count '0', 0)
  else
    let power := leadingPower size
    let (num, den) := inSteps size (power - count + 1)
    let ds := writeNat (roundDiv num den)
    if ds.length ≤ count then (ds, power) else (ds.take count, power + 1)

/-- One digit, `places` digits behind the point, and an exponent after `mark`. -/
def scientific (size places : Nat) (mark : Char) (point : Bool) : List Char :=
  let (ds, power) := roundedDigits size (places + 1)
  let back := ds.drop 1
  ds.take 1 ++ (if back.isEmpty && !point then [] else '.' :: back) ++ mark :: exponentText power

/-- Drops zeros at the end. -/
def trimZeros (cs : List Char) : List Char := (cs.reverse.dropWhile (· == '0')).reverse

/-- `count` digits, positional while the leading power of ten is at least -4 and below `count`.
Zeros at the end are dropped unless `keep` asks for them, and a point with nothing behind it too. -/
def general (size count : Nat) (mark : Char) (keep : Bool) : List Char :=
  let count := max count 1
  let (ds, power) := roundedDigits size count
  if -4 ≤ power && power < count then
    let (front, back) := positional ds (power + 1)
    let back := if keep then back else trimZeros back
    front ++ (if back.isEmpty && !keep then [] else '.' :: back)
  else
    let back := if keep then ds.drop 1 else trimZeros (ds.drop 1)
    ds.take 1 ++ (if back.isEmpty && !keep then [] else '.' :: back) ++ mark :: exponentText power

end Binary64

end ViewGraph
