import ViewGraph.Number.Rounding

/-!
# Binary64 numbers

The floating-point numbers of documents, exactly. The nonnegative finite ones are listed in
increasing order and a finite number is a sign and a place in that list, so every value of the
type is a number and no two places are the same number. All arithmetic is on naturals, in units of
`2 ^ (-1074)`, the distance of the smallest positive number from zero.

* `Binary64.magnitude`: the size of a place, counted in units.
* `Binary64.nearest`: the place nearest to a quotient.
* `Binary64.ofDecimal`: the number nearest to `digits * 10 ^ exponent`.
* `Binary64.toInt?`, `Binary64.equals`: the whole number it is, and equality of numbers.
-/

namespace ViewGraph

/-- A binary64 number. -/
inductive Binary64
  | nan
  | infinity (negative : Bool)
  | finite (negative : Bool) (place : Fin (2047 * Nat.pow 2 52))
deriving DecidableEq

namespace Binary64

/-- How many units of `2 ^ (-1074)` make one. -/
def unitsPerOne : Nat := Nat.pow 2 1074

/-- The significand of a place, below `2 ^ 53`. -/
def significand (place : Nat) : Nat :=
  if place < Nat.pow 2 52 then place else Nat.pow 2 52 + place % Nat.pow 2 52

/-- The power of two that scales the significand of a place. -/
def scale (place : Nat) : Nat := place / Nat.pow 2 52 - 1

/-- The size of a place, in units. -/
def magnitude (place : Nat) : Nat := significand place * Nat.pow 2 (scale place)

/-- The place nearest to `num / den`, ties to the even place. It can lie past the last finite
one. -/
def nearest (num den : Nat) : Nat :=
  let units := num * unitsPerOne
  let shift := (units / den).log2 - 52
  shift * Nat.pow 2 52 + roundDiv units (den * Nat.pow 2 shift)

/-- The number at a place, infinite past the last finite one. -/
def ofPlace (negative : Bool) (place : Nat) : Binary64 :=
  if h : place < 2047 * Nat.pow 2 52 then .finite negative ⟨place, h⟩ else .infinity negative

/-- The number nearest to `num / den`. -/
def ofRatio (negative : Bool) (num den : Nat) : Binary64 :=
  ofPlace negative (nearest num den)

/-- How many decimal digits a natural number has. -/
def digitCount (n : Nat) : Nat := (Nat.toDigits 10 n).length

/-- The number nearest to `digits * 10 ^ exponent`. Sizes far outside the range of the type are
decided from the count of digits, so a huge exponent costs nothing. -/
def ofDecimal (negative : Bool) (digits : Nat) (exponent : Int) : Binary64 :=
  let top := exponent + digitCount digits
  if digits = 0 || top < -400 then ofPlace negative 0
  else if 400 < top then .infinity negative
  else if 0 ≤ exponent then ofRatio negative (digits * Nat.pow 10 exponent.toNat) 1
  else ofRatio negative digits (Nat.pow 10 (-exponent).toNat)

/-- Signed units: the value of a finite number times `2 ^ 1074`. -/
def units? : Binary64 → Option Int
  | .finite negative place =>
    let size : Int := magnitude place
    some (if negative then -size else size)
  | _ => none

/-- The whole number that a finite number without fraction is. -/
def toInt? (x : Binary64) : Option Int :=
  match x.units? with
  | some u => if u % (unitsPerOne : Int) = 0 then some (u / (unitsPerOne : Int)) else none
  | none => none

/-- The whole part of a finite number, its fraction dropped. -/
def truncate? (x : Binary64) : Option Int :=
  x.units?.map fun u => u.tdiv unitsPerOne

def isFinite : Binary64 → Bool
  | .finite .. => true
  | _ => false

/-- Zero of either sign. -/
def isZero : Binary64 → Bool
  | .finite _ place => place.val = 0
  | _ => false

/-- Equality of numbers: zero has one value and NaN equals nothing. -/
def equals : Binary64 → Binary64 → Bool
  | .nan, _ => false
  | _, .nan => false
  | .infinity a, .infinity b => a == b
  | x, y => match x.units?, y.units? with
    | some u, some v => u == v
    | _, _ => false

/-- Is the number equal to this whole number? -/
def equalsInt (x : Binary64) (n : Int) : Bool :=
  x.units? == some (n * (unitsPerOne : Int))

end Binary64

end ViewGraph
