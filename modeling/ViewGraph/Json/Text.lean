import ViewGraph.Text.Quoted

/-!
# Strings in JSON text

A string is written in ASCII: the two characters that cannot stand in a string and the common
control characters have short escapes, and every other character beyond the printable ASCII ones is
written by its UTF-16 code units.

Here, as everywhere, a text is a sequence of Unicode scalar values. Half of a surrogate pair is none of
these: a text that holds one on its own is not described, and where one is read it is replaced.

* `Json.escaped`: the body of a string, without its quotes.
* `Json.code?`: reads four hexadecimal digits.
* `Json.units`: the UTF-16 code units of a character.
-/

namespace ViewGraph.Json

/-- The UTF-16 code units of a character. -/
def units (c : Char) : List Nat :=
  let n := c.toNat
  if n < 0x10000 then [n]
  else [0xD800 + (n - 0x10000) / 0x400, 0xDC00 + (n - 0x10000) % 0x400]

/-- The first unit of a pair. -/
def isLeading (n : Nat) : Bool := 0xD800 ≤ n && n ≤ 0xDBFF

/-- The second unit of a pair. -/
def isTrailing (n : Nat) : Bool := 0xDC00 ≤ n && n ≤ 0xDFFF

/-- The character that a pair of units stands for. -/
def ofPair (leading trailing : Nat) : Char :=
  Char.ofNat (0x10000 + (leading - 0xD800) * 0x400 + (trailing - 0xDC00))

/-- The character that a unit on its own stands for; half of a pair stands for the replacement
character. -/
def ofUnit (n : Nat) : Char :=
  if isLeading n || isTrailing n then Char.ofNat 0xFFFD else Char.ofNat n

/-- One character inside a string. -/
def escapedChar (c : Char) : List Char :=
  if c = '"' then ['\\', '"']
  else if c = '\\' then ['\\', '\\']
  else if c = '\n' then ['\\', 'n']
  else if c = '\r' then ['\\', 'r']
  else if c = '\t' then ['\\', 't']
  else if c = '\x0c' then ['\\', 'f']
  else if c = '\x08' then ['\\', 'b']
  else if 0x20 ≤ c.toNat && c.toNat < 0x7F then [c]
  else (units c).flatMap fun n => '\\' :: 'u' :: hexDigits 4 n

/-- The body of a string. -/
def escaped (cs : List Char) : List Char := cs.flatMap escapedChar

/-- A string with its quotes. -/
def string (s : String) : List Char := '"' :: escaped s.toList ++ ['"']

/-- The character that a short escape stands for. -/
def shortEscape? (c : Char) : Option Char :=
  if c = '"' || c = '\\' || c = '/' then some c
  else if c = 'n' then some '\n'
  else if c = 'r' then some '\r'
  else if c = 't' then some '\t'
  else if c = 'f' then some '\x0c'
  else if c = 'b' then some '\x08'
  else none

/-- The value of a hexadecimal digit in either case. -/
def hexValue? (c : Char) : Option Nat :=
  if '0' ≤ c && c ≤ '9' then some (c.toNat - '0'.toNat)
  else if 'a' ≤ c && c ≤ 'f' then some (c.toNat - 'a'.toNat + 10)
  else if 'A' ≤ c && c ≤ 'F' then some (c.toNat - 'A'.toNat + 10)
  else none

/-- The number that a run of hexadecimal digits denotes. -/
def hexNumber? (cs : List Char) : Option Nat :=
  cs.foldl (fun n? c => do return 16 * (← n?) + (← hexValue? c)) (some 0)

/-- The code unit at the start of a text that goes on behind it, and what follows. -/
def code? (cs : List Char) : Option (Nat × List Char) :=
  match cs.drop 4 with
  | [] => none
  | next :: rest => (hexNumber? (cs.take 4)).map fun n => (n, next :: rest)

end ViewGraph.Json
