import ViewGraph.Text.Printable

/-!
# Quoted text

A text inside the display of a list or a table stands in quotes: single quotes, or double quotes
when it holds a single quote and no double one. The backslash, the quote itself and every
character that is not printable are escaped.

* `quoted_eq_cons`: a quoted text begins with its quote.
-/

namespace ViewGraph

/-- The lower-case hexadecimal digits of a number, at least `width` of them. -/
def hexDigits (width n : Nat) : List Char :=
  let ds := Nat.toDigits 16 n
  List.replicate (width - ds.length) '0' ++ ds

/-- An escape by code point, in the shortest of its three forms. -/
def codeEscape (c : Char) : List Char :=
  if c.toNat < 0x100 then '\\' :: 'x' :: hexDigits 2 c.toNat
  else if c.toNat < 0x10000 then '\\' :: 'u' :: hexDigits 4 c.toNat
  else '\\' :: 'U' :: hexDigits 8 c.toNat

/-- The quote that a text is put in. -/
def quoteMark (cs : List Char) : Char :=
  if cs.contains '\'' && !cs.contains '"' then '"' else '\''

/-- One character inside quotes. -/
def quotedChar (mark c : Char) : List Char :=
  if c = mark || c = '\\' then ['\\', c]
  else if c = '\n' then ['\\', 'n']
  else if c = '\r' then ['\\', 'r']
  else if c = '\t' then ['\\', 't']
  else if isPrintable c then [c]
  else codeEscape c

/-- A text in quotes. -/
def quoted (cs : List Char) : List Char :=
  let mark := quoteMark cs
  mark :: cs.flatMap (quotedChar mark) ++ [mark]

/-- A text in which every character beyond ASCII is spelled as an escape. -/
def asciiOnly (cs : List Char) : List Char :=
  cs.flatMap fun c => if c.toNat < 0x80 then [c] else codeEscape c

theorem quoted_eq_cons (cs : List Char) :
    quoted cs = quoteMark cs :: (cs.flatMap (quotedChar (quoteMark cs)) ++ [quoteMark cs]) := rfl

end ViewGraph
