import ViewGraph.Text.Ranges

/-!
# Blanks

Two classes of blank characters. `isWhiteSpace` is the standard property, by which texts are
trimmed before they are read as numbers. `isBlank` adds the four information separators; it
separates the parts of a line of an environment file.

* `isBlank_of_isWhiteSpace`, `isWhiteSpace_of_isWhitespace`: each class holds the smaller one.
* `trim`, `trimEnd`: a text without the blanks around it, or behind it.
-/

namespace ViewGraph

/-- The characters with the white space property. -/
def whiteSpaces : List (Nat × Nat) :=
  [(9, 13), (0x20, 0x20), (0x85, 0x85), (0xA0, 0xA0), (0x1680, 0x1680), (0x2000, 0x200A),
   (0x2028, 0x2029), (0x202F, 0x202F), (0x205F, 0x205F), (0x3000, 0x3000)]

/-- Does the character have the white space property? -/
def isWhiteSpace (c : Char) : Bool := inRanges whiteSpaces c

/-- White space, or an information separator. -/
def isBlank (c : Char) : Bool := isWhiteSpace c || (0x1C ≤ c.toNat && c.toNat ≤ 0x1F)

theorem isBlank_of_isWhiteSpace {c : Char} (h : isWhiteSpace c = true) : isBlank c = true := by
  simp [isBlank, h]

theorem isWhiteSpace_of_isWhitespace {c : Char} (h : c.isWhitespace = true) :
    isWhiteSpace c = true := by
  simp only [Char.isWhitespace, Bool.or_eq_true, decide_eq_true_eq] at h
  rcases h with ((rfl | rfl) | rfl) | rfl <;> decide

/-- A text without the characters of a class at its end. -/
def trimEnd (p : Char → Bool) (cs : List Char) : List Char := (cs.reverse.dropWhile p).reverse

/-- A text without the characters of a class at its ends. -/
def trim (p : Char → Bool) (cs : List Char) : List Char := trimEnd p (cs.dropWhile p)

end ViewGraph
