import Mathlib.Data.List.Basic
import ViewGraph.Json.Reader
import ViewGraph.Json.Writer

/-!
# Strings read back

A string is written in printable ASCII, and the reader gives its characters back.  A character with a short
escape is written as this, a printable ASCII character as itself, and any other one by its code units.

* `IsText c`: the characters that are written.
* `code?_hexDigits`: four hexadecimal digits are read as the number that they were written for.
* `readEscape_units`: the escapes of the code units of a character are read as the character.
* `readChars_escaped`: the body of a string is read back.
* `readString_string`: so is a string.
-/

namespace ViewGraph.Json

/-- A character of written text: printable ASCII, or a line feed. -/
def IsText (c : Char) : Prop := c = '\n' ∨ 0x20 ≤ c.toNat ∧ c.toNat < 0x7F

instance : DecidablePred IsText := fun c =>
  inferInstanceAs (Decidable (c = '\n' ∨ 0x20 ≤ c.toNat ∧ c.toNat < 0x7F))

theorem lt_of_isText {c : Char} (hc : IsText c) : c.toNat < 0x80 := by
  rcases hc with rfl | hc
  · decide
  · omega

/-! ### Hexadecimal digits -/

theorem hexValue?_digitChar {d : ℕ} (hd : d < 16) : hexValue? d.digitChar = some d := by
  revert d
  decide

theorem isText_digitChar {d : ℕ} (hd : d < 16) : IsText d.digitChar := by
  right
  revert d
  decide

/-- Hexadecimal digits are read from left to right. -/
theorem hexNumber?_concat (cs : List Char) (c : Char) :
    hexNumber? (cs ++ [c]) = (hexNumber? cs).bind fun n => (hexValue? c).map fun d => 16 * n + d := by
  rw [hexNumber?, List.foldl_concat, ← hexNumber?]
  cases hexNumber? cs <;> cases hexValue? c <;> rfl

theorem hexNumber?_toDigits (n : ℕ) : hexNumber? (Nat.toDigits 16 n) = some n := by
  induction n using Nat.strongRecOn with
  | ind n ih =>
    by_cases hn : n < 16
    · rw [Nat.toDigits_of_lt_base hn, ← List.nil_append [_], hexNumber?_concat, hexValue?_digitChar hn]
      simp [hexNumber?]
    · rw [Nat.toDigits_of_base_le (by omega) (by omega), hexNumber?_concat, ih (n / 16) (by omega),
        hexValue?_digitChar (Nat.mod_lt n (by omega))]
      simp [Nat.div_add_mod]

theorem hexNumber?_zeros (k : ℕ) (cs : List Char) :
    hexNumber? (List.replicate k '0' ++ cs) = hexNumber? cs := by
  induction k with
  | zero => rfl
  | succ k ih => rw [List.replicate_succ, List.cons_append, hexNumber?, List.foldl_cons]; exact ih

theorem hexNumber?_hexDigits (k n : ℕ) : hexNumber? (hexDigits k n) = some n := by
  rw [hexDigits, hexNumber?_zeros, hexNumber?_toDigits]

theorem length_hexDigits {n : ℕ} (hn : n < 0x10000) : (hexDigits 4 n).length = 4 := by
  have hlen : (Nat.toDigits 16 n).length ≤ 4 := (Nat.length_toDigits_le_iff (by omega) (by omega)).mpr hn
  rw [hexDigits, List.length_append, List.length_replicate]
  omega

/-- Four hexadecimal digits are read back, if something follows. -/
theorem code?_hexDigits {n : ℕ} (hn : n < 0x10000) {rest : List Char} (hrest : rest ≠ []) :
    code? (hexDigits 4 n ++ rest) = some (n, rest) := by
  have hlen := length_hexDigits hn
  rw [code?, List.drop_left' hlen, List.take_left' hlen, hexNumber?_hexDigits]
  cases rest with
  | nil => exact absurd rfl hrest
  | cons c rest => rfl

theorem isText_of_mem_toDigits {n : ℕ} {c : Char} (hc : c ∈ Nat.toDigits 16 n) : IsText c := by
  induction n using Nat.strongRecOn with
  | ind n ih =>
    by_cases hn : n < 16
    · rw [Nat.toDigits_of_lt_base hn, List.mem_singleton] at hc
      exact hc ▸ isText_digitChar hn
    · rw [Nat.toDigits_of_base_le (by omega) (by omega), List.mem_append, List.mem_singleton] at hc
      rcases hc with hc | rfl
      · exact ih (n / 16) (by omega) hc
      · exact isText_digitChar (Nat.mod_lt n (by omega))

theorem isText_of_mem_hexDigits {k n : ℕ} {c : Char} (hc : c ∈ hexDigits k n) : IsText c := by
  rcases List.mem_append.mp hc with hc | hc
  · rw [List.eq_of_mem_replicate hc]
    exact .inr (by decide)
  · exact isText_of_mem_toDigits hc

/-! ### Escapes -/

/-- The escape of a code unit. -/
def unitEscape (n : ℕ) : List Char := '\\' :: 'u' :: hexDigits 4 n

theorem toNat_valid (c : Char) : c.toNat < 0xD800 ∨ 0xDFFF < c.toNat ∧ c.toNat < 0x110000 := c.valid

theorem isLeading_iff {n : ℕ} : isLeading n = true ↔ 0xD800 ≤ n ∧ n ≤ 0xDBFF := by
  rw [isLeading, Bool.and_eq_true, decide_eq_true_iff, decide_eq_true_iff]

theorem isTrailing_iff {n : ℕ} : isTrailing n = true ↔ 0xDC00 ≤ n ∧ n ≤ 0xDFFF := by
  rw [isTrailing, Bool.and_eq_true, decide_eq_true_iff, decide_eq_true_iff]

/-- The unit of a character is no half of a pair. -/
theorem not_isLeading_toNat (c : Char) : ¬ isLeading c.toNat = true := by
  rw [isLeading_iff]
  have := toNat_valid c
  omega

theorem not_isTrailing_toNat (c : Char) : ¬ isTrailing c.toNat = true := by
  rw [isTrailing_iff]
  have := toNat_valid c
  omega

theorem ofUnit_toNat (c : Char) : ofUnit c.toNat = c := by
  have hhalf : ¬ (isLeading c.toNat || isTrailing c.toNat) = true := by
    rw [Bool.or_eq_true, not_or]
    exact ⟨not_isLeading_toNat c, not_isTrailing_toNat c⟩
  rw [ofUnit, if_neg hhalf, Char.ofNat_toNat]

/-- The escape of a unit that is no half of a pair is read as its character. -/
theorem readEscape_unit {c : Char} (hc : c.toNat < 0x10000) {rest : List Char} (hrest : rest ≠ []) :
    readEscape ('u' :: (hexDigits 4 c.toNat ++ rest)) = .ok (c, rest) := by
  rw [readEscape, if_pos rfl, code?_hexDigits hc hrest]
  simp only [not_isLeading_toNat c, Bool.false_eq_true, if_false, ofUnit_toNat]

/-- The escapes of a pair of units are read as the character of the pair. -/
theorem readEscape_pair {m n : ℕ} (hm : isLeading m = true) (hn : isTrailing n = true) {rest : List Char}
    (hrest : rest ≠ []) :
    readEscape ('u' :: (hexDigits 4 m ++ (unitEscape n ++ rest))) = .ok (ofPair m n, rest) := by
  have hm' : m < 0x10000 := by
    have := isLeading_iff.mp hm
    omega
  have hn' : n < 0x10000 := by
    have := isTrailing_iff.mp hn
    omega
  have hfirst : code? (hexDigits 4 m ++ (unitEscape n ++ rest)) = some (m, unitEscape n ++ rest) :=
    code?_hexDigits hm' (List.cons_ne_nil _ _)
  -- The reader asks for a second escape, and for more than four characters in it: there is the closing quote.
  have hdrop : dropWord? ['\\', 'u'] (unitEscape n ++ rest) = some (hexDigits 4 n ++ rest) := rfl
  have hlong : ¬ (hexDigits 4 n ++ rest).length ≤ 4 := by
    have := List.length_pos_iff.mpr hrest
    rw [List.length_append, length_hexDigits hn']
    omega
  rw [readEscape, if_pos rfl, hfirst]
  simp only [hm, if_true, hdrop, hlong, if_false, code?_hexDigits hn' hrest, hn]

theorem pair_sum (a b d e n : ℕ) (h : a ≤ n) :
    a + (b + (n - a) / d - b) * d + (e + (n - a) % d - e) = n := by
  rw [Nat.add_sub_cancel_left, Nat.add_sub_cancel_left, Nat.add_assoc, Nat.div_add_mod',
    Nat.add_sub_cancel' h]

theorem ofPair_units {c : Char} (hc : 0x10000 ≤ c.toNat) :
    ofPair (0xD800 + (c.toNat - 0x10000) / 0x400) (0xDC00 + (c.toNat - 0x10000) % 0x400) = c := by
  rw [ofPair, pair_sum _ _ _ _ _ hc, Char.ofNat_toNat]

theorem isLeading_add {k : ℕ} (hk : k < 0x400) : isLeading (0xD800 + k) = true := by
  rw [isLeading_iff]
  omega

theorem isTrailing_add {k : ℕ} (hk : k < 0x400) : isTrailing (0xDC00 + k) = true := by
  rw [isTrailing_iff]
  omega

theorem units_of_lt {c : Char} (hc : c.toNat < 0x10000) : units c = [c.toNat] := if_pos hc

theorem units_of_not_lt {c : Char} (hc : ¬ c.toNat < 0x10000) :
    units c = [0xD800 + (c.toNat - 0x10000) / 0x400, 0xDC00 + (c.toNat - 0x10000) % 0x400] :=
  if_neg hc

/-- The escapes of two units, with what stands behind the first backslash apart. -/
theorem flatMap_unitEscape_pair (m n : ℕ) (rest : List Char) :
    [m, n].flatMap unitEscape ++ rest = '\\' :: 'u' :: (hexDigits 4 m ++ (unitEscape n ++ rest)) := by
  rw [List.flatMap_cons, List.flatMap_singleton, List.append_assoc]
  rfl

/-- **Units.** The escapes of the code units of a character are read as the character. -/
theorem readEscape_units (c : Char) {rest : List Char} (hrest : rest ≠ []) :
    ∃ tail, (units c).flatMap unitEscape ++ rest = '\\' :: tail ∧ tail ≠ [] ∧
      readEscape tail = .ok (c, rest) := by
  by_cases hc : c.toNat < 0x10000
  · refine ⟨'u' :: (hexDigits 4 c.toNat ++ rest), ?_, by simp, readEscape_unit hc hrest⟩
    rw [units_of_lt hc, List.flatMap_singleton]
    rfl
  · have hbelow : (c.toNat - 0x10000) / 0x400 < 0x400 := by
      have := toNat_valid c
      omega
    have hmod : (c.toNat - 0x10000) % 0x400 < 0x400 := Nat.mod_lt _ (by decide)
    have hpair := readEscape_pair (isLeading_add hbelow) (isTrailing_add hmod) hrest
    rw [ofPair_units (Nat.le_of_not_lt hc)] at hpair
    exact ⟨_, units_of_not_lt hc ▸ flatMap_unitEscape_pair _ _ rest, List.cons_ne_nil _ _, hpair⟩

/-! ### Characters -/

/-- An escape of one letter. -/
theorem readEscape_short {c d : Char} (hc : c ≠ 'u') (hd : shortEscape? c = some d) (rest : List Char) :
    readEscape (c :: rest) = .ok (d, rest) := by
  rw [readEscape, if_neg hc, hd]

/-- A character is written with an escape of one letter, as itself, or with the escapes of its units. -/
theorem escapedChar_cases (c : Char) :
    (∃ e, e ≠ 'u' ∧ IsText e ∧ shortEscape? e = some c ∧ escapedChar c = ['\\', e]) ∨
      (c ≠ '"' ∧ c ≠ '\\' ∧ (0x20 ≤ c.toNat ∧ c.toNat < 0x7F) ∧ escapedChar c = [c]) ∨
      escapedChar c = (units c).flatMap unitEscape := by
  by_cases hquote : c = '"'
  · subst hquote
    exact .inl ⟨'"', by decide, .inr (by decide), rfl, rfl⟩
  by_cases hslash : c = '\\'
  · subst hslash
    exact .inl ⟨'\\', by decide, .inr (by decide), rfl, rfl⟩
  by_cases hline : c = '\n'
  · subst hline
    exact .inl ⟨'n', by decide, .inr (by decide), rfl, rfl⟩
  by_cases hreturn : c = '\r'
  · subst hreturn
    exact .inl ⟨'r', by decide, .inr (by decide), rfl, rfl⟩
  by_cases htab : c = '\t'
  · subst htab
    exact .inl ⟨'t', by decide, .inr (by decide), rfl, rfl⟩
  by_cases hfeed : c = '\x0c'
  · subst hfeed
    exact .inl ⟨'f', by decide, .inr (by decide), rfl, rfl⟩
  by_cases hback : c = '\x08'
  · subst hback
    exact .inl ⟨'b', by decide, .inr (by decide), rfl, rfl⟩
  right
  rw [escapedChar, if_neg hquote, if_neg hslash, if_neg hline, if_neg hreturn, if_neg htab, if_neg hfeed,
    if_neg hback]
  by_cases hplain : (decide (0x20 ≤ c.toNat) && decide (c.toNat < 0x7F)) = true
  · exact .inl ⟨hquote, hslash, by simpa using hplain, if_pos hplain⟩
  · exact .inr (if_neg hplain)

theorem readChars_escape {opening tail rest : List Char} {c : Char} (hne : tail ≠ [])
    (h : readEscape tail = .ok (c, rest)) (fuel : ℕ) :
    readChars opening (fuel + 1) ('\\' :: tail) =
      (readChars opening fuel rest).map fun r => (c :: r.1, r.2) := by
  have hempty : ¬ tail.isEmpty = true := by simpa using hne
  rw [readChars, if_neg (by decide), if_pos rfl, if_neg hempty, h]
  show (readChars opening fuel rest >>= fun r => pure (c :: r.1, r.2)) = _
  cases readChars opening fuel rest <;> rfl

/-- **Characters.** The text of a character in a string is read as the character. -/
theorem readChars_escapedChar (opening : List Char) (fuel : ℕ) (c : Char) {rest : List Char}
    (hrest : rest ≠ []) :
    readChars opening (fuel + 1) (escapedChar c ++ rest) =
      (readChars opening fuel rest).map fun r => (c :: r.1, r.2) := by
  rcases escapedChar_cases c with ⟨e, hu, -, hshort, htext⟩ | ⟨hquote, hslash, hplain, htext⟩ | htext
  · rw [htext, List.cons_append, List.singleton_append,
      readChars_escape (List.cons_ne_nil _ _) (readEscape_short hu hshort rest)]
  · have hcontrol : ¬ c.toNat < 0x20 := Nat.not_lt_of_le hplain.1
    rw [htext, List.singleton_append, readChars, if_neg hquote, if_neg hslash, if_neg hcontrol]
    cases readChars opening fuel rest <;> rfl
  · obtain ⟨tail, htail, hne, hread⟩ := readEscape_units c hrest
    rw [htext, htail, readChars_escape hne hread]

/-- **Bodies.** The body of a string is read back up to its closing quote. -/
theorem readChars_escaped (opening : List Char) (cs rest : List Char) {fuel : ℕ} (hfuel : cs.length < fuel) :
    readChars opening fuel (escaped cs ++ '"' :: rest) = .ok (cs, rest) := by
  induction cs generalizing fuel with
  | nil =>
    obtain ⟨fuel, rfl⟩ := Nat.exists_eq_add_of_lt hfuel
    simp [readChars, escaped]
  | cons c cs ih =>
    obtain ⟨fuel, rfl⟩ := Nat.exists_eq_add_one_of_ne_zero (n := fuel) (by omega)
    rw [escaped, List.flatMap_cons, List.append_assoc, readChars_escapedChar _ _ _ (by simp), ← escaped,
      ih (by simpa using hfuel)]
    rfl

/-! ### Strings -/

theorem units_ne_nil (c : Char) : units c ≠ [] := by
  by_cases hc : c.toNat < 0x10000
  · simp [units_of_lt hc]
  · simp [units_of_not_lt hc]

theorem length_escapedChar_pos (c : Char) : 0 < (escapedChar c).length := by
  rcases escapedChar_cases c with ⟨e, -, -, -, htext⟩ | ⟨-, -, -, htext⟩ | htext
  · simp [htext]
  · simp [htext]
  · obtain ⟨n, rest, hunits⟩ := List.exists_cons_of_ne_nil (units_ne_nil c)
    simp [htext, hunits, unitEscape]

theorem length_le_escaped (cs : List Char) : cs.length ≤ (escaped cs).length := by
  induction cs with
  | nil => simp
  | cons c cs ih =>
    have hpos := length_escapedChar_pos c
    rw [escaped, List.flatMap_cons, List.length_append, ← escaped, List.length_cons]
    omega

theorem isText_of_mem_unitEscape {n : ℕ} {d : Char} (hd : d ∈ unitEscape n) : IsText d := by
  rcases List.mem_cons.mp hd with rfl | hd
  · exact .inr (by decide)
  rcases List.mem_cons.mp hd with rfl | hd
  · exact .inr (by decide)
  · exact isText_of_mem_hexDigits hd

theorem isText_of_mem_escapedChar {c d : Char} (hd : d ∈ escapedChar c) : IsText d := by
  rcases escapedChar_cases c with ⟨e, -, he, -, htext⟩ | ⟨-, -, hplain, htext⟩ | htext
  · rw [htext] at hd
    rcases List.mem_pair.mp hd with rfl | rfl
    · exact .inr (by decide)
    · exact he
  · rw [htext] at hd
    exact List.mem_singleton.mp hd ▸ .inr hplain
  · rw [htext] at hd
    obtain ⟨n, -, hd⟩ := List.mem_flatMap.mp hd
    exact isText_of_mem_unitEscape hd

theorem isText_of_mem_string {s : String} {d : Char} (hd : d ∈ string s) : IsText d := by
  have hquote : IsText '"' := .inr (by decide)
  rcases List.mem_append.mp hd with hd | hd
  · rcases List.mem_cons.mp hd with rfl | hd
    · exact hquote
    · obtain ⟨c, -, hd⟩ := List.mem_flatMap.mp hd
      exact isText_of_mem_escapedChar hd
  · obtain rfl := List.mem_singleton.mp hd
    exact hquote

/-- **Strings.** A string is read back. -/
theorem readString_string (s : String) (rest : List Char) :
    readString (escaped s.toList ++ '"' :: rest) = .ok (s, rest) := by
  have hfuel : s.toList.length < (escaped s.toList ++ '"' :: rest).length + 1 := by
    have := length_le_escaped s.toList
    rw [List.length_append]
    omega
  rw [readString, readChars_escaped _ _ _ hfuel]
  simp [bind, Except.bind, pure, Except.pure]

end ViewGraph.Json
