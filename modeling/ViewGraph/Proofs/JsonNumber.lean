import Mathlib.Data.List.Basic
import ViewGraph.Json.Reader
import ViewGraph.Proofs.JsonString

/-!
# Whole numbers and words read back

A whole number is read as itself, if the text behind it does not go on like a number.  The reader takes only so many
digits.

* `EndsNumber rest`: a text does not go on like a number.
* `wholePart_writeNat`: the digits of a number are read as its whole part.
* `readNumber_writeInt`: a whole number is read back.
* `readLeaf_writeInt`: it is not taken for a word.
-/

namespace ViewGraph.Json

/-- A text does not go on like a number: with a digit, a point or the mark of an exponent. -/
def EndsNumber (rest : List Char) : Prop :=
  ∀ c ∈ rest.head?, c.isDigit = false ∧ c ≠ '.' ∧ c ≠ 'e' ∧ c ≠ 'E'

/-! ### Digits -/

theorem isDigit_of_mem_writeNat {m : ℕ} {c : Char} (hc : c ∈ writeNat m) : c.isDigit = true :=
  Nat.isDigit_of_mem_toDigits (by decide) (by decide) hc

theorem readDigits_writeNat (m : ℕ) : readDigits (writeNat m) = m := Nat.ofDigitChars_ten_toDigits

/-- A digit is none of some other characters. -/
theorem ne_of_isDigit {l : List Char} (hl : l.all (fun w => !w.isDigit) = true) {c : Char}
    (hc : c.isDigit = true) : ∀ w ∈ l, w ≠ c := by
  rintro w hw rfl
  have hnot := List.all_eq_true.mp hl w hw
  simp [hc] at hnot

theorem digitChar_ne_zero {d : ℕ} (hd : d < 10) (hpos : 0 < d) : d.digitChar ≠ '0' := by
  revert d
  decide

/-- The digits of a number that is not zero do not begin with a zero. -/
theorem exists_writeNat_eq_cons {m : ℕ} (hm : 0 < m) : ∃ c cs, writeNat m = c :: cs ∧ c ≠ '0' := by
  induction m using Nat.strongRecOn with
  | ind m ih =>
    by_cases hlt : m < 10
    · exact ⟨_, [], Nat.toDigits_of_lt_base hlt, digitChar_ne_zero hlt hm⟩
    · obtain ⟨c, cs, hcs, hne⟩ := ih (m / 10) (by omega) (by omega)
      refine ⟨c, cs ++ [(m % 10).digitChar], ?_, hne⟩
      rw [writeNat, Nat.toDigits_of_base_le (by decide) (by omega), ← writeNat, hcs]
      rfl

theorem writeNat_ne_nil (m : ℕ) : writeNat m ≠ [] :=
  List.length_pos_iff.mp Nat.length_toDigits_pos

theorem span_digits {ds rest : List Char} (hds : ∀ c ∈ ds, c.isDigit = true) (hrest : EndsNumber rest) :
    (ds ++ rest).takeWhile Char.isDigit = ds ∧ (ds ++ rest).dropWhile Char.isDigit = rest := by
  rw [List.takeWhile_append_of_pos hds, List.dropWhile_append_of_pos hds]
  cases rest with
  | nil => simp
  | cons c rest => simp [(hrest c rfl).1]

/-! ### Numbers -/

variable {rest : List Char} (hrest : EndsNumber rest)

include hrest

theorem wholePart_writeNat (m : ℕ) : wholePart (writeNat m ++ rest) = (writeNat m, rest) := by
  by_cases hm : 0 < m
  · obtain ⟨c, cs, hcs, hne⟩ := exists_writeNat_eq_cons hm
    have hspan := span_digits (fun d hd => isDigit_of_mem_writeNat (m := m) hd) hrest
    rw [hcs, List.cons_append] at hspan ⊢
    rw [wholePart, if_neg hne, hspan.1, hspan.2]
  · obtain rfl : m = 0 := by omega
    rfl

theorem fractionPart?_eq_none : fractionPart? rest = none := by
  unfold fractionPart?
  split
  · exact absurd rfl (hrest '.' rfl).2.1
  · rfl

theorem exponentPart?_eq_none : exponentPart? rest = none := by
  cases rest with
  | nil => rfl
  | cons c rest =>
    obtain ⟨-, -, he, hE⟩ := hrest c rfl
    simp [exponentPart?, he, hE]

theorem readUnsigned_writeNat {m : ℕ} (hm : (writeNat m).length ≤ maxDigits) (negative : Bool) :
    readUnsigned negative (writeNat m ++ rest) =
      some (.ok (.int (if negative then -(m : Int) else m), rest)) := by
  have hne : ¬ (writeNat m).isEmpty = true := by simpa using writeNat_ne_nil m
  have hdigits : ¬ maxDigits < (writeNat m).length := Nat.not_lt_of_le hm
  rw [readUnsigned, wholePart_writeNat hrest]
  simp only [hne, fractionPart?_eq_none hrest, Option.elim_none, exponentPart?_eq_none hrest, hdigits,
    readDigits_writeNat]
  rfl

omit hrest in
theorem readNumber_of_ne {c : Char} (hc : c ≠ '-') (cs : List Char) :
    readNumber (c :: cs) = readUnsigned false (c :: cs) := by
  unfold readNumber
  split
  · rename_i heq
    exact absurd (List.cons.inj heq).1 hc
  · rfl

omit hrest in
/-- The digits of a number begin with a digit. -/
theorem exists_digit_cons (m : ℕ) : ∃ c cs, writeNat m = c :: cs ∧ c.isDigit = true := by
  obtain ⟨c, cs, hcs⟩ := List.exists_cons_of_ne_nil (writeNat_ne_nil m)
  exact ⟨c, cs, hcs, isDigit_of_mem_writeNat (hcs ▸ List.mem_cons_self)⟩

/-- **Numbers.** A whole number that has not too many digits is read back. -/
theorem readNumber_writeInt {n : Int} (hn : (writeNat n.natAbs).length ≤ maxDigits) :
    readNumber (writeInt n ++ rest) = some (.ok (.int n, rest)) := by
  cases n with
  | ofNat m =>
    have hread := readUnsigned_writeNat (m := m) hrest hn false
    obtain ⟨c, cs, hcs, hdigit⟩ := exists_digit_cons m
    have hminus : c ≠ '-' := by
      rintro rfl
      cases hdigit
    rw [writeInt]
    rw [hcs, List.cons_append] at hread ⊢
    rw [readNumber_of_ne hminus, hread]
    rfl
  | negSucc m => exact readUnsigned_writeNat hrest hn true

/-! ### Words -/

omit hrest in
theorem dropWord?_of_ne {w c : Char} (h : w ≠ c) (word cs : List Char) :
    dropWord? (w :: word) (c :: cs) = none := if_neg h

omit hrest in
/-- No word is read where none of their first letters stands, and no infinity behind the sign. -/
theorem readLeaf_of_ne {c : Char} {cs : List Char} (hc : ∀ w ∈ ['n', 't', 'f', 'N', 'I'], w ≠ c)
    (hminus : dropWord? ['-', 'I', 'n', 'f', 'i', 'n', 'i', 't', 'y'] (c :: cs) = none) :
    readLeaf (c :: cs) = (readNumber (c :: cs)).getD (.error ⟨.valueExpected, c :: cs⟩) := by
  have hnone : ∀ w ∈ words, dropWord? w.1 (c :: cs) = none := by
    intro w hw
    rcases List.mem_cons.mp hw with rfl | hw
    · exact dropWord?_of_ne (hc 'n' (by decide)) _ _
    rcases List.mem_cons.mp hw with rfl | hw
    · exact dropWord?_of_ne (hc 't' (by decide)) _ _
    rcases List.mem_cons.mp hw with rfl | hw
    · exact dropWord?_of_ne (hc 'f' (by decide)) _ _
    rcases List.mem_cons.mp hw with rfl | hw
    · exact dropWord?_of_ne (hc 'N' (by decide)) _ _
    rcases List.mem_cons.mp hw with rfl | hw
    · exact dropWord?_of_ne (hc 'I' (by decide)) _ _
    · exact List.mem_singleton.mp hw ▸ hminus
  rw [readLeaf, List.findSome?_eq_none_iff.mpr]
  intro w hw
  show (dropWord? w.1 (c :: cs)).map _ = none
  rw [hnone w hw]
  rfl

/-- **Leaves.** A whole number is not taken for a word. -/
theorem readLeaf_writeInt {n : Int} (hn : (writeNat n.natAbs).length ≤ maxDigits) :
    readLeaf (writeInt n ++ rest) = .ok (.int n, rest) := by
  have hread := readNumber_writeInt hrest hn
  have hdigit : ∀ {c : Char}, c.isDigit = true → ∀ w ∈ ['n', 't', 'f', 'N', 'I'], w ≠ c :=
    fun hc => ne_of_isDigit (by decide) hc
  cases n with
  | ofNat m =>
    obtain ⟨c, cs, hcs, hc⟩ := exists_digit_cons m
    have hminus : '-' ≠ c := by
      rintro rfl
      cases hc
    rw [writeInt, hcs, List.cons_append] at hread ⊢
    rw [readLeaf_of_ne (hdigit hc) (dropWord?_of_ne hminus _ _), hread]
    rfl
  | negSucc m =>
    -- The sign begins a word too, but the letter behind it is no digit.
    obtain ⟨c, cs, hcs, hc⟩ := exists_digit_cons (m + 1)
    rw [writeInt, hcs, List.cons_append, List.cons_append] at hread ⊢
    rw [readLeaf_of_ne (by simp) ?_, hread]
    · rfl
    · exact dropWord?_of_ne (hdigit hc 'I' (by decide)) _ _

end ViewGraph.Json
