import Mathlib.Data.List.Infix
import ViewGraph.Proofs.JsonLines

/-!
# Colours of a line

The level, the time and the logger of a line are looked for in it one after the other, each in the text that has the
colour sequences of the ones before it.  A level is looked for before there are any sequences, and a time cannot begin
within one.  A logger can: then its sequence is torn, and what is left of it stays in the line.

* `IsSequence s`: an escape, a bracket, digits and an `m`.
* `withoutColours cs`: a text without its sequences.
* `Painted p q`: the text `p` is `q` with sequences in it.
* `Cuts u v`: a sequence goes from the end of `u` to the start of `v`.
* `IsTorn logger cs`: the first place of a logger and a dash begins within a sequence.
* `Painted.withoutColours_eq`: without its sequences a painted text is the plain one.
* `Painted.replace`: a place that does not begin within a sequence can be painted.
* `withoutColours_render_iff`: so colours are decoration, exactly if no sequence is torn.
-/

namespace ViewGraph

/-! ### Definitions -/

/-- A colour sequence: an escape, a bracket, digits and an `m`. -/
def IsSequence (s : List Char) : Prop :=
  ∃ digits, digits ≠ [] ∧ (∀ d ∈ digits, d.isDigit = true) ∧ s = '\x1b' :: '[' :: (digits ++ ['m'])

/-- The length of the colour sequence that a text begins with, if there is one. -/
def sequenceLength? : List Char → Option ℕ
  | '\x1b' :: '[' :: cs =>
    let digits := cs.takeWhile Char.isDigit
    if digits ≠ [] ∧ (cs.drop digits.length).head? = some 'm' then some (digits.length + 3) else none
  | _ => none

/-- A text without its colour sequences, of which some characters are still to pass over. -/
def withoutColoursFrom : ℕ → List Char → List Char
  | _, [] => []
  | skip + 1, _ :: cs => withoutColoursFrom skip cs
  | 0, c :: cs =>
    match sequenceLength? (c :: cs) with
    | some n => withoutColoursFrom (n - 1) cs
    | none => c :: withoutColoursFrom 0 cs

/-- A text without its colour sequences. -/
def withoutColours (cs : List Char) : List Char := withoutColoursFrom 0 cs

/-- A text, with colour sequences in it, and the plain text. -/
inductive Painted : List Char → List Char → Prop
  | nil : Painted [] []
  | char {c : Char} {p q : List Char} (hc : c ≠ '\x1b') (h : Painted p q) : Painted (c :: p) (c :: q)
  | colour {s p q : List Char} (hs : IsSequence s) (h : Painted p q) : Painted (s ++ p) q

/-- A colour sequence begins in the one text and ends in the other, which stands behind it. -/
def Cuts (u v : List Char) : Prop :=
  ∃ a s t b, u = a ++ s ∧ v = t ++ b ∧ s ≠ [] ∧ t ≠ [] ∧ IsSequence (s ++ t)

/-- A word stands in a text for the first time, with what is before it and behind it. -/
structure IsFirst (word cs u v : List Char) : Prop where
  eq : cs = u ++ (word ++ v)
  first : ∀ {u' v'}, cs = u' ++ (word ++ v') → u.length ≤ u'.length

/-- What is looked for when a logger is painted. -/
def dashed (logger : List Char) : List Char := logger ++ [' ', '-', ' ']

/-- The first place where a logger is followed by a dash begins within a colour sequence. -/
def IsTorn (logger cs : List Char) : Prop :=
  ∃ u v, IsFirst (dashed logger) cs u v ∧ Cuts u (dashed logger ++ v)

/-- A character fits a place of the shape of a time. -/
def FitsShape (s c : Char) : Prop := if s = '0' then isDecimalDigit c = true else s = c

instance (s c : Char) : Decidable (FitsShape s c) :=
  inferInstanceAs (Decidable (if s = '0' then isDecimalDigit c = true else s = c))

/-- A line with its level and its time in colours. -/
def timedLine (level : Level) (line : List Char) : List Char :=
  paintTime (replaceFirst (levelName level).toList ((Colour.ofLevel level).paint (levelName level).toList) line)

/-! ### Sequences -/

theorem isSequence_code (colour : Colour) : IsSequence ('\x1b' :: '[' :: (colour.code.toList ++ ['m'])) := by
  refine ⟨_, ?_, List.all_eq_true.mp ?_, rfl⟩ <;> cases colour <;> decide

theorem isSequence_reset : IsSequence ['\x1b', '[', '0', 'm'] :=
  ⟨['0'], by decide, List.all_eq_true.mp (by decide), rfl⟩

/-- A sequence that is cut: the part in front begins with the escape, and the part behind ends with the `m`. -/
theorem IsSequence.cut {s t : List Char} (h : IsSequence (s ++ t)) (hs : s ≠ []) (ht : t ≠ []) :
    ∃ front behind digits, s = '\x1b' :: front ∧ t = behind ++ ['m'] ∧ front ++ behind = '[' :: digits ∧
      ∀ d ∈ digits, d.isDigit = true := by
  obtain ⟨digits, -, hdigits, heq⟩ := h
  obtain ⟨c, front, rfl⟩ := List.exists_cons_of_ne_nil hs
  obtain ⟨behind, d, rfl⟩ : ∃ behind d, t = behind ++ [d] := ⟨_, _, (List.dropLast_append_getLast ht).symm⟩
  obtain ⟨rfl, hrest⟩ := List.cons.inj heq
  rw [List.append_eq, ← List.append_assoc, ← List.cons_append] at hrest
  obtain ⟨hfront, hd⟩ := List.append_inj' hrest rfl
  obtain rfl := List.singleton_inj.mp hd
  exact ⟨front, behind, digits, rfl, rfl, hfront, hdigits⟩

/-- Behind the escape of a sequence there are a bracket, digits and an `m`. -/
theorem IsSequence.mem_behind {s t : List Char} (h : IsSequence (s ++ t)) (hs : s ≠ []) {c : Char} (hc : c ∈ t) :
    c = '[' ∨ c.isDigit = true ∨ c = 'm' := by
  obtain ⟨front, behind, digits, -, rfl, heq, hdigits⟩ := h.cut hs (List.ne_nil_of_mem hc)
  rcases List.mem_append.mp hc with hc | hc
  · have hmem : c ∈ '[' :: digits := heq ▸ List.mem_append_right front hc
    rcases List.mem_cons.mp hmem with rfl | hmem
    · exact .inl rfl
    · exact .inr (.inl (hdigits c hmem))
  · exact .inr (.inr (List.mem_singleton.mp hc))

theorem not_cuts_escape (u cs : List Char) : ¬ Cuts u ('\x1b' :: cs) := by
  rintro ⟨a, s, t, b, -, heq, hs, ht, hsequence⟩
  obtain ⟨c, t, rfl⟩ := List.exists_cons_of_ne_nil ht
  obtain rfl : '\x1b' = c := (List.cons.inj heq).1
  have hmem := hsequence.mem_behind hs List.mem_cons_self
  revert hmem
  decide

theorem Cuts.cons {u v : List Char} (h : Cuts u v) (c : Char) : Cuts (c :: u) v := by
  obtain ⟨a, s, t, b, rfl, rfl, hs⟩ := h
  exact ⟨c :: a, s, t, b, rfl, rfl, hs⟩

theorem Cuts.append {u v : List Char} (h : Cuts u v) (w : List Char) : Cuts (w ++ u) v := by
  obtain ⟨a, s, t, b, rfl, rfl, hs⟩ := h
  exact ⟨w ++ a, s, t, b, (List.append_assoc _ _ _).symm, rfl, hs⟩

/-- Only a text with an escape is cut. -/
theorem Cuts.escape_mem {u v : List Char} (h : Cuts u v) : '\x1b' ∈ u := by
  obtain ⟨a, s, t, b, rfl, -, hs, ht, hsequence⟩ := h
  obtain ⟨front, -, -, rfl, -⟩ := hsequence.cut hs ht
  exact List.mem_append_right a List.mem_cons_self

/-! ### Texts without colours -/

theorem sequenceLength?_of_ne {c : Char} (hc : c ≠ '\x1b') (cs : List Char) : sequenceLength? (c :: cs) = none := by
  unfold sequenceLength?
  split
  · rename_i heq
    exact absurd (List.cons.inj heq).1 hc
  · rfl

theorem sequenceLength?_append {s : List Char} (hs : IsSequence s) (cs : List Char) :
    sequenceLength? (s ++ cs) = some s.length := by
  obtain ⟨digits, hne, hdigits, rfl⟩ := hs
  have htake : (digits ++ ['m'] ++ cs).takeWhile Char.isDigit = digits := by
    rw [List.append_assoc, List.takeWhile_append_of_pos hdigits]
    simp
  simp only [List.cons_append, sequenceLength?, htake]
  simp [hne]

theorem withoutColoursFrom_append (s cs : List Char) : withoutColoursFrom s.length (s ++ cs) = withoutColours cs := by
  induction s with
  | nil => rfl
  | cons c s ih => exact ih

theorem withoutColours_cons {c : Char} (hc : c ≠ '\x1b') (cs : List Char) :
    withoutColours (c :: cs) = c :: withoutColours cs := by
  rw [withoutColours, withoutColoursFrom, sequenceLength?_of_ne hc]
  rfl

theorem withoutColours_sequence {s : List Char} (hs : IsSequence s) (cs : List Char) :
    withoutColours (s ++ cs) = withoutColours cs := by
  have hlength := sequenceLength?_append hs cs
  obtain ⟨c, t, rfl⟩ := List.exists_cons_of_ne_nil (l := s) (by
    obtain ⟨-, -, -, rfl⟩ := hs
    exact List.cons_ne_nil _ _)
  rw [List.cons_append] at hlength
  rw [withoutColours, List.cons_append, withoutColoursFrom, hlength]
  exact withoutColoursFrom_append t cs

/-- An escape stays where its sequence breaks off at another escape. -/
theorem withoutColours_torn {front digits : List Char} (hfront : front <+: '[' :: digits)
    (hdigits : ∀ d ∈ digits, d.isDigit = true) (cs : List Char) :
    '\x1b' ∈ withoutColours ('\x1b' :: (front ++ '\x1b' :: cs)) := by
  have hnone : sequenceLength? ('\x1b' :: (front ++ '\x1b' :: cs)) = none := by
    cases front with
    | nil => rfl
    | cons c front =>
      obtain ⟨rfl, hrest⟩ := List.cons_prefix_cons.mp hfront
      have htake : (front ++ '\x1b' :: cs).takeWhile Char.isDigit = front := by
        rw [List.takeWhile_append_of_pos fun d hd => hdigits d (hrest.subset hd)]
        simp
      simp [sequenceLength?, htake]
  rw [withoutColours, withoutColoursFrom, hnone]
  exact List.mem_cons_self

/-! ### Painted texts -/

namespace Painted

variable {p q p' q' : List Char}

theorem escape_not_mem (h : Painted p q) : '\x1b' ∉ q := by
  induction h with
  | nil => exact List.not_mem_nil
  | char hc h ih => exact List.not_mem_cons_of_ne_of_not_mem hc.symm ih
  | colour hs h ih => exact ih

/-- **Decoration.** Without its colour sequences a painted text is the plain one. -/
theorem withoutColours_append (h : Painted p q) (cs : List Char) :
    withoutColours (p ++ cs) = q ++ withoutColours cs := by
  induction h with
  | nil => rfl
  | char hc h ih => rw [List.cons_append, withoutColours_cons hc, ih, List.cons_append]
  | colour hs h ih => rw [List.append_assoc, withoutColours_sequence hs, ih]

theorem withoutColours_eq (h : Painted p q) : withoutColours p = q := by
  have hnil : withoutColours [] = [] := rfl
  have happend := h.withoutColours_append []
  rwa [List.append_nil, hnil, List.append_nil] at happend

example : withoutColours "\x1b[91mERROR\x1b[0m - boom".toList = "ERROR - boom".toList := by decide

theorem refl {cs : List Char} (h : '\x1b' ∉ cs) : Painted cs cs := by
  induction cs with
  | nil => exact .nil
  | cons c cs ih =>
    exact .char (List.ne_of_not_mem_cons h).symm (ih (List.not_mem_of_not_mem_cons h))

theorem append (h : Painted p q) (h' : Painted p' q') : Painted (p ++ p') (q ++ q') := by
  induction h with
  | nil => exact h'
  | char hc h ih => exact .char hc ih
  | colour hs h ih =>
    rw [List.append_assoc]
    exact .colour hs ih

theorem paint (colour : Colour) {w : List Char} (hw : '\x1b' ∉ w) : Painted (colour.paint w) w := by
  have hpainted := Painted.colour (isSequence_code colour) ((refl hw).append (.colour isSequence_reset .nil))
  simpa [Colour.paint] using hpainted

/-- Plain characters at the start of a painted text stand in the plain text too. -/
theorem of_append {w v : List Char} (hw : '\x1b' ∉ w) (h : Painted (w ++ v) q) :
    ∃ q', q = w ++ q' ∧ Painted v q' := by
  induction w generalizing q with
  | nil => exact ⟨q, rfl, h⟩
  | cons c w ih =>
    have hc := List.ne_of_not_mem_cons hw
    generalize hp : c :: w ++ v = p at h
    cases h with
    | nil => cases hp
    | char hd h =>
      obtain ⟨rfl, rfl⟩ := List.cons.inj hp
      obtain ⟨q', rfl, hv⟩ := ih (List.not_mem_of_not_mem_cons hw) h
      exact ⟨q', rfl, hv⟩
    | colour hs h =>
      obtain ⟨digits, -, -, rfl⟩ := hs
      exact absurd (List.cons.inj hp).1.symm hc

/-- A painted text is painted on both sides of a place that does not lie within a sequence. -/
theorem cut (h : Painted p q) {u v : List Char} (hp : p = u ++ v) :
    (∃ q₁ q₂, q = q₁ ++ q₂ ∧ Painted u q₁ ∧ Painted v q₂) ∨ Cuts u v := by
  induction h generalizing u with
  | nil =>
    obtain ⟨rfl, rfl⟩ := List.append_eq_nil_iff.mp hp.symm
    exact .inl ⟨[], [], rfl, .nil, .nil⟩
  | @char c p q hc h ih =>
    cases u with
    | nil =>
      obtain rfl : c :: p = v := hp
      exact .inl ⟨[], c :: q, rfl, .nil, .char hc h⟩
    | cons d u =>
      obtain ⟨rfl, hrest⟩ := List.cons.inj hp
      rcases ih hrest with ⟨q₁, q₂, rfl, hu, hv⟩ | hcuts
      · exact .inl ⟨c :: q₁, q₂, rfl, .char hc hu, hv⟩
      · exact .inr (hcuts.cons c)
  | @colour s p q hs h ih =>
    rcases List.append_eq_append_iff.mp hp with ⟨u, rfl, hrest⟩ | ⟨t, rfl, rfl⟩
    · rcases ih hrest with ⟨q₁, q₂, rfl, hu, hv⟩ | hcuts
      · exact .inl ⟨q₁, q₂, rfl, .colour hs hu, hv⟩
      · exact .inr (hcuts.append s)
    · by_cases hu : u = []
      · subst hu
        exact .inl ⟨[], q, rfl, .nil, .colour hs h⟩
      by_cases ht : t = []
      · subst ht
        rw [List.append_nil] at hs
        exact .inl ⟨[], q, rfl, by simpa using Painted.colour hs .nil, h⟩
      · exact .inr ⟨[], u, t, p, rfl, rfl, hu, ht, hs⟩

/-- **Paint.** A word that does not begin within a sequence can be painted. -/
theorem replace {cs u w v new : List Char} (h : Painted cs q) (heq : cs = u ++ (w ++ v)) (hw : '\x1b' ∉ w)
    (hcuts : ¬ Cuts u (w ++ v)) (hnew : Painted new w) : Painted (u ++ (new ++ v)) q := by
  obtain ⟨q₁, q₂, rfl, hu, hwv⟩ := (h.cut heq).resolve_right hcuts
  obtain ⟨q₃, rfl, hv⟩ := of_append hw hwv
  exact hu.append (hnew.append hv)

/-- A sequence that is torn leaves its escape behind. -/
theorem withoutColours_ne {cs u v new : List Char} (h : Painted cs q) (heq : cs = u ++ v) (hcuts : Cuts u v) :
    withoutColours (u ++ '\x1b' :: new) ≠ q := by
  obtain ⟨a, s, t, b, rfl, rfl, hs, ht, hsequence⟩ := hcuts
  obtain ⟨front, behind, digits, rfl, rfl, hfront, hdigits⟩ := hsequence.cut hs ht
  -- In front of the sequence the text is painted, as no sequence goes on into an escape.
  have hcut : ¬ Cuts a ('\x1b' :: front ++ (behind ++ ['m'] ++ b)) := not_cuts_escape a _
  obtain ⟨q₁, q₂, -, ha, -⟩ := (h.cut (heq.trans (List.append_assoc ..))).resolve_right hcut
  have hescape : '\x1b' ∈ withoutColours (a ++ ('\x1b' :: front) ++ '\x1b' :: new) := by
    rw [List.append_assoc, ha.withoutColours_append]
    exact List.mem_append_right q₁ (withoutColours_torn ⟨behind, hfront⟩ hdigits new)
  exact fun hplain => h.escape_not_mem (hplain ▸ hescape)

end Painted

/-! ### Places -/

theorem IsFirst.cons {word cs u v : List Char} {c : Char} (h : IsFirst word cs u v) (hc : ¬ word <+: c :: cs) :
    IsFirst word (c :: cs) (c :: u) v where
  eq := congrArg (c :: ·) h.eq
  first := by
    intro u' v' heq
    cases u' with
    | nil => exact absurd ⟨v', heq.symm⟩ hc
    | cons d u' => exact Nat.succ_le_succ (h.first (List.cons.inj heq).2)

/-- There is one first place. -/
theorem IsFirst.unique {word cs u v u' v' : List Char} (h : IsFirst word cs u v) (h' : IsFirst word cs u' v') :
    u = u' ∧ v = v' := by
  have hlength : u.length = u'.length := Nat.le_antisymm (h.first h'.eq) (h'.first h.eq)
  obtain ⟨hu, hv⟩ := List.append_inj (h.eq.symm.trans h'.eq) hlength
  exact ⟨hu, List.append_cancel_left hv⟩

/-- A word is replaced at its first place, if it has any. -/
theorem replaceFirst_cases (old new cs : List Char) :
    (∃ u v, IsFirst old cs u v ∧ replaceFirst old new cs = u ++ (new ++ v)) ∨
      (¬ old <:+: cs ∧ replaceFirst old new cs = cs) := by
  induction cs with
  | nil =>
    cases old with
    | nil => exact .inl ⟨[], [], ⟨rfl, fun _ => Nat.zero_le _⟩, by simp [replaceFirst]⟩
    | cons c old => exact .inr ⟨by simp, rfl⟩
  | cons c cs ih =>
    rw [replaceFirst]
    by_cases hc : old <+: c :: cs
    · obtain ⟨v, hv⟩ := hc
      rw [if_pos (List.isPrefixOf_iff_prefix.mpr ⟨v, hv⟩), ← hv, List.drop_left]
      exact .inl ⟨[], v, ⟨rfl, fun _ => Nat.zero_le _⟩, rfl⟩
    · rw [if_neg fun h => hc (List.isPrefixOf_iff_prefix.mp h)]
      rcases ih with ⟨u, v, hfirst, heq⟩ | ⟨hnone, heq⟩
      · exact .inl ⟨c :: u, v, hfirst.cons hc, by rw [heq, List.cons_append]⟩
      · exact .inr ⟨fun h => (List.infix_cons_iff.mp h).elim hc hnone, by rw [heq]⟩

theorem paintTime_cases (cs : List Char) :
    (∃ u w v, cs = u ++ (w ++ v) ∧ w.length = timeShape.length ∧ beginsWithTime (w ++ v) = true ∧
      paintTime cs = u ++ (Colour.cyan.paint w ++ v)) ∨ paintTime cs = cs := by
  induction cs with
  | nil => exact .inr rfl
  | cons c cs ih =>
    rw [paintTime]
    by_cases hc : beginsWithTime (c :: cs) = true
    · have hlength : timeShape.length ≤ (c :: cs).length := by
        rw [beginsWithTime, Bool.and_eq_true, decide_eq_true_iff] at hc
        exact hc.1
      have hsplit : c :: cs = (c :: cs).take timeShape.length ++ (c :: cs).drop timeShape.length :=
        (List.take_append_drop _ _).symm
      rw [if_pos hc]
      exact .inl ⟨[], _, _, hsplit, List.length_take_of_le hlength, hsplit ▸ hc, rfl⟩
    · rw [if_neg hc]
      rcases ih with ⟨u, w, v, rfl, hlength, htime, heq⟩ | heq
      · exact .inl ⟨c :: u, w, v, rfl, hlength, htime, by rw [heq, List.cons_append]⟩
      · exact .inr (by rw [heq])

/-! ### Times -/

/-- The characters of a time are as its shape has them. -/
theorem getElem?_of_beginsWithTime {cs : List Char} (h : beginsWithTime cs = true) {i : ℕ} {s : Char}
    (hs : timeShape[i]? = some s) : ∃ c, cs[i]? = some c ∧ FitsShape s c := by
  rw [beginsWithTime, Bool.and_eq_true, decide_eq_true_iff] at h
  obtain ⟨hi, -⟩ := List.getElem?_eq_some_iff.mp hs
  have hget : cs[i]? = some cs[i] := List.getElem?_eq_getElem (by omega)
  have hmem : (s, cs[i]) ∈ timeShape.zip cs :=
    List.mem_of_getElem? (List.getElem?_zip_eq_some.mpr ⟨hs, hget⟩)
  refine ⟨cs[i], hget, ?_⟩
  have hshape := List.all_eq_true.mp h.2 _ hmem
  rw [FitsShape]
  simp only at hshape
  split_ifs at hshape ⊢ with hdigit
  · exact hshape
  · exact of_decide_eq_true hshape

/-- A character that no place of the shape of a time takes. -/
theorem not_fitsShape_of_all {c : Char} (h : (timeShape.all fun s => !decide (FitsShape s c)) = true) {s : Char}
    (hs : s ∈ timeShape) : ¬ FitsShape s c := by
  have hfits := List.all_eq_true.mp h s hs
  simpa only [Bool.not_eq_true', decide_eq_false_iff_not] using hfits

theorem escape_not_mem_time {w v : List Char} (h : beginsWithTime (w ++ v) = true)
    (hlength : w.length = timeShape.length) : '\x1b' ∉ w := by
  intro hmem
  obtain ⟨i, hi, hget⟩ := List.mem_iff_getElem.mp hmem
  obtain ⟨c, hc, hshape⟩ := getElem?_of_beginsWithTime h (List.getElem?_eq_getElem (hlength ▸ hi))
  obtain rfl : '\x1b' = c := by
    rw [List.getElem?_append_left hi, List.getElem?_eq_getElem hi, hget] at hc
    exact Option.some.inj hc
  exact not_fitsShape_of_all (by decide) (List.getElem_mem _) hshape

/-- A time does not begin within a sequence: it has no `m`, and behind the escape of a sequence there is no dash. -/
theorem not_cuts_time {u cs : List Char} (h : beginsWithTime cs = true) : ¬ Cuts u cs := by
  rintro ⟨a, s, t, b, -, rfl, hs, ht, hsequence⟩
  obtain ⟨front, behind, digits, -, rfl, -⟩ := hsequence.cut hs ht
  by_cases hlength : behind.length < timeShape.length
  · obtain ⟨c, hc, hshape⟩ := getElem?_of_beginsWithTime h (List.getElem?_eq_getElem hlength)
    obtain rfl : 'm' = c := by simpa using hc
    exact not_fitsShape_of_all (by decide) (List.getElem_mem _) hshape
  · have hlong : 4 < behind.length := Nat.lt_of_lt_of_le (by decide) (Nat.le_of_not_lt hlength)
    obtain ⟨c, hc, hshape⟩ := getElem?_of_beginsWithTime (i := 4) h (s := '-') rfl
    obtain rfl : '-' = c := hshape
    rw [List.append_assoc, List.getElem?_append_left hlong] at hc
    have hmem := hsequence.mem_behind hs (List.mem_append_left ['m'] (List.mem_of_getElem? hc))
    revert hmem
    decide

/-! ### Loggers -/

theorem paintLogger_of_ne {logger : List Char} (h : logger ≠ []) (cs : List Char) : paintLogger logger cs =
    replaceFirst (dashed logger) (Colour.blue.paint logger ++ [' ', '-', ' ']) cs := if_neg (by simpa using h)

/-- A logger that tears a sequence begins with the end of one. -/
theorem IsTorn.exists_prefix {logger cs : List Char} (h : IsTorn logger cs) :
    ∃ s t, s ≠ [] ∧ t ≠ [] ∧ IsSequence (s ++ t) ∧ t <+: logger := by
  obtain ⟨u, v, -, a, s, t, b, -, heq, hs, ht, hsequence⟩ := h
  refine ⟨s, t, hs, ht, hsequence, ?_⟩
  rw [dashed, List.append_assoc] at heq
  rcases List.append_eq_append_iff.mp heq with ⟨more, rfl, hrest⟩ | ⟨more, rfl, -⟩
  · cases more with
    | nil => exact ⟨[], by simp⟩
    | cons c more =>
      obtain rfl : ' ' = c := (List.cons.inj hrest).1
      have hmem := hsequence.mem_behind hs (List.mem_append_right logger List.mem_cons_self)
      exact absurd hmem (by decide)
  · exact ⟨more, rfl⟩

theorem not_isTorn_nil {cs : List Char} : ¬ IsTorn [] cs := by
  intro h
  obtain ⟨s, t, -, ht, -, hprefix⟩ := h.exists_prefix
  exact ht (List.prefix_nil.mp hprefix)

/-! ### Lines -/

section Lines

variable {level : Level} {line : List Char} (hline : '\x1b' ∉ line)

include hline

/-- The level and the time of a line are painted, and nothing else is changed. -/
theorem painted_timedLine : Painted (timedLine level line) line := by
  have hlevel : Painted (replaceFirst (levelName level).toList
      ((Colour.ofLevel level).paint (levelName level).toList) line) line := by
    rcases replaceFirst_cases (levelName level).toList
      ((Colour.ofLevel level).paint (levelName level).toList) line with ⟨u, v, hfirst, heq⟩ | ⟨-, heq⟩
    · have hname : '\x1b' ∉ (levelName level).toList := fun hmem =>
        hline (hfirst.eq ▸ List.mem_append_right u (List.mem_append_left v hmem))
      -- There is no sequence yet that the level could begin in.
      have hcuts : ¬ Cuts u ((levelName level).toList ++ v) := fun hcuts =>
        hline (hfirst.eq ▸ List.mem_append_left _ hcuts.escape_mem)
      rw [heq]
      exact (Painted.refl hline).replace hfirst.eq hname hcuts (.paint _ hname)
    · rw [heq]
      exact .refl hline
  rw [timedLine]
  rcases paintTime_cases (replaceFirst (levelName level).toList
    ((Colour.ofLevel level).paint (levelName level).toList) line) with ⟨u, w, v, hsplit, hlength, htime, heq⟩ | heq
  · have hw := escape_not_mem_time htime hlength
    rw [heq]
    exact hlevel.replace hsplit hw (not_cuts_time htime) (.paint _ hw)
  · rw [heq]
    exact hlevel

/-- **The logger.** Its colours are decoration exactly if it tears no sequence. -/
theorem withoutColours_paintLogger_iff {logger : List Char} (hlogger : '\x1b' ∉ logger) :
    withoutColours (paintLogger logger (timedLine level line)) = line ↔ ¬ IsTorn logger (timedLine level line) := by
  have hpainted : Painted (timedLine level line) line := painted_timedLine hline
  by_cases hempty : logger = []
  · subst hempty
    exact iff_of_true hpainted.withoutColours_eq not_isTorn_nil
  rw [paintLogger_of_ne hempty]
  rcases replaceFirst_cases (dashed logger) (Colour.blue.paint logger ++ [' ', '-', ' ']) (timedLine level line) with
    ⟨u, v, hfirst, heq⟩ | ⟨hnone, heq⟩
  · rw [heq]
    by_cases hcuts : Cuts u (dashed logger ++ v)
    · exact iff_of_false (hpainted.withoutColours_ne hfirst.eq hcuts) fun h => h ⟨u, v, hfirst, hcuts⟩
    · have hdash : '\x1b' ∉ [' ', '-', ' '] := by decide
      have hdashed : '\x1b' ∉ dashed logger := by simpa [dashed] using hlogger
      have hnew : Painted (Colour.blue.paint logger ++ [' ', '-', ' ']) (dashed logger) :=
        (Painted.paint _ hlogger).append (.refl hdash)
      refine iff_of_true (hpainted.replace hfirst.eq hdashed hcuts hnew).withoutColours_eq ?_
      rintro ⟨u', v', hfirst', hcuts'⟩
      obtain ⟨rfl, rfl⟩ := hfirst.unique hfirst'
      exact hcuts hcuts'
  · rw [heq]
    refine iff_of_true hpainted.withoutColours_eq ?_
    rintro ⟨u, v, hfirst, -⟩
    exact hnone ⟨u, v, (List.append_assoc ..).trans hfirst.eq.symm⟩

end Lines

/-! ### Entries -/

theorem escape_not_mem_line (format : LineFormat) {parts : LineParts} (h : ∀ p, '\x1b' ∉ (parts.at p).toList) :
    '\x1b' ∉ (format.line parts).toList := by
  have htime := h .time
  have hlogger := h .logger
  have hlevel := h .level
  have hmessage := h .message
  simp only [LineParts.at] at htime hlogger hlevel hmessage
  cases format <;>
    simp [LineFormat.line, LineFormat.pieces, String.join, LineParts.at, htime, hlogger, hlevel, hmessage]

theorem escape_not_mem_levelName (level : Level) : '\x1b' ∉ (levelName level).toList := fun hmem =>
  absurd (isBare_of_mem_levelName hmem) (by decide)

section Entries

variable (format : LineFormat) {time : String} {e : LogEntry}

theorem toList_render_coloured : ((⟨format, true⟩ : Formatter).render time e).toList =
    paintLogger e.logger.toList (timedLine e.level ((⟨format, false⟩ : Formatter).render time e).toList) :=
  String.toList_ofList

/-- **Colours.** Without its colour sequences a coloured line is the plain line, exactly if the logger is not first
found at a place within a sequence.  It is never found there, unless it begins with the end of a sequence. -/
theorem withoutColours_render_iff (htime : '\x1b' ∉ time.toList) (hlogger : '\x1b' ∉ e.logger.toList)
    (hmessage : '\x1b' ∉ e.message.toList) :
    (withoutColours ((⟨format, true⟩ : Formatter).render time e).toList =
        ((⟨format, false⟩ : Formatter).render time e).toList ↔
      ¬ IsTorn e.logger.toList (timedLine e.level ((⟨format, false⟩ : Formatter).render time e).toList)) ∧
    (IsTorn e.logger.toList (timedLine e.level ((⟨format, false⟩ : Formatter).render time e).toList) →
      ∃ s t, s ≠ [] ∧ t ≠ [] ∧ IsSequence (s ++ t) ∧ t <+: e.logger.toList) := by
  have hline : '\x1b' ∉ ((⟨format, false⟩ : Formatter).render time e).toList := by
    refine escape_not_mem_line format fun p => ?_
    cases p with
    | time => exact htime
    | logger => exact hlogger
    | level => exact escape_not_mem_levelName e.level
    | message => exact hmessage
  rw [toList_render_coloured]
  exact ⟨withoutColours_paintLogger_iff hline hlogger, IsTorn.exists_prefix⟩

end Entries

/-- The colours of an ordinary error are decoration. -/
theorem withoutColours_render_iff_plainError :
    '\x1b' ∉ "2024-01-02 03:04:05".toList ∧ '\x1b' ∉ "core.template".toList ∧ '\x1b' ∉ "boom".toList ∧
      withoutColours ((⟨.detailed, true⟩ : Formatter).render "2024-01-02 03:04:05"
          ⟨40, "core.template", "boom"⟩).toList =
        ((⟨.detailed, false⟩ : Formatter).render "2024-01-02 03:04:05" ⟨40, "core.template", "boom"⟩).toList := by
  have htime : '\x1b' ∉ "2024-01-02 03:04:05".toList := by decide
  have hlogger : '\x1b' ∉ "core.template".toList := by decide
  have hmessage : '\x1b' ∉ "boom".toList := by decide
  obtain ⟨hiff, hprefix⟩ := withoutColours_render_iff (e := ⟨40, "core.template", "boom"⟩) .detailed htime hlogger
    hmessage
  refine ⟨htime, hlogger, hmessage, hiff.mpr fun htorn => ?_⟩
  obtain ⟨s, t, hs, ht, hsequence, more, hmore⟩ := hprefix htorn
  obtain ⟨c, t, rfl⟩ := List.exists_cons_of_ne_nil ht
  obtain rfl : c = 'c' := (List.cons.inj hmore).1
  exact absurd (hsequence.mem_behind hs List.mem_cons_self) (by decide)

/-- The colours of a logger `m` are not: the `m` of a sequence is taken for it. -/
theorem not_withoutColours_render_m :
    withoutColours ((⟨.simple, true⟩ : Formatter).render "2024-01-02 03:04:05" ⟨40, "m", "boom"⟩).toList ≠
      ((⟨.simple, false⟩ : Formatter).render "2024-01-02 03:04:05" ⟨40, "m", "boom"⟩).toList := by
  decide

end ViewGraph
