import ViewGraph.Proofs.JsonBrackets

/-!
# What a string takes up in JSON text

A character that has to be escaped takes two places or more, any other one or more.  So what is read of a text is
never longer than the text, and a text has no room for a string that it does not hold already.

* `IsBare c`: a character that can stand for itself in a string.
* `bodyLength cs`: the least number of places that a string of these characters takes.
* `membersLength members`: the least number of places that the members of a table take.
* `exists_body_of_readChars`: a string takes that many places up to its closing quote.
* `membersLength_add_le`: the members of a table take their places.
* `readString_bare`: characters that stand for themselves are read as they are.
* `cases_of_readMembers_opened`, `exists_body_of_readMembers_opened`: a first member that is a string.
-/

namespace ViewGraph.Json

/-! ### Definitions -/

/-- A character that can stand for itself in a string. -/
def IsBare (c : Char) : Prop := c ≠ '"' ∧ c ≠ '\\' ∧ 0x20 ≤ c.toNat

instance : DecidablePred IsBare := fun c =>
  inferInstanceAs (Decidable (c ≠ '"' ∧ c ≠ '\\' ∧ 0x20 ≤ c.toNat))

/-- The least number of places that a string takes between its quotes. -/
def bodyLength : List Char → ℕ
  | [] => 0
  | c :: cs => (if IsBare c then 1 else 2) + bodyLength cs

/-- The least number of places that a string takes. -/
def stringLength (s : String) : ℕ := bodyLength s.toList + 2

/-- The least number of places that a value takes, if it is a string. -/
def valueLength : Value → ℕ
  | .str s => stringLength s
  | _ => 0

/-- The least number of places that a member takes, with the colon in it and the mark behind it. -/
def memberLength (a : String × Value) : ℕ := stringLength a.1 + 1 + valueLength a.2 + 1

/-- The least number of places that members take. -/
def membersLength : List (String × Value) → ℕ
  | [] => 0
  | a :: rest => memberLength a + membersLength rest

/-- The text of a member that is a string, up to the opening quote of that, and what stands behind. -/
def opened (name cs : List Char) : List Char := '"' :: (name ++ '"' :: ':' :: ' ' :: '"' :: cs)

/-- What stands behind an opening quote: some characters, the closing quote, and a comma before more members. -/
def followed (cs next : List Char) : List Char := cs ++ '"' :: ',' :: ' ' :: next

theorem isBare_of_all {cs : List Char} (h : (cs.all fun c => IsBare c) = true) : ∀ c ∈ cs, IsBare c :=
  fun c hc => of_decide_eq_true (List.all_eq_true.mp h c hc)

/-! ### Lengths -/

@[simp] theorem valueLength_list (items : List Value) : valueLength (.list items) = 0 := rfl

@[simp] theorem valueLength_dict (members : List (String × Value)) : valueLength (.dict members) = 0 := rfl

theorem length_le_bodyLength (cs : List Char) : cs.length ≤ bodyLength cs := by
  induction cs with
  | nil => exact Nat.le_refl 0
  | cons c cs ih =>
    rw [bodyLength, List.length_cons]
    split_ifs <;> omega

/-- Characters that take one place each stand for themselves. -/
theorem isBare_of_bodyLength_le {cs : List Char} (h : bodyLength cs ≤ cs.length) : ∀ c ∈ cs, IsBare c := by
  induction cs with
  | nil => exact fun c hc => absurd hc List.not_mem_nil
  | cons c cs ih =>
    have hrest := length_le_bodyLength cs
    rw [bodyLength, List.length_cons] at h
    by_cases hc : IsBare c
    · rw [if_pos hc] at h
      exact List.forall_mem_cons.mpr ⟨hc, ih (by omega)⟩
    · rw [if_neg hc] at h
      omega

theorem memberLength_le {a : String × Value} {members : List (String × Value)} (ha : a ∈ members) :
    memberLength a ≤ membersLength members := by
  induction members with
  | nil => exact absurd ha List.not_mem_nil
  | cons c rest ih =>
    rcases List.mem_cons.mp ha with rfl | ha
    · exact Nat.le_add_right _ _
    · exact (ih ha).trans (Nat.le_add_left _ _)

/-- Two members take the places of both. -/
theorem memberLength_add_le {a b : String × Value} {members : List (String × Value)} (ha : a ∈ members)
    (hb : b ∈ members) (hne : a ≠ b) : memberLength a + memberLength b ≤ membersLength members := by
  induction members with
  | nil => exact absurd ha List.not_mem_nil
  | cons c rest ih =>
    rcases List.mem_cons.mp ha with rfl | harest <;> rcases List.mem_cons.mp hb with rfl | hbrest
    · exact absurd rfl hne
    · exact Nat.add_le_add_left (memberLength_le hbrest) _
    · exact (Nat.add_comm _ _).trans_le (Nat.add_le_add_left (memberLength_le harest) _)
    · exact (ih harest hbrest).trans (Nat.le_add_left _ _)

/-! ### Strings -/

theorem eq_append_of_dropWord? {word cs rest : List Char} (h : dropWord? word cs = some rest) :
    cs = word ++ rest := by
  induction word generalizing cs with
  | nil => exact Option.some.inj h
  | cons w word ih =>
    cases cs with
    | nil => simp [dropWord?] at h
    | cons c cs =>
      rw [dropWord?] at h
      split_ifs at h with hc
      rw [hc, ih h, List.cons_append]

theorem suffix_of_code? {cs after : List Char} {n : ℕ} (h : code? cs = some (n, after)) : after <:+ cs := by
  unfold code? at h
  split at h
  · simp at h
  · rename_i next rest hdrop
    obtain ⟨m, -, heq⟩ := Option.map_eq_some_iff.mp h
    rw [← (Prod.mk.inj heq).2, ← hdrop]
    exact List.drop_suffix 4 cs

/-- An escape takes at least the character behind its backslash. -/
theorem suffix_of_readEscape {c d : Char} {cs rest : List Char} (h : readEscape (c :: cs) = .ok (d, rest)) :
    rest <:+ cs := by
  rw [readEscape] at h
  by_cases hu : c = 'u'
  · rw [if_pos hu] at h
    cases hcode : code? cs with
    | none => simp [hcode] at h
    | some r =>
      obtain ⟨n, after⟩ := r
      have hafter := suffix_of_code? hcode
      simp only [hcode] at h
      split at h
      · obtain ⟨-, rfl⟩ := Prod.mk.inj (Except.ok.inj h)
        exact hafter
      · rename_i tail htail
        have hdrop : dropWord? ['\\', 'u'] after = some tail := by
          split_ifs at htail
          exact htail
        have hbehind : tail <:+ after := ⟨_, (eq_append_of_dropWord? hdrop).symm⟩
        split_ifs at h
        · obtain ⟨-, rfl⟩ := Prod.mk.inj (Except.ok.inj h)
          exact hafter
        · split at h
          · simp at h
          · rename_i m behind hsecond
            split_ifs at h
            · obtain ⟨-, rfl⟩ := Prod.mk.inj (Except.ok.inj h)
              exact (suffix_of_code? hsecond).trans (hbehind.trans hafter)
            · obtain ⟨-, rfl⟩ := Prod.mk.inj (Except.ok.inj h)
              exact hafter
  · rw [if_neg hu] at h
    split at h
    · obtain ⟨-, rfl⟩ := Prod.mk.inj (Except.ok.inj h)
      exact List.suffix_rfl
    · simp at h

/-- **Bodies.** A string takes its places up to its closing quote. -/
theorem exists_body_of_readChars {opening cs ds rest : List Char} {fuel : ℕ}
    (h : readChars opening fuel cs = .ok (ds, rest)) :
    ∃ body, cs = body ++ '"' :: rest ∧ bodyLength ds ≤ body.length := by
  induction fuel generalizing cs ds with
  | zero => simp [readChars] at h
  | succ fuel ih =>
    cases cs with
    | nil => simp [readChars] at h
    | cons c cs =>
      rw [readChars] at h
      split_ifs at h with hquote hslash hend hcontrol
      · obtain ⟨rfl, rfl⟩ := Prod.mk.inj (Except.ok.inj h)
        exact ⟨[], by rw [hquote]; rfl, Nat.le_refl 0⟩
      · obtain ⟨⟨d, after⟩, hescape, h⟩ := Logged.bind_eq_ok.mp h
        obtain ⟨⟨more, last⟩, hmore, h⟩ := Logged.bind_eq_ok.mp h
        obtain ⟨rfl, rfl⟩ := Prod.mk.inj (Except.ok.inj h)
        obtain ⟨body, rfl, hbody⟩ := ih hmore
        obtain ⟨e, tail, rfl⟩ := List.exists_cons_of_ne_nil (l := cs) (by simpa using hend)
        obtain ⟨used, rfl⟩ := suffix_of_readEscape hescape
        refine ⟨c :: e :: (used ++ body), by simp, ?_⟩
        rw [bodyLength, List.length_cons, List.length_cons, List.length_append]
        split_ifs <;> omega
      · obtain ⟨⟨more, last⟩, hmore, h⟩ := Logged.bind_eq_ok.mp h
        obtain ⟨rfl, rfl⟩ := Prod.mk.inj (Except.ok.inj h)
        obtain ⟨body, rfl, hbody⟩ := ih hmore
        have hbare : IsBare c := ⟨hquote, hslash, Nat.le_of_not_lt hcontrol⟩
        refine ⟨c :: body, rfl, ?_⟩
        rw [bodyLength, if_pos hbare, List.length_cons]
        omega

theorem exists_body_of_readString {cs rest : List Char} {s : String} (h : readString cs = .ok (s, rest)) :
    ∃ body, cs = body ++ '"' :: rest ∧ bodyLength s.toList ≤ body.length := by
  obtain ⟨⟨ds, last⟩, hds, h⟩ := Logged.bind_eq_ok.mp h
  obtain ⟨rfl, rfl⟩ := Prod.mk.inj (Except.ok.inj h)
  simpa using exists_body_of_readChars hds

/-! ### Leaves -/

theorem suffix_of_wholePart (cs : List Char) : (wholePart cs).2 <:+ cs := by
  cases cs with
  | nil => exact List.suffix_rfl
  | cons c rest =>
    rw [wholePart]
    split_ifs
    · exact List.suffix_cons c rest
    · exact List.dropWhile_suffix _

theorem suffix_of_fractionPart? {cs ds rest : List Char} (h : fractionPart? cs = some (ds, rest)) : rest <:+ cs := by
  unfold fractionPart? at h
  split at h
  · rename_i after
    simp only at h
    split_ifs at h
    obtain ⟨-, rfl⟩ := Prod.mk.inj (Option.some.inj h)
    exact (List.dropWhile_suffix _).trans (List.suffix_cons _ after)
  · simp at h

theorem suffix_of_exponentDigits? {negative : Bool} {cs rest : List Char} {n : Int}
    (h : exponentDigits? negative cs = some (n, rest)) : rest <:+ cs := by
  unfold exponentDigits? at h
  simp only at h
  split_ifs at h <;> obtain ⟨-, rfl⟩ := Prod.mk.inj (Option.some.inj h) <;> exact List.dropWhile_suffix _

theorem suffix_of_exponentPart? {cs rest : List Char} {n : Int} (h : exponentPart? cs = some (n, rest)) :
    rest <:+ cs := by
  cases cs with
  | nil => simp [exponentPart?] at h
  | cons mark after =>
    refine List.IsSuffix.trans ?_ (List.suffix_cons mark after)
    unfold exponentPart? at h
    simp only at h
    split_ifs at h
    split at h
    · exact (suffix_of_exponentDigits? h).trans (List.suffix_cons _ _)
    · exact (suffix_of_exponentDigits? h).trans (List.suffix_cons _ _)
    · exact suffix_of_exponentDigits? h

/-- A number is no string, and what follows it is the end of the text. -/
theorem valueLength_of_readUnsigned {negative : Bool} {cs rest : List Char} {v : Value}
    (h : readUnsigned negative cs = some (.ok (v, rest))) : valueLength v = 0 ∧ rest <:+ cs := by
  have hwhole := suffix_of_wholePart cs
  unfold readUnsigned at h
  by_cases hempty : (wholePart cs).1.isEmpty = true
  · simp [hempty] at h
  simp only at h
  rw [if_neg hempty] at h
  generalize hfraction : fractionPart? (wholePart cs).2 = fraction? at h
  generalize hexponent : exponentPart? (fraction?.elim (wholePart cs).2 (·.2)) = exponent? at h
  have hbehind : (fraction?.elim (wholePart cs).2 (·.2)) <:+ cs := by
    cases fraction? with
    | none => exact hwhole
    | some f => exact (suffix_of_fractionPart? hfraction).trans hwhole
  split at h
  · by_cases hlong : maxDigits < (wholePart cs).1.length
    · rw [if_pos hlong] at h
      cases Option.some.inj h
    · rw [if_neg hlong] at h
      obtain ⟨rfl, rfl⟩ := Prod.mk.inj (Except.ok.inj (Option.some.inj h))
      exact ⟨rfl, hwhole⟩
  · obtain ⟨rfl, rfl⟩ := Prod.mk.inj (Except.ok.inj (Option.some.inj h))
    refine ⟨rfl, ?_⟩
    cases exponent? with
    | none => cases fraction? <;> exact hbehind
    | some e => exact (suffix_of_exponentPart? hexponent).trans hbehind

theorem valueLength_of_readLeaf {cs rest : List Char} {v : Value} (h : readLeaf cs = .ok (v, rest)) :
    valueLength v = 0 ∧ rest <:+ cs := by
  unfold readLeaf at h
  split at h
  · rename_i found hfound
    obtain ⟨⟨word, w⟩, hmem, hw⟩ := List.exists_of_findSome?_eq_some hfound
    obtain ⟨behind, hdrop, hfound⟩ := Option.map_eq_some_iff.mp hw
    obtain rfl := Except.ok.inj h
    obtain ⟨rfl, rfl⟩ := Prod.mk.inj hfound
    have hwords : ∀ e ∈ words, valueLength e.2 = 0 := by decide
    exact ⟨hwords _ hmem, word, (eq_append_of_dropWord? hdrop).symm⟩
  · cases hnumber : readNumber cs with
    | none => simp [hnumber] at h
    | some r =>
      rw [hnumber] at h
      unfold readNumber at hnumber
      split at hnumber
      · obtain ⟨hlength, hrest⟩ := valueLength_of_readUnsigned (hnumber.trans (congrArg some h))
        exact ⟨hlength, hrest.trans (List.suffix_cons _ _)⟩
      · exact valueLength_of_readUnsigned (hnumber.trans (congrArg some h))

/-! ### Values -/

theorem length_skipBlanks_le (cs : List Char) : (skipBlanks cs).length ≤ cs.length :=
  (List.dropWhile_suffix _).length_le

mutual

/-- **Lengths.** A value takes its places of the text that it is read from. -/
theorem valueLength_add_le : ∀ {fuel : ℕ} {cs rest : List Char} {v : Value},
    readValue fuel cs = .ok (v, rest) → valueLength v + rest.length ≤ cs.length
  | 0, _, _, _, h => by simp [readValue] at h
  | _ + 1, [], _, _, h => by simp [readValue] at h
  | fuel + 1, c :: cs, rest, v, h => by
    rw [readValue] at h
    have hskip := length_skipBlanks_le cs
    rw [List.length_cons]
    split_ifs at h with hquote hbracket hbrace
    · obtain ⟨⟨s, after⟩, hs, h⟩ := Logged.bind_eq_ok.mp h
      obtain ⟨rfl, rfl⟩ := Prod.mk.inj (Except.ok.inj h)
      obtain ⟨body, rfl, hbody⟩ := exists_body_of_readString hs
      rw [valueLength, stringLength, List.length_append, List.length_cons]
      omega
    · split at h
      · rename_i after heq
        obtain ⟨rfl, rfl⟩ := Prod.mk.inj (Except.ok.inj h)
        rw [heq, List.length_cons] at hskip
        rw [valueLength_list]
        omega
      · obtain ⟨⟨items, after⟩, hitems, h⟩ := Logged.bind_eq_ok.mp h
        obtain ⟨rfl, rfl⟩ := Prod.mk.inj (Except.ok.inj h)
        have := length_of_readItems hitems
        rw [valueLength_list]
        omega
    · split at h
      · rename_i after heq
        obtain ⟨rfl, rfl⟩ := Prod.mk.inj (Except.ok.inj h)
        rw [heq, List.length_cons] at hskip
        rw [valueLength_dict]
        omega
      · obtain ⟨⟨members, after⟩, hmembers, h⟩ := Logged.bind_eq_ok.mp h
        obtain ⟨rfl, rfl⟩ := Prod.mk.inj (Except.ok.inj h)
        have := membersLength_add_le hmembers
        rw [valueLength_dict]
        omega
    · obtain ⟨hlength, hrest⟩ := valueLength_of_readLeaf h
      have := hrest.length_le
      rw [List.length_cons] at this
      omega

theorem length_of_readItems : ∀ {fuel : ℕ} {cs rest : List Char} {items : List Value},
    readItems fuel cs = .ok (items, rest) → rest.length ≤ cs.length
  | 0, _, _, _, h => by simp [readItems] at h
  | fuel + 1, cs, rest, items, h => by
    rw [readItems] at h
    obtain ⟨⟨v, after⟩, hv, h⟩ := Logged.bind_eq_ok.mp h
    have hitem := valueLength_add_le hv
    have hskip := length_skipBlanks_le after
    simp only at h
    split at h
    · rename_i last heq
      obtain ⟨-, rfl⟩ := Prod.mk.inj (Except.ok.inj h)
      rw [heq, List.length_cons] at hskip
      omega
    · rename_i next heq
      obtain ⟨⟨vs, behind⟩, hvs, h⟩ := Logged.bind_eq_ok.mp h
      obtain rfl : behind = rest := (Prod.mk.inj (Except.ok.inj h)).2
      have hrest := length_of_readItems hvs
      have hnext := length_skipBlanks_le next
      rw [heq, List.length_cons] at hskip
      omega
    · simp at h

/-- **Members.** The members of a table take their places of the text that they are read from. -/
theorem membersLength_add_le : ∀ {fuel : ℕ} {cs rest : List Char} {members : List (String × Value)},
    readMembers fuel cs = .ok (members, rest) → membersLength members + rest.length ≤ cs.length
  | 0, _, _, _, h => by simp [readMembers] at h
  | fuel + 1, cs, rest, members, h => by
    unfold readMembers at h
    split at h
    · rename_i text
      obtain ⟨⟨name, after⟩, hname, h⟩ := Logged.bind_eq_ok.mp h
      obtain ⟨body, hbody, hlength⟩ := exists_body_of_readString hname
      have hafter := length_skipBlanks_le after
      simp only at h
      split at h
      · rename_i more hcolon
        obtain ⟨⟨v, behind⟩, hv, h⟩ := Logged.bind_eq_ok.mp h
        have hmember := valueLength_add_le hv
        have hmore := length_skipBlanks_le more
        have hskip := length_skipBlanks_le behind
        rw [hcolon, List.length_cons] at hafter
        simp only at h
        split at h
        · rename_i last heq
          obtain ⟨rfl, rfl⟩ := Prod.mk.inj (Except.ok.inj h)
          rw [heq, List.length_cons] at hskip
          simp only [hbody, membersLength, memberLength, stringLength, List.length_cons, List.length_append]
          omega
        · rename_i next heq
          obtain ⟨⟨later, last⟩, hlater, h⟩ := Logged.bind_eq_ok.mp h
          obtain ⟨rfl, rfl⟩ := Prod.mk.inj (Except.ok.inj h)
          have hrest := membersLength_add_le hlater
          have hnext := length_skipBlanks_le next
          rw [heq, List.length_cons] at hskip
          simp only [hbody, membersLength, memberLength, stringLength, List.length_cons, List.length_append]
          omega
        · simp at h
      · simp at h
    · simp at h

end

/-! ### Members that are strings -/

theorem skipBlanks_opened (name cs : List Char) : skipBlanks (opened name cs) = opened name cs :=
  skipBlanks_cons rfl _

/-- Characters that stand for themselves are read as they are. -/
theorem readChars_bare {opening cs : List Char} (h : ∀ c ∈ cs, IsBare c) (rest : List Char) {fuel : ℕ}
    (hfuel : cs.length < fuel) : readChars opening fuel (cs ++ '"' :: rest) = .ok (cs, rest) := by
  induction cs generalizing fuel with
  | nil =>
    obtain ⟨fuel, rfl⟩ := Nat.exists_eq_add_of_lt hfuel
    simp [readChars]
  | cons c cs ih =>
    obtain ⟨fuel, rfl⟩ := Nat.exists_eq_add_one_of_ne_zero (n := fuel) (by omega)
    obtain ⟨⟨hquote, hslash, hcontrol⟩, hcs⟩ := List.forall_mem_cons.mp h
    rw [List.cons_append, readChars, if_neg hquote, if_neg hslash, if_neg (Nat.not_lt_of_le hcontrol),
      ih hcs (by simpa using hfuel)]
    rfl

theorem readString_bare {cs : List Char} (h : ∀ c ∈ cs, IsBare c) (rest : List Char) :
    readString (cs ++ '"' :: rest) = .ok (String.ofList cs, rest) := by
  have hfuel : cs.length < (cs ++ '"' :: rest).length + 1 := by
    rw [List.length_append]
    omega
  rw [readString, readChars_bare h rest hfuel]
  rfl

theorem readValue_quote {fuel : ℕ} {cs rest : List Char} {s : String} (h : readString cs = .ok (s, rest)) :
    readValue (fuel + 1) ('"' :: cs) = .ok (.str s, rest) := by
  rw [readValue, if_pos rfl, h]
  rfl

variable {name cs rest : List Char} {members : List (String × Value)}

/-- The first of some members is a string, and it is the last one, or more members are read behind it. -/
theorem cases_of_readMembers_opened (hname : ∀ c ∈ name, IsBare c) {fuel : ℕ}
    (h : readMembers fuel (opened name cs) = .ok (members, rest)) :
    ∃ s behind, readString cs = .ok (s, behind) ∧
      ((skipBlanks behind = '\x7d' :: rest ∧ members = [(String.ofList name, .str s)]) ∨
        ∃ less next later, skipBlanks behind = ',' :: next ∧
          readMembers less (skipBlanks next) = .ok (later, rest) ∧
          members = (String.ofList name, .str s) :: later) := by
  cases fuel with
  | zero => simp [readMembers] at h
  | succ fuel =>
    rw [opened, readMembers] at h
    obtain ⟨⟨first, after⟩, hfirst, h⟩ := Logged.bind_eq_ok.mp h
    rw [readString_bare hname] at hfirst
    obtain ⟨rfl, rfl⟩ := Prod.mk.inj (Except.ok.inj hfirst)
    simp only [skipBlanks_cons (c := ':') rfl] at h
    obtain ⟨⟨v, behind⟩, hv, h⟩ := Logged.bind_eq_ok.mp h
    have hs : ∃ s, readString cs = .ok (s, behind) ∧ v = .str s := by
      cases fuel with
      | zero => simp [readValue] at hv
      | succ fuel =>
        have hskip : skipBlanks (' ' :: '"' :: cs) = '"' :: cs := rfl
        rw [hskip, readValue, if_pos rfl] at hv
        obtain ⟨⟨s, after⟩, hs, hv⟩ := Logged.bind_eq_ok.mp hv
        obtain ⟨rfl, rfl⟩ := Prod.mk.inj (Except.ok.inj hv)
        exact ⟨s, hs, rfl⟩
    obtain ⟨s, hs, rfl⟩ := hs
    refine ⟨s, behind, hs, ?_⟩
    simp only at h
    split at h
    · rename_i last heq
      obtain ⟨rfl, rfl⟩ := Prod.mk.inj (Except.ok.inj h)
      exact .inl ⟨heq, rfl⟩
    · rename_i next heq
      obtain ⟨⟨later, last⟩, hlater, h⟩ := Logged.bind_eq_ok.mp h
      obtain ⟨rfl, rfl⟩ := Prod.mk.inj (Except.ok.inj h)
      exact .inr ⟨fuel, next, later, heq, hlater, rfl⟩
    · simp at h

/-- The members behind the first one have no more room than there is behind its string. -/
theorem exists_body_of_readMembers_opened (hname : ∀ c ∈ name, IsBare c) {fuel : ℕ}
    (h : readMembers fuel (opened name cs) = .ok (members, rest)) :
    ∃ s body behind later, cs = body ++ '"' :: behind ∧ bodyLength s.toList ≤ body.length ∧
      members = (String.ofList name, .str s) :: later ∧ membersLength later < behind.length := by
  obtain ⟨s, behind, hs, hlater⟩ := cases_of_readMembers_opened hname h
  obtain ⟨body, hcs, hbody⟩ := exists_body_of_readString hs
  have hskip := length_skipBlanks_le behind
  rcases hlater with ⟨hend, rfl⟩ | ⟨less, next, later, hcomma, hlater, rfl⟩
  · refine ⟨s, body, behind, [], hcs, hbody, rfl, ?_⟩
    rw [hend, List.length_cons] at hskip
    rw [membersLength]
    omega
  · refine ⟨s, body, behind, later, hcs, hbody, rfl, ?_⟩
    have hnext := length_skipBlanks_le next
    have hroom := membersLength_add_le hlater
    rw [hcomma, List.length_cons] at hskip
    omega

variable {value next : List Char} (hname : ∀ c ∈ name, IsBare c) (hvalue : ∀ c ∈ value, IsBare c)

include hname hvalue

/-- Behind a member whose characters stand for themselves the other members are read. -/
theorem exists_of_readMembers_followed {other : List Char} {fuel : ℕ}
    (h : readMembers fuel (opened name (followed value (opened other next))) = .ok (members, rest)) :
    ∃ less later, readMembers less (opened other next) = .ok (later, rest) ∧
      members = (String.ofList name, .str (String.ofList value)) :: later := by
  obtain ⟨s, behind, hs, hlater⟩ := cases_of_readMembers_opened hname h
  rw [followed, readString_bare hvalue] at hs
  obtain ⟨rfl, rfl⟩ := Prod.mk.inj (Except.ok.inj hs)
  rcases hlater with ⟨hend, -⟩ | ⟨less, after, later, hcomma, hlater, rfl⟩
  · cases (List.cons.inj hend).1
  · obtain rfl : ' ' :: opened other next = after := (List.cons.inj hcomma).2
    exact ⟨less, later, hlater, rfl⟩

theorem readMembers_followed {other : List Char} {fuel : ℕ}
    (h : readMembers (fuel + 1) (opened other next) = .ok (members, rest)) :
    readMembers (fuel + 2) (opened name (followed value (opened other next))) =
      .ok ((String.ofList name, .str (String.ofList value)) :: members, rest) :=
  readMembers_more (readString_bare hname _) (skipBlanks_cons rfl _)
    (readValue_quote (readString_bare hvalue _)) (skipBlanks_cons rfl _) h

theorem readMembers_closed (fuel : ℕ) (after : List Char) :
    readMembers (fuel + 2) (opened name (value ++ '"' :: '\x7d' :: after)) =
      .ok ([(String.ofList name, .str (String.ofList value))], after) :=
  readMembers_last (readString_bare hname _) (skipBlanks_cons rfl _)
    (readValue_quote (readString_bare hvalue _)) (skipBlanks_cons rfl _)

end ViewGraph.Json
