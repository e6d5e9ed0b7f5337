import Mathlib.Data.List.TakeWhile
import ViewGraph.Document.Text
import ViewGraph.Proofs.JsonData
import ViewGraph.Proofs.Tables

/-!
# What is read from JSON text

Whatever the reader makes of a text are the data of a JSON document, and every whole number in them can be shown.

* `readDigits_lt`: a run of digits denotes a number that has no more of them.
* `isShortDocument_of_readLeaf`, `isShortDocument_of_readValue`: so it is with a value that has no parts, and with
  every value.
* `isShortDocument_of_ofText`: so it is with the text of a file.
-/

namespace ViewGraph

namespace Json

variable {cs rest : List Char} {v : Value}

/-! ### Leaves -/

theorem readDigits_lt {ds : List Char} (hds : ∀ c ∈ ds, c.isDigit = true) : readDigits ds < Nat.pow 10 ds.length := by
  induction ds using List.reverseRecOn with
  | nil => decide
  | append_singleton ds c ih =>
    obtain ⟨hds, hc⟩ := List.forall_mem_append.mp hds
    have hvalue : digitValue c < 10 := by
      have hdigit := hc c (by simp)
      rw [Char.isDigit, Bool.and_eq_true, decide_eq_true_iff, decide_eq_true_iff] at hdigit
      have hhigh : c.toNat ≤ 57 := hdigit.2
      show c.toNat - 48 < 10
      omega
    have hlast : readDigits (ds ++ [c]) = 10 * readDigits ds + digitValue c := by
      simp [readDigits]
    have hlt := ih hds
    have hpow : Nat.pow 10 (ds.length + 1) = Nat.pow 10 ds.length * 10 := rfl
    rw [hlast, List.length_append, List.length_singleton, hpow]
    omega

theorem isDigit_of_mem_wholePart {c : Char} (hc : c ∈ (wholePart cs).1) : c.isDigit = true := by
  cases cs with
  | nil => simp [wholePart] at hc
  | cons d cs =>
    rw [wholePart] at hc
    split_ifs at hc with hzero
    · obtain rfl := List.mem_singleton.mp hc
      rw [hzero]
      rfl
    · exact List.mem_takeWhile_imp hc

theorem isShortDocument_of_readUnsigned {negative : Bool} (h : readUnsigned negative cs = some (.ok (v, rest))) :
    v.isShortDocument = true := by
  unfold readUnsigned at h
  by_cases hempty : (wholePart cs).1.isEmpty = true
  · simp [hempty] at h
  simp only at h
  rw [if_neg hempty] at h
  split at h
  · by_cases hlong : maxDigits < (wholePart cs).1.length
    · rw [if_pos hlong] at h
      cases Option.some.inj h
    · rw [if_neg hlong] at h
      obtain ⟨rfl, -⟩ := Prod.mk.inj (Except.ok.inj (Option.some.inj h))
      have hlt : readDigits (wholePart cs).1 < Nat.pow 10 (wholePart cs).1.length :=
        readDigits_lt fun c hc => isDigit_of_mem_wholePart hc
      have hpos : 0 < (wholePart cs).1.length := List.length_pos_iff.mpr fun hnil => hempty (by simp [hnil])
      have hlength := ((length_writeNat_le_iff hpos).mpr hlt).trans (Nat.not_lt.mp hlong)
      cases negative <;> simpa [Value.isShortDocument, Value.isJson, Number.isShown] using hlength
  · obtain ⟨rfl, -⟩ := Prod.mk.inj (Except.ok.inj (Option.some.inj h))
    rfl

theorem isShortDocument_of_readLeaf (h : readLeaf cs = .ok (v, rest)) : v.isShortDocument = true := by
  unfold readLeaf at h
  split at h
  · rename_i found hfound
    obtain ⟨⟨word, w⟩, hmem, hw⟩ := List.exists_of_findSome?_eq_some hfound
    obtain ⟨behind, -, hfound⟩ := Option.map_eq_some_iff.mp hw
    obtain rfl := Except.ok.inj h
    obtain ⟨rfl, -⟩ := Prod.mk.inj hfound
    have hwords : ∀ e ∈ words, e.2.isShortDocument = true := by decide
    exact hwords _ hmem
  · cases hnumber : readNumber cs with
    | none => simp [hnumber] at h
    | some r =>
      rw [hnumber] at h
      unfold readNumber at hnumber
      split at hnumber
      · exact isShortDocument_of_readUnsigned (hnumber.trans (congrArg some h))
      · exact isShortDocument_of_readUnsigned (hnumber.trans (congrArg some h))

/-! ### Values -/

mutual

/-- **Reading.** A value that is read is a document. -/
theorem isShortDocument_of_readValue : ∀ {fuel : ℕ} {cs rest : List Char} {v : Value},
    readValue fuel cs = .ok (v, rest) → v.isShortDocument = true
  | 0, _, _, _, h => by simp [readValue] at h
  | _ + 1, [], _, _, h => by simp [readValue] at h
  | fuel + 1, c :: cs, rest, v, h => by
    rw [readValue] at h
    split_ifs at h with hquote hbracket hbrace
    · obtain ⟨⟨s, after⟩, -, h⟩ := Logged.bind_eq_ok.mp h
      obtain ⟨rfl, -⟩ := Prod.mk.inj (Except.ok.inj h)
      rfl
    · split at h
      · obtain ⟨rfl, -⟩ := Prod.mk.inj (Except.ok.inj h)
        rfl
      · obtain ⟨⟨items, after⟩, hitems, h⟩ := Logged.bind_eq_ok.mp h
        obtain ⟨rfl, -⟩ := Prod.mk.inj (Except.ok.inj h)
        exact Value.isJson_list.mpr (isShortDocument_of_readItems hitems)
    · split at h
      · obtain ⟨rfl, -⟩ := Prod.mk.inj (Except.ok.inj h)
        rfl
      · obtain ⟨⟨members, after⟩, hmembers, h⟩ := Logged.bind_eq_ok.mp h
        obtain ⟨rfl, -⟩ := Prod.mk.inj (Except.ok.inj h)
        refine Value.isJson_dict.mpr ⟨Table.nodup_names_ofList members, fun a ha => ?_⟩
        exact isShortDocument_of_readMembers hmembers a (Table.mem_of_mem_ofList ha)
    · exact isShortDocument_of_readLeaf h

theorem isShortDocument_of_readItems : ∀ {fuel : ℕ} {cs rest : List Char} {items : List Value},
    readItems fuel cs = .ok (items, rest) → ∀ v ∈ items, v.isShortDocument = true
  | 0, _, _, _, h => by simp [readItems] at h
  | fuel + 1, cs, rest, items, h => by
    rw [readItems] at h
    obtain ⟨⟨v, after⟩, hv, h⟩ := Logged.bind_eq_ok.mp h
    have hitem := isShortDocument_of_readValue hv
    simp only at h
    split at h
    · obtain ⟨rfl, -⟩ := Prod.mk.inj (Except.ok.inj h)
      simpa using hitem
    · obtain ⟨⟨vs, behind⟩, hvs, h⟩ := Logged.bind_eq_ok.mp h
      obtain ⟨rfl, -⟩ := Prod.mk.inj (Except.ok.inj h)
      exact List.forall_mem_cons.mpr ⟨hitem, isShortDocument_of_readItems hvs⟩
    · simp at h

theorem isShortDocument_of_readMembers : ∀ {fuel : ℕ} {cs rest : List Char} {members : List (String × Value)},
    readMembers fuel cs = .ok (members, rest) → ∀ a ∈ members, a.2.isShortDocument = true
  | 0, _, _, _, h => by simp [readMembers] at h
  | fuel + 1, cs, rest, members, h => by
    unfold readMembers at h
    split at h
    · obtain ⟨⟨name, after⟩, -, h⟩ := Logged.bind_eq_ok.mp h
      simp only at h
      split at h
      · obtain ⟨⟨v, behind⟩, hv, h⟩ := Logged.bind_eq_ok.mp h
        have hmember := isShortDocument_of_readValue hv
        simp only at h
        split at h
        · obtain ⟨rfl, -⟩ := Prod.mk.inj (Except.ok.inj h)
          simpa using hmember
        · obtain ⟨⟨more, last⟩, hmore, h⟩ := Logged.bind_eq_ok.mp h
          obtain ⟨rfl, -⟩ := Prod.mk.inj (Except.ok.inj h)
          exact List.forall_mem_cons.mpr ⟨hmember, isShortDocument_of_readMembers hmore⟩
        · simp at h
      · simp at h
    · simp at h

end

end Json

/-! ### Texts -/

theorem Document.isShortDocument_of_ofText {text : List Char} {v : Value} (h : Document.ofText text = .ok v) :
    v.isShortDocument = true := by
  unfold Document.ofText at h
  cases hread : Json.read (unifyLineEnds text) with
  | error e =>
    simp only [hread] at h
    split_ifs at h
  | ok w =>
    simp only [hread] at h
    obtain rfl := Except.ok.inj h
    unfold Json.read at hread
    split_ifs at hread
    obtain ⟨⟨w, rest⟩, hvalue, hend⟩ := Logged.bind_eq_ok.mp hread
    simp only at hend
    split at hend
    · obtain rfl := Except.ok.inj hend
      exact Json.isShortDocument_of_readValue hvalue
    · simp at hend

end ViewGraph
