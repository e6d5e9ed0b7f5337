import ViewGraph.Proofs.Shown
import ViewGraph.Report

/-!
# What has a JSON text

Of JSON data the writer refuses a number that is not finite or has too many digits, wherever it stands, and
nothing else.

* `Value.IsIndent`: the indentations that are null or a number within bounds.
* `Number.isWritten`: the numbers that are not refused.
* `exists_writeValue_iff`: JSON data have a text exactly if every number in them can be written.
* `exists_layout`: these indentations have a layout.
* `exists_jsonText_iff`: so a table has a text under them, or not.
* `jsonText_refused_iff`: where every whole number can be shown, one that is not finite is why it has none.
-/

namespace ViewGraph

/-- An indentation is null, or a whole number of 64 bits. -/
def Value.IsIndent (indent : Value) : Prop :=
  indent = .null ∨ ∃ n, indent = .int n ∧ -wordBound ≤ n ∧ n < wordBound

/-- Can a number be written? One that is not finite cannot, nor one with too many digits. -/
def Number.isWritten : Number → Bool
  | whole n => isShown (whole n)
  | real x => x.isFinite

namespace Number

variable {n : Number}

theorem isFinite_of_isWritten (h : n.isWritten = true) : n.isFinite = true := by
  cases n with
  | whole n => rfl
  | real x => exact h

theorem isShown_of_isWritten (h : n.isWritten = true) : n.isShown = true := by
  cases n with
  | whole n => exact h
  | real x => rfl

theorem isWritten_of_isFinite (hfinite : n.isFinite = true) (hshown : n.isShown = true) : n.isWritten = true := by
  cases n with
  | whole n => exact hshown
  | real x => exact hfinite

end Number

namespace Json

variable {number : Number → Bool} (display : Value → Shown (List Char)) (layout : Layout)

theorem exists_ofShown_iff {α : Type} {x : Shown α} : (∃ a, ofShown x = .ok a) ↔ ∃ a, x = .ok a := by
  cases x <;> simp [ofShown]

mutual

/-- **Writing.** JSON data have a text exactly if every number in them can be written. -/
theorem exists_writeValue_iff : ∀ (v : Value) (depth : Nat), v.isJson number = true →
    ((∃ text, writeValue display layout depth v = .ok text) ↔ v.isJson Number.isWritten = true)
  | .null, _, _ => iff_of_true ⟨_, rfl⟩ rfl
  | .bool _, _, _ => iff_of_true ⟨_, rfl⟩ rfl
  | .int n, _, _ => by
    rw [writeValue, exists_ofShown_iff]
    exact exists_showInt_iff n
  | .str _, _, _ => iff_of_true ⟨_, rfl⟩ rfl
  | .float x, _, _ => by
    rw [writeValue, Value.isJson]
    split_ifs with hx
    · exact iff_of_true ⟨_, rfl⟩ hx
    · exact iff_of_false (by simp) hx
  | .list items, depth, h => by
    rw [writeValue, Value.isJson, exists_map_eq_ok_iff]
    exact exists_writeItems_iff items (depth + 1) (by simpa [Value.isJson] using h)
  | .dict members, depth, h => by
    obtain ⟨hnames, hmembers⟩ : (members.map (·.1)).Nodup ∧ Value.allMembersJson number members = true := by
      simpa [Value.isJson] using h
    rw [writeValue, Value.isJson, decide_eq_true hnames, Bool.true_and, exists_map_eq_ok_iff]
    exact exists_writeMembers_iff members (depth + 1) hmembers
  | .tuple _, _, h => by simp [Value.isJson] at h
  | .wrapped _ _, _, h => by simp [Value.isJson] at h
  | .action _ _, _, h => by simp [Value.isJson] at h
  | .page _ _, _, h => by simp [Value.isJson] at h
  | .style _ _ _, _, h => by simp [Value.isJson] at h
  | .fragment, _, h => by simp [Value.isJson] at h
  | .component _, _, h => by simp [Value.isJson] at h
  | .element _, _, h => by simp [Value.isJson] at h

theorem exists_writeItems_iff : ∀ (items : List Value) (depth : Nat), Value.allJson number items = true →
    ((∃ texts, writeItems display layout depth items = .ok texts) ↔
      Value.allJson Number.isWritten items = true)
  | [], _, _ => iff_of_true ⟨_, rfl⟩ rfl
  | v :: rest, depth, h => by
    obtain ⟨hv, hrest⟩ : v.isJson number = true ∧ Value.allJson number rest = true := by
      simpa [Value.allJson] using h
    rw [writeItems, Value.allJson, Bool.and_eq_true, exists_map₂_eq_ok_iff]
    exact and_congr (exists_writeValue_iff v depth hv) (exists_writeItems_iff rest depth hrest)

theorem exists_writeMembers_iff : ∀ (members : List (String × Value)) (depth : Nat),
    Value.allMembersJson number members = true →
    ((∃ texts, writeMembers display layout depth members = .ok texts) ↔
      Value.allMembersJson Number.isWritten members = true)
  | [], _, _ => iff_of_true ⟨_, rfl⟩ rfl
  | (name, v) :: rest, depth, h => by
    obtain ⟨hv, hrest⟩ : v.isJson number = true ∧ Value.allMembersJson number rest = true := by
      simpa [Value.allMembersJson] using h
    rw [writeMembers, Value.allMembersJson, Bool.and_eq_true, exists_map₂_eq_ok_iff]
    exact and_congr (exists_writeValue_iff v depth hv) (exists_writeMembers_iff rest depth hrest)

end

section

variable {ε α β γ : Type} {r : Except ε α} {s : Except ε β} {e : ε}

theorem map_ne_error {k : α → γ} (hr : r ≠ .error e) : (do let a ← r; return k a) ≠ .error e := by
  cases r with
  | ok a => nofun
  | error d => exact fun h => hr (congrArg Except.error (Except.error.inj h))

theorem map₂_ne_error {k : α → β → γ} (hr : r ≠ .error e) (hs : s ≠ .error e) :
    (do let a ← r; let b ← s; return k a b) ≠ .error e := by
  cases r with
  | ok a => exact map_ne_error hs
  | error d => exact fun h => hr (congrArg Except.error (Except.error.inj h))

end

mutual

/-- Where every whole number can be shown, none is refused. -/
theorem writeValue_ne_tooManyDigits : ∀ (v : Value) (depth : Nat), v.isJson Number.isShown = true →
    writeValue display layout depth v ≠ .error .tooManyDigits
  | .null, _, _ => nofun
  | .bool _, _, _ => nofun
  | .str _, _, _ => nofun
  | .int n, _, h => by
    obtain ⟨text, htext⟩ := (exists_showInt_iff n).mpr h
    rw [writeValue, htext]
    exact nofun
  | .float x, _, _ => by
    rw [writeValue]
    split_ifs <;> simp
  | .list items, depth, h => by
    rw [writeValue]
    exact map_ne_error (writeItems_ne_tooManyDigits items (depth + 1) h)
  | .dict members, depth, h => by
    rw [writeValue]
    exact map_ne_error (writeMembers_ne_tooManyDigits members (depth + 1) (Bool.and_eq_true_iff.mp h).2)
  | .tuple _, _, h => by simp [Value.isJson] at h
  | .wrapped _ _, _, h => by simp [Value.isJson] at h
  | .action _ _, _, h => by simp [Value.isJson] at h
  | .page _ _, _, h => by simp [Value.isJson] at h
  | .style _ _ _, _, h => by simp [Value.isJson] at h
  | .fragment, _, h => by simp [Value.isJson] at h
  | .component _, _, h => by simp [Value.isJson] at h
  | .element _, _, h => by simp [Value.isJson] at h

theorem writeItems_ne_tooManyDigits : ∀ (items : List Value) (depth : Nat),
    Value.allJson Number.isShown items = true →
    writeItems display layout depth items ≠ .error .tooManyDigits
  | [], _, _ => nofun
  | v :: rest, depth, h => by
    obtain ⟨hv, hrest⟩ := Bool.and_eq_true_iff.mp h
    rw [writeItems]
    exact map₂_ne_error (writeValue_ne_tooManyDigits v depth hv) (writeItems_ne_tooManyDigits rest depth hrest)

theorem writeMembers_ne_tooManyDigits : ∀ (members : List (String × Value)) (depth : Nat),
    Value.allMembersJson Number.isShown members = true →
    writeMembers display layout depth members ≠ .error .tooManyDigits
  | [], _, _ => nofun
  | (name, v) :: rest, depth, h => by
    obtain ⟨hv, hrest⟩ := Bool.and_eq_true_iff.mp h
    rw [writeMembers]
    exact map₂_ne_error (writeValue_ne_tooManyDigits v depth hv)
      (writeMembers_ne_tooManyDigits rest depth hrest)

end

/-! ### Layouts -/

theorem exists_layout {indent : Value} (h : indent.IsIndent) : ∃ layout, Layout.ofValue indent = .ok layout := by
  rcases h with rfl | ⟨n, rfl, hlow, hhigh⟩
  · exact ⟨.oneLine, rfl⟩
  · refine ⟨.ofWidth n, ?_⟩
    rw [Layout.ofValue, if_pos (by simp [hlow, hhigh])]

theorem layout_eq_error {n : Int} (h : n < -wordBound ∨ wordBound ≤ n) :
    Layout.ofValue (.int n) = .error .indentTooLarge := by
  rw [Layout.ofValue, if_neg (by simp; omega)]

end Json

/-! ### Tables -/

section Tables

variable {number : Number → Bool} {display : Value → Shown (List Char)} {indent : Value}
  {members : List (String × Value)}

theorem jsonText_dict : jsonText display indent (.dict members) =
    (Json.Layout.ofValue indent).bind fun layout => layoutText display layout (.dict members) := rfl

/-- A table has a text exactly if every number in it can be written. -/
theorem exists_jsonText_iff (hindent : indent.IsIndent) (h : (Value.dict members).isJson number = true) :
    (∃ text, jsonText display indent (.dict members) = .ok text) ↔
      (Value.dict members).isJson Number.isWritten = true := by
  obtain ⟨layout, hlayout⟩ := Json.exists_layout hindent
  rw [jsonText_dict, hlayout, ← Json.exists_writeValue_iff display layout _ 0 h]
  show (∃ text, layoutText display layout _ = .ok text) ↔ ∃ text, Json.write display layout _ = .ok text
  unfold layoutText
  cases Json.write display layout (.dict members) with
  | ok text => simp
  | error e => cases e <;> simp

/-- A table in which every whole number can be shown has a number that is not finite if it has no text. -/
theorem jsonText_refused_iff (hindent : indent.IsIndent)
    (h : (Value.dict members).isShortDocument = true) :
    (∃ x indented, jsonText display indent (.dict members) = .error (.notFinite x indented)) ↔
      ¬ (Value.dict members).isJson Number.isWritten = true := by
  have htext : (∃ text, jsonText display indent (.dict members) = .ok text) ↔
      (Value.dict members).isJson Number.isWritten = true := exists_jsonText_iff hindent h
  obtain ⟨layout, hlayout⟩ := Json.exists_layout hindent
  have hshown : Json.write display layout (.dict members) ≠ .error .tooManyDigits :=
    Json.writeValue_ne_tooManyDigits display layout _ 0 h
  rw [← htext, jsonText_dict, hlayout]
  show (∃ x indented, layoutText display layout _ = .error (.notFinite x indented)) ↔
    ¬ ∃ text, layoutText display layout _ = .ok text
  unfold layoutText
  cases hwrite : Json.write display layout (.dict members) with
  | ok text => simp
  | error e =>
    cases e with
    | notFinite x => simp
    | tooManyDigits => exact absurd hwrite hshown

end Tables

end ViewGraph
