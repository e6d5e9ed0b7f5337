import ViewGraph.Proofs.JsonData

/-!
# Values that can be shown

JSON data have a text exactly if every whole number in them has one. What else they hold always has one.

* `exists_showInt_iff`: a whole number has a text if it has so few digits.
* `exists_map_eq_ok_iff`, `exists_map₂_eq_ok_iff`: when what is made of parts that may fail is there.
* `exists_inner_iff`: JSON data inside other data.
* `exists_text_iff`: JSON data on their own.
-/

namespace ViewGraph

section

variable {ε α β γ : Type} {r : Except ε α} {s : Except ε β}

theorem exists_map_eq_ok_iff {k : α → γ} :
    (∃ c, (do let a ← r; return k a) = .ok c) ↔ ∃ a, r = .ok a := by
  cases r <;> simp [bind, Except.bind, pure, Except.pure]

theorem exists_map₂_eq_ok_iff {k : α → β → γ} :
    (∃ c, (do let a ← r; let b ← s; return k a b) = .ok c) ↔ (∃ a, r = .ok a) ∧ ∃ b, s = .ok b := by
  cases r <;> cases s <;> simp [bind, Except.bind, pure, Except.pure]

end

theorem exists_showInt_iff (n : Int) : (∃ text, showInt n = .ok text) ↔ Number.isShown (.whole n) = true := by
  rw [showInt, Number.isShown, decide_eq_true_iff]
  split_ifs with hn
  · exact iff_of_true ⟨_, rfl⟩ hn
  · exact iff_of_false (by simp) hn

namespace Value

variable {number : Number → Bool} (element : Handle → Shown (List Char))

mutual

/-- **Showing.** JSON data can be shown exactly if every whole number in them can. -/
theorem exists_inner_iff : ∀ v : Value, v.isJson number = true →
    ((∃ text, inner element v = .ok text) ↔ v.isShortDocument = true)
  | null, _ => iff_of_true ⟨_, rfl⟩ rfl
  | bool _, _ => iff_of_true ⟨_, rfl⟩ rfl
  | float _, _ => iff_of_true ⟨_, rfl⟩ rfl
  | str _, _ => iff_of_true ⟨_, rfl⟩ rfl
  | int n, _ => exists_showInt_iff n
  | list items, h => by
    rw [inner, isShortDocument, isJson, exists_map_eq_ok_iff]
    exact exists_inners_iff items h
  | dict members, h => by
    obtain ⟨hnames, hmembers⟩ := Bool.and_eq_true_iff.mp h
    rw [inner, isShortDocument, isJson, hnames, Bool.true_and, exists_map_eq_ok_iff]
    exact exists_innerMembers_iff members hmembers
  | tuple _, h => by simp [isJson] at h
  | wrapped _ _, h => by simp [isJson] at h
  | action _ _, h => by simp [isJson] at h
  | page _ _, h => by simp [isJson] at h
  | style _ _ _, h => by simp [isJson] at h
  | fragment, h => by simp [isJson] at h
  | component _, h => by simp [isJson] at h
  | .element _, h => by simp [isJson] at h

theorem exists_inners_iff : ∀ items : List Value, allJson number items = true →
    ((∃ texts, inners element items = .ok texts) ↔ allJson Number.isShown items = true)
  | [], _ => iff_of_true ⟨_, rfl⟩ rfl
  | v :: rest, h => by
    obtain ⟨hv, hrest⟩ := Bool.and_eq_true_iff.mp h
    rw [inners, allJson, Bool.and_eq_true, exists_map₂_eq_ok_iff]
    exact and_congr (exists_inner_iff v hv) (exists_inners_iff rest hrest)

theorem exists_innerMembers_iff : ∀ members : List (String × Value), allMembersJson number members = true →
    ((∃ texts, innerMembers element members = .ok texts) ↔ allMembersJson Number.isShown members = true)
  | [], _ => iff_of_true ⟨_, rfl⟩ rfl
  | (name, v) :: rest, h => by
    obtain ⟨hv, hrest⟩ := Bool.and_eq_true_iff.mp h
    rw [innerMembers, allMembersJson, Bool.and_eq_true, exists_map₂_eq_ok_iff]
    exact and_congr (exists_inner_iff v hv) (exists_innerMembers_iff rest hrest)

end

/-- JSON data have a text exactly if every whole number in them has one. -/
theorem exists_text_iff (g : Graph) {v : Value} (h : v.isJson number = true) :
    (∃ text, g.text v = .ok text) ↔ v.isShortDocument = true := by
  have htext : (∃ text, g.text v = .ok text) ↔ ∃ cs, g.displayed v = .ok cs := by
    rw [Graph.text]
    cases g.displayed v <;> simp
  rw [htext, Graph.displayed]
  cases v with
  | str s => exact iff_of_true ⟨_, rfl⟩ rfl
  | style property value state => simp [isJson] at h
  | _ => exact exists_inner_iff _ _ h

end Value

end ViewGraph
