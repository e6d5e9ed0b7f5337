import Mathlib.Data.List.Nodup
import Mathlib.Data.List.Perm.Subperm
import ViewGraph.Proofs.Claims

/-!
# Tables with distinct names

A list of entries is a table if no name is in it twice.

* `find?_of_mem`: in such a list each entry is what its name stands for.
* `mem_of_mem_ofList`: making a table of a list of entries adds none.
* `nodup_names_ofList`, `mem_names_ofList`: it keeps their names, once each.
* `length_ofList_eq_iff`: no entry is lost exactly if no name was there twice.
* `find?_mapValues`, `insert_mapValues`: tables in which every entry is changed at its place.
-/

namespace ViewGraph.Table

variable {κ α : Type} [DecidableEq κ]

@[simp] theorem find?_nil (name : κ) : find? name ([] : List (κ × α)) = none := rfl

/-- In a table each entry is what its name stands for. -/
theorem find?_of_mem {name : κ} {a : α} {t : List (κ × α)} (hnd : (t.map (·.1)).Nodup)
    (hmem : (name, a) ∈ t) : find? name t = some a := by
  induction t with
  | nil => simp at hmem
  | cons entry rest ih =>
    obtain ⟨key, old⟩ := entry
    obtain ⟨hkey, hrest⟩ := List.nodup_cons.mp hnd
    rw [find?_cons]
    rcases List.mem_cons.mp hmem with heq | hin
    · obtain ⟨rfl, rfl⟩ := Prod.mk.inj heq
      exact if_pos rfl
    · have hne : name ≠ key := by
        rintro rfl
        exact hkey (List.mem_map.mpr ⟨(name, a), hin, rfl⟩)
      rw [if_neg hne]
      exact ih hrest hin

theorem nodup_names_insert {t : List (κ × α)} (hnd : (t.map (·.1)).Nodup) (name : κ) (a : α) :
    ((insert name a t).map (·.1)).Nodup := by
  rw [names_insert]
  split_ifs with hmem
  · exact hnd
  · exact List.nodup_append_comm.mp (List.nodup_cons.mpr ⟨hmem, hnd⟩)

theorem ofList_concat (es : List (κ × α)) (e : κ × α) :
    ofList (es ++ [e]) = insert e.1 e.2 (ofList es) := by
  simp [ofList, insertAll, List.foldl_append]

theorem nodup_names_ofList (es : List (κ × α)) : ((ofList es).map (·.1)).Nodup := by
  induction es using List.reverseRecOn with
  | nil => exact List.nodup_nil
  | append_singleton es e ih =>
    rw [ofList_concat]
    exact nodup_names_insert ih e.1 e.2

theorem mem_of_mem_insert {name : κ} {a : α} {b : κ × α} {t : List (κ × α)} (h : b ∈ insert name a t) :
    b = (name, a) ∨ b ∈ t := by
  induction t with
  | nil => exact .inl (List.mem_singleton.mp h)
  | cons entry rest ih =>
    obtain ⟨key, old⟩ := entry
    rw [insert] at h
    split_ifs at h with hkey
    · subst hkey
      exact (List.mem_cons.mp h).imp_right (List.mem_cons_of_mem _)
    · rcases List.mem_cons.mp h with rfl | hrest
      · exact .inr List.mem_cons_self
      · exact (ih hrest).imp_right (List.mem_cons_of_mem _)

/-- What is in a table was among the entries that it was made of. -/
theorem mem_of_mem_ofList {es : List (κ × α)} {b : κ × α} (h : b ∈ ofList es) : b ∈ es := by
  induction es using List.reverseRecOn with
  | nil => exact h
  | append_singleton es e ih =>
    rw [ofList_concat] at h
    rcases mem_of_mem_insert h with rfl | hin
    · exact List.mem_append_right es List.mem_cons_self
    · exact List.mem_append_left _ (ih hin)

theorem mem_names_ofList {es : List (κ × α)} {name : κ} :
    name ∈ (ofList es).map (·.1) ↔ name ∈ es.map (·.1) := by
  induction es using List.reverseRecOn with
  | nil => rfl
  | append_singleton es e ih =>
    rw [ofList_concat, names_insert, List.map_append, List.mem_append, ← ih]
    split_ifs with hmem
    · constructor
      · exact .inl
      · rintro (h | h)
        · exact h
        · obtain rfl : name = e.1 := by simpa using h
          exact hmem
    · rw [List.mem_append]
      simp

/-- Entries of distinct names are a table already. -/
theorem ofList_of_nodup {es : List (κ × α)} (hnd : (es.map (·.1)).Nodup) : ofList es = es := by
  induction es using List.reverseRecOn with
  | nil => rfl
  | append_singleton es e ih =>
    rw [List.map_append] at hnd
    obtain ⟨hnew, hes⟩ := List.nodup_cons.mp (List.nodup_append_comm.mp hnd)
    rw [ofList_concat, ih hes]
    exact insert_of_find?_none (find?_eq_none_iff.mpr hnew) e.2

/-- No entry is lost exactly if no name is there twice. -/
theorem length_ofList_eq_iff (es : List (κ × α)) :
    (ofList es).length = es.length ↔ (es.map (·.1)).Nodup := by
  constructor
  · intro hlen
    have hsub : (ofList es).map (·.1) ⊆ es.map (·.1) := fun name hname => mem_names_ofList.mp hname
    have hsubperm := List.subperm_of_subset (nodup_names_ofList es) hsub
    have hperm := hsubperm.perm_of_length_le (by simp [hlen])
    exact hperm.nodup_iff.mp (nodup_names_ofList es)
  · intro hnd
    rw [ofList_of_nodup hnd]

/-! ### Changed entries -/

variable {β : Type} (F : α → β)

theorem find?_mapValues (name : κ) (t : List (κ × α)) :
    find? name (t.map fun (key, a) => (key, F a)) = (find? name t).map F := by
  induction t with
  | nil => rfl
  | cons entry rest ih =>
    obtain ⟨key, a⟩ := entry
    rw [List.map_cons, find?_cons, find?_cons, ih]
    split_ifs <;> rfl

theorem insert_mapValues (name : κ) (a : α) (t : List (κ × α)) :
    insert name (F a) (t.map fun (key, a) => (key, F a)) =
      (insert name a t).map fun (key, a) => (key, F a) := by
  induction t with
  | nil => rfl
  | cons entry rest ih =>
    obtain ⟨key, old⟩ := entry
    rw [List.map_cons, insert, insert]
    split_ifs
    · rfl
    · rw [ih, List.map_cons]

end ViewGraph.Table
