import Mathlib.Data.List.Basic
import ViewGraph.Files
import ViewGraph.Log

/-!
# What stands where

A path names one place, and writing to a path changes nothing but what stands there.

* `walk_eq_ok`, `resolve_eq_ok`: a path that leads anywhere leads to the place that it names.
* `write_eq_ok`, `append_eq_ok`: what is written is a file at that place.
* `SameBut place? files later`: nothing changed but at one place, where a file stands now.
* `SameBut.read`: what can be read later at another place could be read before.
-/

namespace ViewGraph.Files

variable {files later : Files} {path : String} {content : ByteArray}

/-! ### Definitions -/

/-- Nothing changed but what stands at one place, if there is such a place, and a file stands there if anything
changed. -/
structure SameBut (place? : Option (List String)) (files later : Files) : Prop where
  directory : later.directory = files.directory
  node? : ∀ place, later.node? place = files.node? place ∨
    place? = some place ∧ ∃ content, later.node? place = some (.file content)

/-! ### Paths -/

/-- A path names the same place in all states with the same working directory. -/
theorem placeOf_congr (h : later.directory = files.directory) (path : String) :
    later.placeOf path = files.placeOf path := by
  rw [placeOf, placeOf, start, start, h]

theorem walk_eq_ok {place p : List String} {steps : List String} (h : files.walk place steps = .ok p) :
    p = steps.foldl advance place := by
  induction steps generalizing place with
  | nil => exact (Except.ok.inj h).symm
  | cons step rest ih =>
    rw [walk] at h
    cases hnode : files.node? place with
    | none => simp [hnode] at h
    | some node =>
      cases node with
      | file _ => simp [hnode] at h
      | directory =>
        simp only [hnode] at h
        split_ifs at h with hlong
        exact ih h

theorem resolve_eq_ok {p : List String} (h : files.resolve path = .ok p) : p = files.placeOf path := by
  unfold resolve at h
  split_ifs at h with hnull hempty hlong
  exact walk_eq_ok h

theorem walk_ne_notAPath {place : List String} {steps : List String} :
    files.walk place steps ≠ .error .notAPath := by
  induction steps generalizing place with
  | nil => simp [walk]
  | cons step rest ih =>
    rw [walk]
    cases files.node? place with
    | none => simp
    | some node =>
      cases node with
      | file _ => simp
      | directory =>
        simp only
        split_ifs
        · simp
        · exact ih

/-- Only a null character makes a text no path. -/
theorem resolve_eq_notAPath_iff : files.resolve path = .error .notAPath ↔ '\x00' ∈ path.toList := by
  unfold resolve
  rw [String.contains_char_eq]
  split_ifs with hnull hempty hlong
  · simpa using hnull
  · exact iff_of_false (by simp) (by simpa using hnull)
  · exact iff_of_false (by simp) (by simpa using hnull)
  · exact iff_of_false walk_ne_notAPath (by simpa using hnull)

/-! ### Writing -/

/-- A file that can be written stands at the place that the path names, and no directory does. -/
theorem writable_eq_ok {p : List String} {old : ByteArray} (h : files.writable path = .ok (p, old)) :
    p = files.placeOf path ∧ files.isOnTheWay p = false := by
  unfold writable at h
  obtain ⟨place, hplace, h⟩ := Logged.bind_eq_ok.mp h
  have hfree : ∀ found, files.node? place = found → found ≠ some .directory →
      files.isOnTheWay place = false := by
    intro found hfound hne
    by_contra hway
    rw [Bool.not_eq_false] at hway
    rw [Files.node?, if_pos hway] at hfound
    exact hne hfound.symm
  cases hnode : files.node? place with
  | none =>
    simp only [hnode] at h
    split_ifs at h
    obtain ⟨rfl, -⟩ := Prod.mk.inj (Except.ok.inj h)
    exact ⟨resolve_eq_ok hplace, hfree _ hnode (by simp)⟩
  | some node =>
    cases node with
    | directory => simp [hnode] at h
    | file before =>
      simp only [hnode] at h
      split_ifs at h
      obtain ⟨rfl, -⟩ := Prod.mk.inj (Except.ok.inj h)
      exact ⟨resolve_eq_ok hplace, hfree _ hnode (by simp)⟩

theorem write_eq_notAPath_iff : files.write path content = .error .notAPath ↔ '\x00' ∈ path.toList := by
  have hresolve : files.resolve path = .error .notAPath ↔ '\x00' ∈ path.toList := resolve_eq_notAPath_iff
  rw [← hresolve]
  unfold write writable
  cases files.resolve path with
  | error e => simp [bind, Except.bind]
  | ok place =>
    refine iff_of_false ?_ (by simp)
    cases hnode : files.node? place with
    | none => by_cases hasks : asksDirectory path <;> simp [bind, Except.bind, pure, Except.pure, hnode, hasks]
    | some node =>
      cases node with
      | directory => simp [bind, Except.bind, hnode]
      | file _ => by_cases hasks : asksDirectory path <;> simp [bind, Except.bind, pure, Except.pure, hnode, hasks]

theorem write_eq_ok (h : files.write path content = .ok later) :
    later = files.set (files.placeOf path) (.file content) ∧
      files.isOnTheWay (files.placeOf path) = false := by
  obtain ⟨⟨p, old⟩, hp, h⟩ := Logged.bind_eq_ok.mp h
  obtain ⟨rfl, hway⟩ := writable_eq_ok hp
  exact ⟨(Except.ok.inj h).symm, hway⟩

theorem append_eq_ok (h : files.append path content = .ok later) :
    ∃ old, later = files.set (files.placeOf path) (.file (old ++ content)) ∧
      files.isOnTheWay (files.placeOf path) = false := by
  obtain ⟨⟨p, old⟩, hp, h⟩ := Logged.bind_eq_ok.mp h
  obtain ⟨rfl, hway⟩ := writable_eq_ok hp
  exact ⟨old, (Except.ok.inj h).symm, hway⟩

/-! ### Changes at one place -/

theorem sameBut_set {place : List String} (hway : files.isOnTheWay place = false) (content : ByteArray) :
    SameBut (some place) files (files.set place (.file content)) where
  directory := rfl
  node? := fun other => by
    by_cases hother : other = place
    · subst hother
      exact .inr ⟨rfl, content, node?_set_self hway _⟩
    · exact .inl (node?_set_of_ne hother _)

namespace SameBut

variable {place? : Option (List String)}

theorem refl (files : Files) : SameBut place? files files := ⟨rfl, fun _ => .inl rfl⟩

theorem trans {mid : Files} (h : SameBut place? files mid) (h' : SameBut place? mid later) :
    SameBut place? files later where
  directory := h'.directory.trans h.directory
  node? := fun place => by
    rcases h'.node? place with hsame | hfile
    · rw [hsame]
      exact h.node? place
    · exact .inr hfile

theorem node?_of_ne (h : SameBut place? files later) {place : List String} (hne : place? ≠ some place) :
    later.node? place = files.node? place :=
  (h.node? place).resolve_right fun hfile => hne hfile.1

theorem directory_of_directory (h : SameBut place? files later) {place : List String}
    (hplace : later.node? place = some .directory) : files.node? place = some .directory := by
  rcases h.node? place with hsame | ⟨-, content, hfile⟩
  · rw [← hsame, hplace]
  · rw [hplace] at hfile
    simp at hfile

/-- A path that leads to a place later did so before: there are no more directories than before. -/
theorem walk (h : SameBut place? files later) {place p : List String} {steps : List String}
    (hwalk : later.walk place steps = .ok p) : files.walk place steps = .ok p := by
  induction steps generalizing place with
  | nil => exact hwalk
  | cons step rest ih =>
    rw [Files.walk] at hwalk ⊢
    cases hnode : later.node? place with
    | none => simp [hnode] at hwalk
    | some node =>
      cases node with
      | file _ => simp [hnode] at hwalk
      | directory =>
        rw [h.directory_of_directory hnode]
        simp only [hnode] at hwalk
        split_ifs at hwalk with hlong
        simp only [hlong, if_false]
        exact ih hwalk

theorem resolve (h : SameBut place? files later) {p : List String} (hp : later.resolve path = .ok p) :
    files.resolve path = .ok p := by
  unfold Files.resolve at hp ⊢
  split_ifs at hp ⊢
  rw [start, ← h.directory, ← start]
  exact h.walk hp

/-- What is read later, at another place, could be read before. -/
theorem read (h : SameBut place? files later) (hne : place? ≠ some (files.placeOf path))
    (hread : later.read path = .ok content) : files.read path = .ok content := by
  obtain ⟨p, hp, hread⟩ := Logged.bind_eq_ok.mp hread
  have hbefore := h.resolve hp
  obtain rfl := resolve_eq_ok hbefore
  rw [h.node?_of_ne hne] at hread
  exact Logged.bind_eq_ok.mpr ⟨_, hbefore, hread⟩

end SameBut

end ViewGraph.Files
