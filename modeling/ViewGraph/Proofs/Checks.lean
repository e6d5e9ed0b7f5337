import ViewGraph.Record.Check

/-!
# Checked fields

What a check of a field says about the table that it is a field of. The fields here have one name.

* `check_plain`, `checkOr_plain`: the check of a field is that of what its name stands for.
* `check_eq_valid`: a field that has to be given is valid if it is given and valid.
* `checkOr_text_eq_valid`: an optional text is what its name stands for, unless that is null.
-/

namespace ViewGraph

open Checked

@[simp] theorem isNull_str (s : String) : (Value.str s).isNull = false := rfl

@[simp] theorem isNull_null : Value.null.isNull = true := rfl

section

variable {α : Type} {name : String} {check : Value → Checked α} {members : List (String × Value)}

theorem within_eq_valid {step : String} {r : Checked α} {a : α} : r.within step = .valid a ↔ r = .valid a := by
  cases r <;> simp [within]

theorem fail_ne_valid {kind : IssueKind} {a : α} : (fail kind : Checked α) ≠ .valid a := nofun

theorem check_plain : (Field.plain name).check check members =
    (Table.find? name members).elim (within name (fail .missing)) fun v => within name (check v) := by
  cases h : Table.find? name members <;> simp [Field.check, Field.find?, Field.plain, h]

theorem checkOr_plain {default : α} : (Field.plain name).checkOr default check members =
    (Table.find? name members).elim (.valid default) fun v => within name (check v) := by
  cases h : Table.find? name members <;> simp [Field.checkOr, Field.find?, Field.plain, h]

/-- A field that has to be given is valid if it is given and valid. -/
theorem check_eq_valid {a : α} : (Field.plain name).check check members = .valid a ↔
    ∃ v, Table.find? name members = some v ∧ check v = .valid a := by
  rw [check_plain]
  cases Table.find? name members with
  | none => simp [within_eq_valid, fail_ne_valid]
  | some v => simp [within_eq_valid]

end

theorem checkText_eq_valid {v : Value} {s : String} : checkText v = .valid s ↔ v = .str s := by
  cases v <;> simp [checkText, fail]

/-- An optional text is what its name stands for, unless that is null. -/
theorem checkOr_text_eq_valid {name : String} {members : List (String × Value)} {s : Option String}
    (h : (Field.plain name).checkOr none (checkOption checkText) members = .valid s) :
    (Table.find? name members).filter (fun v => !v.isNull) = s.map .str := by
  rw [checkOr_plain] at h
  cases hfind : Table.find? name members with
  | none =>
    rw [hfind] at h
    obtain rfl := Checked.valid.inj h
    rfl
  | some v =>
    rw [hfind, Option.elim_some, within_eq_valid] at h
    cases v with
    | null =>
      obtain rfl := Checked.valid.inj h
      rfl
    | str t =>
      obtain rfl := Checked.valid.inj h
      rfl
    | _ => simp [checkOption, checkText, fail, Checked.map] at h

end ViewGraph
