import ViewGraph.Graph.Claim
import ViewGraph.Record.Checked

/-!
# Failures of the normalization

* `Failure`: why a template has no records.
* `ofChecked`: a failed check of a record, under the name of its class.
* `ofShown`: a value that has no text.
-/

namespace ViewGraph

/-- Why a template has no records. -/
inductive Failure
  | duplicate (e : DuplicateId)
  /-- A value that is to be shown holds a whole number with too many digits. -/
  | tooManyDigits
  /-- A record of this class does not take the values of an element. -/
  | invalidRecord (className : String) (issues : List Issue)
  /-- A value that is no list was given in place of one. -/
  | notIterable
deriving DecidableEq

/-- The failure to collect the claimed ids. -/
def Failure.ofClaim : ClaimError → Failure
  | .duplicate e => .duplicate e
  | .tooManyDigits => .tooManyDigits

/-- A text that is needed. -/
def ofShown {α : Type} : Shown α → Except Failure α
  | .ok a => .ok a
  | .error _ => .error .tooManyDigits

theorem ofShown_eq_ok {α : Type} {x : Shown α} {a : α} : ofShown x = .ok a ↔ x = .ok a := by
  cases x <;> simp [ofShown]

/-- The outcome of a check, under the name of the class of the record. -/
def ofChecked {α : Type} (className : String) : Checked α → Except Failure α
  | .valid a => .ok a
  | .invalid issues => .error (.invalidRecord className issues)

end ViewGraph
