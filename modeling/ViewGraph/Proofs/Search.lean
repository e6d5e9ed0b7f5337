import Mathlib.Data.Finset.Dedup
import Mathlib.Order.Interval.Finset.Nat
import ViewGraph.Proofs.Numbering

/-!
# The search for the next id

An allocator that has to find an id tries one number after the other until it comes to one whose numeral is not
reserved.  Nothing in the search itself bounds it.

* `counter`: the number that was tried last.
* `Search a turns id b`: the search, turn by turn.
* `Search.unique`: it can end in one way only.
* `search_nextFree`: it does what the bounded search does, if that one comes to a free number.
* `Found a n turns`: all about the search from `a`, which ends at `n`.
* `exists_found`: every search ends, and in few turns, because different numbers have different numerals.
-/

namespace ViewGraph

namespace Allocator

variable {κ : Type}

/-! ### Definitions -/

/-- The number that was tried last, or -1 as long as there was none. -/
def counter (a : Allocator κ) : ℤ := a.next - 1

/-- The allocator once one more number was tried. -/
def tried (a : Allocator κ) : Allocator κ := { a with next := a.next + 1 }

/-- The search for the next id, without a bound. A turn tries one more number, and the search ends with it
unless its numeral is reserved. From `a` on it takes so many turns, gives this id and leaves `b`. -/
inductive Search : Allocator κ → ℕ → String → Allocator κ → Prop
  | found {a : Allocator κ} (hfree : numeral a.next ∉ a.reserved) : Search a 1 (numeral a.next) a.tried
  | again {a b : Allocator κ} {turns : ℕ} {id : String} (hbarred : numeral a.next ∈ a.reserved)
    (rest : Search a.tried turns id b) : Search a (turns + 1) id b

/-- The search from `a` on ends after so many turns, at the number `n`. -/
structure Found (a : Allocator κ) (n turns : ℕ) : Prop where
  /-- It ends, in this way and in no other. -/
  ends : ∀ turns' id b, Search a turns' id b ↔
    turns' = turns ∧ id = a.takeNext.id ∧ b = a.takeNext.allocator
  bounded : turns ≤ a.reserved.toFinset.card + 1
  /-- Every turn but the last one passes over a number. -/
  passed : turns = a.takeNext.passed.length + 1
  id : a.takeNext.id = numeral n
  least : IsLeast {m : ℕ | a.counter < m ∧ numeral m ∉ a.reserved} n
  counter : a.takeNext.allocator.counter = n
  ids : a.takeNext.allocator.ids = a.ids
  reserved : a.takeNext.allocator.reserved = a.reserved

@[simp] theorem tried_next (a : Allocator κ) : a.tried.next = a.next + 1 := rfl

@[simp] theorem tried_reserved (a : Allocator κ) : a.tried.reserved = a.reserved := rfl

theorem counter_lt_iff {a : Allocator κ} {m : ℕ} : a.counter < m ↔ a.next ≤ m := by
  unfold counter
  omega

/-! ### Turn by turn -/

/-- What a turn does depends on the number alone, so the search can end in one way only. -/
theorem Search.unique {a b b' : Allocator κ} {turns turns' : ℕ} {id id' : String} (h : Search a turns id b)
    (h' : Search a turns' id' b') : turns' = turns ∧ id' = id ∧ b' = b := by
  induction h generalizing turns' with
  | found hfree =>
    cases h' with
    | found => exact ⟨rfl, rfl, rfl⟩
    | again hbarred => exact absurd hbarred hfree
  | again hbarred _ ih =>
    cases h' with
    | found hfree => exact absurd hbarred hfree
    | again _ rest' =>
      obtain ⟨rfl, rfl, rfl⟩ := ih rest'
      exact ⟨rfl, rfl, rfl⟩

/-- The bounded search goes the same way as far as it goes. If it stops at a free number, so does the
search. -/
theorem search_nextFree (fuel : ℕ) (a : Allocator κ)
    (hfree : numeral (nextFree a.reserved fuel a.next).2 ∉ a.reserved) :
    Search a ((nextFree a.reserved fuel a.next).1.length + 1) (numeral (nextFree a.reserved fuel a.next).2)
      { a with next := (nextFree a.reserved fuel a.next).2 + 1 } := by
  induction fuel generalizing a with
  | zero => exact .found hfree
  | succ fuel ih =>
    by_cases h : numeral a.next ∈ a.reserved
    · simp only [nextFree, List.contains_iff_mem, h, if_true] at hfree ⊢
      exact .again h (ih a.tried hfree)
    · simp only [nextFree, List.contains_iff_mem, h, if_false]
      exact .found h

/-! ### The bound -/

theorem add_length_passed (reserved : List String) (fuel n : ℕ) :
    n + (nextFree reserved fuel n).1.length = (nextFree reserved fuel n).2 := by
  induction fuel generalizing n with
  | zero => rfl
  | succ fuel ih =>
    by_cases h : numeral n ∈ reserved
    · have hrest := ih (n + 1)
      simp only [nextFree, List.contains_iff_mem, h, if_true, List.length_cons]
      omega
    · simp only [nextFree, List.contains_iff_mem, h, if_false, List.length_nil, Nat.add_zero]

/-- **Pigeonhole.** Each number that is passed over has a numeral of its own among the reserved ids. -/
theorem length_passed_le (reserved : List String) (fuel n : ℕ) :
    (nextFree reserved fuel n).1.length ≤ reserved.toFinset.card := by
  obtain ⟨-, -, hpassed⟩ := nextFree_range reserved fuel n
  have hlength := add_length_passed reserved fuel n
  calc (nextFree reserved fuel n).1.length
      = (Finset.Ico n (nextFree reserved fuel n).2).card := by rw [Nat.card_Ico]; omega
    _ ≤ reserved.toFinset.card := by
      refine Finset.card_le_card_of_injOn numeral (fun m hm => ?_) numeral_injective.injOn
      obtain ⟨hle, hlt⟩ := Finset.mem_Ico.mp hm
      exact List.mem_toFinset.mpr (hpassed m hle hlt)

/-! ### The search as a whole -/

theorem isLeast_nextFree (a : Allocator κ) :
    IsLeast {m : ℕ | a.counter < m ∧ numeral m ∉ a.reserved}
      (nextFree a.reserved a.reserved.length a.next).2 := by
  obtain ⟨hle, -, hpassed⟩ := nextFree_range a.reserved a.reserved.length a.next
  refine ⟨⟨counter_lt_iff.mpr hle, nextFree_not_mem a.reserved a.next⟩, ?_⟩
  rintro m ⟨hm, hfree⟩
  by_contra hlt
  exact hfree (hpassed m (counter_lt_iff.mp hm) (by omega))

/-- **Search.** Whatever was tried before and whatever is reserved, the search for the next id ends, after one
turn more than there are reserved ids at most. It gives the numeral of the least number that is greater than
those tried before and is not reserved, and it changes nothing but the counter, which it leaves there. -/
theorem exists_found (a : Allocator κ) : ∃ n turns, Found a n turns := by
  have hends := search_nextFree a.reserved.length a (nextFree_not_mem a.reserved a.next)
  refine ⟨(nextFree a.reserved a.reserved.length a.next).2, a.takeNext.passed.length + 1,
    { ends := fun turns' id b => ⟨hends.unique, ?_⟩
      bounded := Nat.succ_le_succ (length_passed_le a.reserved a.reserved.length a.next)
      passed := rfl
      id := rfl
      least := isLeast_nextFree a
      counter := ?_
      ids := rfl
      reserved := rfl }⟩
  · rintro ⟨rfl, rfl, rfl⟩
    exact hends
  · simp [counter, takeNext]

/-- Only the plain numerals stand in the way. -/
example : (takeNext (⟨7, [], ["8", "07", "7", "+9", "-1", " 9", "10"]⟩ : Allocator ℕ)).id = "9" := by decide

end Allocator

end ViewGraph
