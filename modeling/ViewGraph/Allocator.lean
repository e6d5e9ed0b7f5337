import ViewGraph.Number.Decimal

/-!
# Allocation of ids

An allocator gives each key an id and keeps to it. An id that a key asks for is given as it is and
is reserved from then on; any other id is the next natural number whose numeral is not reserved.

* `Allocator.assign`: the id of a key, assigned on first sight.
* `Allocator.takeNext`: the next id.
* `Allocator.nextFree`: the search for its number, with the numbers it passes over.
-/

namespace ViewGraph

/-- The ids that were given, and what the next one depends on. -/
structure Allocator (κ : Type) where
  /-- The least number that was not tried yet. -/
  next : Nat
  ids : List (κ × String)
  reserved : List String

/-- The numeral of a natural number. -/
def numeral (n : Nat) : String := String.ofList (writeNat n)

namespace Allocator

variable {κ : Type}

def ofReserved (reserved : List String) : Allocator κ := ⟨0, [], reserved⟩

/-- The numbers from `n` on that are reserved, and the first one that is not. At most `fuel`
numbers are passed over. -/
def nextFree (reserved : List String) : Nat → Nat → List Nat × Nat
  | 0, n => ([], n)
  | fuel + 1, n =>
    if reserved.contains (numeral n) then
      let (passed, free) := nextFree reserved fuel (n + 1)
      (n :: passed, free)
    else ([], n)

/-- An id that is given, what was passed over to find it, and the allocator from then on. -/
structure Assigned (κ : Type) where
  id : String
  passed : List Nat
  allocator : Allocator κ

/-- Takes the next number whose numeral is not reserved. -/
def takeNext (a : Allocator κ) : Assigned κ :=
  let (passed, free) := nextFree a.reserved a.reserved.length a.next
  ⟨numeral free, passed, { a with next := free + 1 }⟩

variable [DecidableEq κ]

def find? (a : Allocator κ) (key : κ) : Option String := a.ids.lookup key

def contains (a : Allocator κ) (key : κ) : Bool := (a.find? key).isSome

def size (a : Allocator κ) : Nat := a.ids.length

/-- Gives a key an id: the one it has, or else the one it asks for, or else the next one. -/
def assign (a : Allocator κ) (key : κ) (wanted : Option String) : Assigned κ :=
  match a.find? key with
  | some id => ⟨id, [], a⟩
  | none =>
    match wanted with
    | some id => ⟨id, [], { a with ids := a.ids ++ [(key, id)], reserved := id :: a.reserved }⟩
    | none =>
      let taken := a.takeNext
      { taken with allocator := { taken.allocator with ids := a.ids ++ [(key, taken.id)] } }

theorem assign_of_find? {a : Allocator κ} {key : κ} {id : String} (h : a.find? key = some id)
    (wanted : Option String) : a.assign key wanted = ⟨id, [], a⟩ := by
  simp [assign, h]

end Allocator

end ViewGraph
