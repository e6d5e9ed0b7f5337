import ViewGraph.Allocator
import ViewGraph.Graph.Role
import ViewGraph.Log
import ViewGraph.Normalization.Failure
import ViewGraph.Record.Check

/-!
# References to children

An instance refers to its children. The ids of the elements among them are assigned when the
references are made, from left to right. A fragment gives way to the elements among its own
children, and the leaves in it fall away.

* `resolve`: the id of an element, assigned on first sight.
* `childRefs`: the references to the children of an instance.
-/

namespace ViewGraph

/-- The allocator of a normalization. -/
abbrev Ids := Allocator Handle

/-- The logger of the allocator. -/
def identifiersLogger : String := "core.template.identifiers"

/-- The entry for a number that is passed over. -/
def passedEntry (n : Nat) : LogEntry :=
  ⟨.debug, identifiersLogger, "Skipping id " ++ numeral n ++ ": claimed by an explicit id"⟩

/-- The id that the element at a handle asks for. -/
def Graph.askedId? (g : Graph) (h : Handle) : Shown (Option String) :=
  match g.find? h with
  | some e => g.explicitId? e
  | none => .ok none

/-- The id of an element, assigned on first sight. -/
def resolve (g : Graph) (ids : Ids) (h : Handle) : Logged Failure (String × Ids) := do
  let wanted ← Logged.ofExcept (ofShown (g.askedId? h))
  let assigned := ids.assign h wanted
  Logged.tell (assigned.passed.map passedEntry)
  return (assigned.id, assigned.allocator)

/-- A child that holds a text, if its value is one. -/
def textChild (kind : ChildKind) (members : List (String × Value)) : Except Failure Child :=
  ofChecked kind.className (checkChildOf kind members)

/-- The reference that a leaf gives. -/
def leafChild : Leaf → Except Failure Child
  | .text s => .ok (.text s none)
  | .placeholder payload => textChild .text [("value", payload), ("placeholder", .bool true)]
  | .expression payload => textChild .expression [("value", payload)]

/-- The references that a child gives: a leaf one, unless it stands in a fragment, a fragment those of
its own children, which `below` makes, and an element its id. -/
def childRef (g : Graph) (below : Ids → List Value → Logged Failure (List Child × Ids))
    (inFragment : Bool) (ids : Ids) (v : Value) : Logged Failure (List Child × Ids) :=
  match g.roleOf v with
  | .leaf l =>
    if inFragment then return ([], ids)
    else do
      let child ← Logged.ofExcept (leafChild l)
      return ([child], ids)
  | .fragment children => below ids children
  | .concrete h _ => do
    let (id, ids) ← resolve g ids h
    return ([.id id], ids)
  | .unsupported => return ([], ids)

/-- The references to children, in the order in which they stand. `fuel` bounds how deep fragments
stand in each other. -/
def childRefs (g : Graph) : Nat → Bool → Ids → List Value → Logged Failure (List Child × Ids)
  | 0, _ => fun ids _ => return ([], ids)
  | fuel + 1, inFragment => Logged.collect (childRef g (childRefs g fuel true) inFragment)

end ViewGraph
