import ViewGraph.Graph

/-!
# Claimed ids

An element may claim an id. No two elements may claim the same one, and an id has to have a text; the
claims are collected before anything else is done.

* `Graph.claims`: the claimed ids in the order of the walk, with the elements that claim them, or
  the first id that is claimed twice or has no text.
-/

namespace ViewGraph

/-- An id that two elements claim. -/
structure DuplicateId where
  id : String
deriving DecidableEq

/-- The duplicate in words. -/
def DuplicateId.message (e : DuplicateId) : String :=
  "Instance id '" ++ e.id ++ "' is used by more than one element"

/-- Why the claims cannot be collected. -/
inductive ClaimError
  | duplicate (e : DuplicateId)
  /-- A claimed id holds a whole number with too many digits. -/
  | tooManyDigits
deriving DecidableEq

namespace Graph

/-- The id that an element claims. A fragment claims none. -/
def claim? (g : Graph) (e : Element) : Shown (Option String) :=
  if e.isFragment then .ok none else g.explicitId? e

/-- Notes the id that an element claims, unless another element has claimed it. -/
def noteId (claims : List (String × Handle)) (h : Handle) :
    Option String → Except ClaimError (List (String × Handle))
  | none => .ok claims
  | some id =>
    if (Table.find? id claims).any (· ≠ h) then .error (.duplicate ⟨id⟩)
    else .ok (Table.insert id h claims)

/-- Notes the claim of an element. -/
def noteClaim (g : Graph) (claims : List (String × Handle)) (h : Handle) (e : Element) :
    Except ClaimError (List (String × Handle)) :=
  match g.claim? e with
  | .ok id? => noteId claims h id?
  | .error _ => .error .tooManyDigits

/-- Collects the claims below the nodes that are still to do. `seen` lists the elements that were
visited, and `fuel` bounds the number of nodes. -/
def claimsFrom (g : Graph) : Nat → List Handle → List (String × Handle) → List Value →
    Except ClaimError (List (String × Handle))
  | 0, _, claims, _ => .ok claims
  | _, _, claims, [] => .ok claims
  | fuel + 1, seen, claims, node :: rest =>
    match node with
    | .element h =>
      if seen.contains h then claimsFrom g fuel seen claims rest
      else match g.find? h with
        | none => claimsFrom g fuel seen claims rest
        | some e => do
          let claims ← g.noteClaim claims h e
          claimsFrom g fuel (h :: seen) claims (e.children ++ rest)
    | _ => claimsFrom g fuel seen claims rest

/-- The number of children in a graph; each is visited at most once. -/
def childCount (g : Graph) : Nat := (g.nodes.toList.flatMap (·.children)).length

/-- The claims in the graph below a root. -/
def claims (g : Graph) (root : Value) : Except ClaimError (List (String × Handle)) :=
  g.claimsFrom (g.childCount + 1) [] [] [root]

end Graph

end ViewGraph
