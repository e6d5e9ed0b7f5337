import ViewGraph.Graph

/-!
# Roles of children

What a value is to the element it stands in. A text, a placeholder and an expression are leaves; an
element is a fragment or concrete; anything else is no child at all.

* `Value.leaf?`, `Value.isLeaf`: the leaves.
* `Graph.roleOf`: the role of a child.
* `Graph.depth`: how deep elements can stand in each other.
-/

namespace ViewGraph

/-- A child that is no element. -/
inductive Leaf
  | text (s : String)
  | placeholder (payload : Value)
  | expression (payload : Value)

/-- The leaf that a value is. -/
def Value.leaf? : Value → Option Leaf
  | str s => some (.text s)
  | wrapped .placeholder payload => some (.placeholder payload)
  | wrapped .expression payload => some (.expression payload)
  | _ => none

/-- Can a value stand among children without being an element? -/
def Value.isLeaf (v : Value) : Bool := v.leaf?.isSome

/-- What a value is to the element it stands in. -/
inductive Role
  | leaf (l : Leaf)
  /-- A fragment with these children. -/
  | fragment (children : List Value)
  | concrete (h : Handle) (e : Element)
  /-- A value that cannot stand among children. -/
  | unsupported

namespace Graph

/-- The role of a value that is no leaf. -/
def nodeRole (g : Graph) : Value → Role
  | .element h =>
    match g.find? h with
    | some e => if e.isFragment then .fragment e.children else .concrete h e
    | none => .unsupported
  | _ => .unsupported

/-- The role of a value among children. -/
def roleOf (g : Graph) (v : Value) : Role :=
  match v.leaf? with
  | some l => .leaf l
  | none => g.nodeRole v

/-- Children do not stand in each other deeper than this while no fragment is in itself and no other
element is entered twice: at most once each fragment between two other elements. -/
def depth (g : Graph) : Nat := (g.nodes.size + 1) * (g.nodes.size + 1) + 1

end Graph

end ViewGraph
