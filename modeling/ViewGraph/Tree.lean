import ViewGraph.Graph

/-!
# Trees of new elements

A template that is written down is a tree: each node is an element of its own. Planting a tree adds
its elements to a graph.

* `Tree.plant`: adds the elements of a tree, and gives the value that stands for it.
-/

namespace ViewGraph

/-- A tree of elements that are not in a graph yet. -/
inductive Tree
  | leaf (value : Value)
  | node (component : Value) (props : List (String × Value)) (children : List Tree)

namespace Tree

mutual

/-- Adds the elements of a tree to a graph, children first. -/
def plant : Tree → Graph → Graph × Value
  | leaf v, g => (g, v)
  | node component props children, g =>
    let (g, values) := plantAll children g
    let (g, h) := g.push ⟨component, props, values⟩
    (g, .element h)

/-- Adds the elements of several trees, from left to right. -/
def plantAll : List Tree → Graph → Graph × List Value
  | [], g => (g, [])
  | t :: rest, g =>
    let (g, v) := plant t g
    let (g, vs) := plantAll rest g
    (g, v :: vs)

end

theorem plant_leaf (v : Value) (g : Graph) : plant (leaf v) g = (g, v) := rfl

end Tree

end ViewGraph
