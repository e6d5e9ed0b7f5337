import ViewGraph.Graph

/-!
# Building elements

An element is built from a component, attributes and children. Children may be given in nested
lists; what is no child falls away, and a number stands for its numeral, if it has one. An attribute
named `children` adds to the children.

* `Builder.flatten`: the children that a list of arguments stands for.
* `Builder.element`, `Builder.fragment`: the new elements.
-/

namespace ViewGraph.Builder

mutual

/-- The children that one argument stands for. -/
def flattenOne : Value → Shown (List Value)
  | .null => .ok []
  | .bool _ => .ok []
  | .int n => do
    let text ← showInt n
    return [.str (String.ofList text)]
  | .float x => .ok [.str (String.ofList x.text)]
  | .list items => flatten items
  | .tuple items => flatten items
  | v => .ok [v]

/-- The children that a list of arguments stands for. -/
def flatten : List Value → Shown (List Value)
  | [] => .ok []
  | v :: rest => do
    let children ← flattenOne v
    let more ← flatten rest
    return children ++ more

end

/-- A reference to a component stands for its name. -/
def componentOf : Value → Value
  | .component name => name
  | v => v

/-- A new element. -/
def element (component : Value) (props : List (String × Value)) (children : List Value) :
    Shown Element := do
  let extra := match (Table.find? Element.childrenAttribute props).getD .null with
    | .null => []
    | v => [v]
  let children ← flatten (children ++ extra)
  return {
    component := componentOf component
    props := props.filter fun (name, _) => name ≠ Element.childrenAttribute
    children := children }

/-- A new fragment. -/
def fragment (children : List Value) : Shown Element := element .fragment [] children

/-- Attributes, with further ones that win over those of the same name. -/
def mergeProps (props attributes : List (String × Value)) : List (String × Value) :=
  Table.insertAll attributes props

theorem flatten_singleton (v : Value) : flatten [v] = flattenOne v := by
  rw [flatten, flatten]
  cases flattenOne v <;> simp [Bind.bind, Except.bind, pure, Except.pure]

theorem flatten_append (xs ys : List Value) : flatten (xs ++ ys) = do
    let children ← flatten xs
    let more ← flatten ys
    return children ++ more := by
  induction xs with
  | nil =>
    rw [List.nil_append]
    cases flatten ys <;> rfl
  | cons x xs ih =>
    rw [List.cons_append, flatten, ih, flatten]
    cases flattenOne x <;> cases flatten xs <;> cases flatten ys <;>
      simp [Bind.bind, Except.bind, pure, Except.pure]

end ViewGraph.Builder
