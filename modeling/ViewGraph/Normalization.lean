import ViewGraph.Graph.Claim
import ViewGraph.Normalization.Attribute
import ViewGraph.Normalization.Reference

/-!
# Normalization

A template is lowered into flat records. The elements are rendered depth first, from left to right:
each gives its records when it is met for the first time and before the elements below it, and every
place where it stands links to it by its id.

* `Progress`: the ids and the records so far.
* `enter`: the records of one element.
* `flatten`: renders the elements among some children, and refers to them.
* `normalize`: the records of the graph below a root.
-/

namespace ViewGraph

/-- The logger of this module. -/
def normalizerLogger : String := "core.template.normalizer"

/-- The entry for a child that is no child. -/
def skippedEntry (v : Value) : LogEntry :=
  ⟨.warning, normalizerLogger, "Skipping child of unsupported type " ++ v.typeName⟩

/-- What a normalization has made so far. -/
structure Progress where
  ids : Ids
  /-- The ids of the elements that were rendered, the last one first. -/
  rendered : List String
  records : DocumentFragment

namespace Progress

def ofReserved (reserved : List String) : Progress := ⟨.ofReserved reserved, [], {}⟩

end Progress

/-- The records of an element that is rendered under an id: its attributes, its styles and its
instance, whose children are given their ids here. -/
def enter (g : Graph) (p : Progress) (id : String) (e : Element) : Logged Failure Progress := do
  let r ← p.records.addAttributes g id e.props
  let component ← Logged.ofExcept (ofShown (g.text e.component))
  let label ← Logged.ofExcept (ofShown (g.label? e))
  let (children, ids) ← childRefs g g.depth false p.ids e.children
  let inst : Instance := ⟨id, component, label, children⟩
  return ⟨ids, id :: p.rendered, { r with instances := r.instances ++ [inst] }⟩

/-- Renders an element unless an element of its id was rendered already, and refers to it. `below`
renders the elements among its children. -/
def render (g : Graph) (below : Progress → List Value → Logged Failure (List Child × Progress))
    (p : Progress) (h : Handle) (e : Element) : Logged Failure (List Child × Progress) := do
  let (id, ids) ← resolve g p.ids h
  if p.rendered.contains id then return ([.id id], { p with ids := ids })
  else do
    let p ← enter g { p with ids := ids } id e
    let (_, p) ← below p e.children
    return ([.id id], p)

/-- Renders what a child stands for, and refers to it. A fragment gives way to the elements in it, and a
leaf is left to the element it stands in. `below` renders the elements among children. -/
def flattenOne (g : Graph) (below : Progress → List Value → Logged Failure (List Child × Progress))
    (p : Progress) (v : Value) : Logged Failure (List Child × Progress) :=
  match g.roleOf v with
  | .leaf _ => return ([], p)
  | .fragment children => below p children
  | .concrete h e => render g below p h e
  | .unsupported => do
    Logged.tell [skippedEntry v]
    return ([], p)

/-- Renders the elements among some children, and refers to them. `fuel` bounds how deep elements stand
in each other. -/
def flatten (g : Graph) : Nat → Progress → List Value → Logged Failure (List Child × Progress)
  | 0 => fun p _ => return ([], p)
  | fuel + 1 => Logged.collect (flattenOne g (flatten g fuel))

/-- The entry that counts the records. -/
def normalizedEntry (f : DocumentFragment) : LogEntry :=
  ⟨.debug, normalizerLogger,
    "Normalized template: " ++ numeral f.instances.length ++ " instances, " ++
      numeral f.props.length ++ " props, " ++ numeral f.styles.length ++ " styles, " ++
      numeral f.breakpoints.length ++ " breakpoints"⟩

/-- The records of the graph below a root, which stands alone in a fragment. -/
def normalize (g : Graph) (root : Value) : Logged Failure DocumentFragment := do
  let claims ← Logged.ofExcept ((g.claims root).mapError .ofClaim)
  let (children, p) ← flatten g g.depth (.ofReserved (claims.map (·.1))) [root]
  let fragment := { p.records with children := children }
  Logged.tell [normalizedEntry fragment]
  return fragment

end ViewGraph
