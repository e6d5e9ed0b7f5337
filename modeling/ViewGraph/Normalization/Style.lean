import ViewGraph.Normalization.Failure
import ViewGraph.Record.Check
import ViewGraph.Value.Typed

/-!
# Local styles

The style declarations of an element belong to a style source of its own. All declarations share one
breakpoint, which is created when the first of them needs it.

* `DocumentFragment.breakpoint`: the shared breakpoint.
* `DocumentFragment.addStyles`: adds the records of the style attribute of an instance.
-/

namespace ViewGraph

/-- The id of the breakpoint of all declarations. -/
def baseBreakpointId : String := "base"

def baseBreakpoint : Breakpoint := ⟨baseBreakpointId, ""⟩

/-- The id of the style source of an instance. -/
def styleSourceId (instanceId : String) : String := instanceId ++ ":" ++ Element.styleAttribute

/-- The items of a style attribute. One that does not count as given has none. -/
def styleItems (value : Value) : Except Failure (List Value) :=
  if value.isTrue then
    match value.items? with
    | some items => .ok items
    | none => .error .notIterable
  else .ok []

/-- The declaration that an item of a style attribute is. -/
def declarationOf (item : Value) : Except Failure Declaration :=
  ofChecked "TemplateStyleDecl" (checkDeclaration item)

namespace DocumentFragment

/-- The id of the shared breakpoint, which is created if there is none. -/
def breakpoint (r : DocumentFragment) : String × DocumentFragment :=
  match r.breakpoints with
  | b :: _ => (b.id, r)
  | [] => (baseBreakpointId, { r with breakpoints := [baseBreakpoint] })

/-- Adds a declaration of a style source. -/
def addDeclaration (source : String) (r : DocumentFragment) (d : Declaration) : DocumentFragment :=
  let (breakpointId, r) := r.breakpoint
  { r with styles := r.styles ++ [⟨breakpointId, source, d.state, d.property, d.value⟩] }

/-- Adds the style source of an instance. -/
def addStyleSource (instanceId : String) (r : DocumentFragment) : DocumentFragment :=
  let source := styleSourceId instanceId
  { r with
    styleSources := r.styleSources ++ [⟨source⟩]
    styleSourceSelections := r.styleSourceSelections ++ [⟨instanceId, [source]⟩] }

/-- Adds the records of the style attribute of an instance, one declaration after the other. -/
def addStyles (instanceId : String) (r : DocumentFragment) (value : Value) :
    Except Failure DocumentFragment := do
  let r := r.addStyleSource instanceId
  let items ← styleItems value
  items.foldlM (fun r item => do
    return r.addDeclaration (styleSourceId instanceId) (← declarationOf item)) r

end DocumentFragment

end ViewGraph
