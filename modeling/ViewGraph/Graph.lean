import ViewGraph.Value.Display

/-!
# Graphs of elements

A template is a tree of elements in which an element may stand at several places, and an element
that is changed after it was built may even contain itself. So the elements of a template are kept
in one table, and wherever an element stands there is its handle.

* `Graph.find?`, `Graph.push`, `Graph.update`: look-up, a new element, a change.
* `Graph.text`: the text of a value. An element that is being shown already shows as `...`.
* `text_str`, `text_int`: the texts of a text and of a whole number.
* `Graph.mention`: a value in a message about it, whether it has a text or not.
* `Element.isFragment`, `Graph.explicitId?`, `Graph.label?`: what a node is and calls itself.
-/

namespace ViewGraph

/-- One node of a template. -/
structure Element where
  component : Value
  props : List (String × Value)
  children : List Value
deriving Inhabited

namespace Element

/-- The attribute that names an instance. -/
def idAttribute : String := "ws:id"

/-- The attribute that labels an instance. -/
def labelAttribute : String := "ws:label"

/-- The attribute that holds local style declarations. -/
def styleAttribute : String := "ws:style"

/-- The attribute that holds further children. -/
def childrenAttribute : String := "children"

/-- A fragment groups children and is no instance itself. -/
def isFragment (e : Element) : Bool :=
  match e.component with
  | .fragment => true
  | _ => false

end Element

/-- The elements of a template, each at the place that its handle names. -/
structure Graph where
  nodes : Array Element
deriving Inhabited

namespace Graph

def empty : Graph := ⟨#[]⟩

def find? (g : Graph) (h : Handle) : Option Element := g.nodes[h.index]?

/-- Adds an element that is distinct from all others. -/
def push (g : Graph) (e : Element) : Graph × Handle := (⟨g.nodes.push e⟩, ⟨g.nodes.size⟩)

/-- Changes an element in place. -/
def update (g : Graph) (h : Handle) (change : Element → Element) : Graph :=
  ⟨g.nodes.modify h.index change⟩

theorem find?_push (g : Graph) (e : Element) : (g.push e).1.find? (g.push e).2 = some e := by
  simp [push, find?]

/-- The text of an element. `inside` lists the elements it stands in, and `fuel` bounds how many
more can be entered. -/
def elementText (g : Graph) : Nat → List Handle → Handle → Shown (List Char)
  | 0, _, _ => .ok ['.', '.', '.']
  | fuel + 1, inside, h =>
    if inside.contains h then .ok ['.', '.', '.']
    else match g.find? h with
      | none => .ok ['.', '.', '.']
      | some e => do
        let inner := Value.inner (g.elementText fuel (h :: inside))
        let component ← inner e.component
        let props ← inner (.dict e.props)
        let children ← inner (.list e.children)
        return called "Element"
          [("component", component), ("props", props), ("children", children)]

/-- The characters of the text of a value of this graph. -/
def displayed (g : Graph) (v : Value) : Shown (List Char) :=
  v.display (g.elementText (g.nodes.size + 1) [])

/-- The text of a value of this graph. -/
def text (g : Graph) (v : Value) : Shown String := String.ofList <$> g.displayed v

theorem text_str (g : Graph) (s : String) : g.text (.str s) = .ok s :=
  congrArg Except.ok String.ofList_toList

theorem text_int (g : Graph) (n : Int) : g.text (.int n) = String.ofList <$> showInt n := by
  rw [text, displayed, Value.display_int]

/-- A value in a message about it: its text, or its kind if it has none. -/
def mention (g : Graph) (v : Value) : String :=
  match g.text v with
  | .ok text => text
  | .error _ => "<unprintable " ++ v.typeName ++ " object>"

/-- The id that an element asks for. -/
def explicitId? (g : Graph) (e : Element) : Shown (Option String) :=
  match Table.find? Element.idAttribute e.props with
  | none => .ok none
  | some .null => .ok none
  | some v => some <$> g.text v

/-- The label that an element gives itself. -/
def label? (g : Graph) (e : Element) : Shown (Option String) :=
  match Table.find? Element.labelAttribute e.props with
  | none => .ok none
  | some v => if v.isTrue then some <$> g.text v else .ok none

end Graph

end ViewGraph
