import ViewGraph.Value

/-!
# Records

The flat records that a template is lowered into. They refer to each other by ids: a child may be
the id of an instance, an attribute names its instance, and a style declaration names its source
and its breakpoint.

* `Child`, `Instance`: what stands where.
* `PropRecord`: one attribute of one instance, with content of one of ten kinds.
* `Breakpoint`, `StyleSource`, `StyleSourceSelection`, `StyleDecl`: the styles.
* `DocumentFragment`: all records of one template.
* `DocumentFragment.equals`: equality of the data.
-/

namespace ViewGraph

/-- A reference in a list of children. -/
inductive Child
  | text (value : String) (placeholder : Option Bool)
  | expression (value : String)
  | id (value : String)
deriving DecidableEq

/-- An instance of a component. -/
structure Instance where
  id : String
  component : String
  label : Option String
  children : List Child
deriving DecidableEq

/-- A number, whole or not. -/
inductive Number
  | whole (n : Int)
  | real (x : Binary64)
deriving DecidableEq

/-- The target of a link. -/
inductive PageTarget
  | page (id : String)
  /-- A target with an anchor, as a table of texts. -/
  | anchored (members : List (String × String))
deriving DecidableEq

/-- The content of an attribute. -/
inductive PropContent
  | expression (value : String)
  | parameter (value : String)
  | resource (value : String)
  | action (items : List (List (String × Value)))
  | asset (value : String)
  | page (target : PageTarget)
  | string (value : String)
  | number (value : Number)
  | boolean (value : Bool)
  | json (value : Value)

/-- One attribute of one instance. -/
structure PropRecord where
  id : String
  instanceId : String
  name : String
  content : PropContent

/-- A style declaration as it is written on an element. -/
structure Declaration where
  property : String
  value : Value
  state : Option String

structure Breakpoint where
  id : String
  label : String
deriving DecidableEq

/-- A source of styles that belongs to one instance. -/
structure StyleSource where
  id : String
deriving DecidableEq

/-- The style sources of an instance. -/
structure StyleSourceSelection where
  instanceId : String
  values : List String
deriving DecidableEq

/-- A style declaration with its source and its breakpoint. -/
structure StyleDecl where
  breakpointId : String
  styleSourceId : String
  state : Option String
  property : String
  value : Value

/-- All records of one template. Assets, data sources and resources are places for the consumers of
a fragment; lowering a template leaves them empty. -/
structure DocumentFragment where
  children : List Child := []
  instances : List Instance := []
  props : List PropRecord := []
  breakpoints : List Breakpoint := []
  styleSources : List StyleSource := []
  styleSourceSelections : List StyleSourceSelection := []
  styles : List StyleDecl := []
  assets : List Value := []
  dataSources : List Value := []
  resources : List Value := []

/-! ### Equality -/

namespace Number

def toValue : Number → Value
  | whole n => .int n
  | real x => .float x

end Number

/-- Equality of two lists by an equality of their items. -/
def equalLists {α : Type} (equal : α → α → Bool) : List α → List α → Bool
  | [], [] => true
  | x :: xs, y :: ys => equal x y && equalLists equal xs ys
  | _, _ => false

namespace PageTarget

/-- Tables with the same members are equal in any order. -/
def equals : PageTarget → PageTarget → Bool
  | page i, page j => i == j
  | anchored ms, anchored ns =>
    ms.length == ns.length && ms.all fun (name, v) => ns.lookup name == some v
  | _, _ => false

end PageTarget

namespace PropContent

/-- Contents are equal if they are of one kind and hold equal values. -/
def equals : PropContent → PropContent → Bool
  | expression v, expression w => v == w
  | parameter v, parameter w => v == w
  | resource v, resource w => v == w
  | action v, action w => equalLists (fun a b => (Value.dict a).equals (.dict b)) v w
  | asset v, asset w => v == w
  | page v, page w => v.equals w
  | string v, string w => v == w
  | number v, number w => v.toValue.equals w.toValue
  | boolean v, boolean w => v == w
  | json v, json w => v.equals w
  | _, _ => false

end PropContent

def PropRecord.equals (p q : PropRecord) : Bool :=
  p.id == q.id && p.instanceId == q.instanceId && p.name == q.name && p.content.equals q.content

def StyleDecl.equals (s t : StyleDecl) : Bool :=
  s.breakpointId == t.breakpointId && s.styleSourceId == t.styleSourceId && s.state == t.state &&
    s.property == t.property && s.value.equals t.value

/-- Equality of the data of two fragments. -/
def DocumentFragment.equals (f g : DocumentFragment) : Bool :=
  f.children == g.children && f.instances == g.instances &&
    equalLists PropRecord.equals f.props g.props && f.breakpoints == g.breakpoints &&
    f.styleSources == g.styleSources && f.styleSourceSelections == g.styleSourceSelections &&
    equalLists StyleDecl.equals f.styles g.styles && Value.allEqual f.assets g.assets &&
    Value.allEqual f.dataSources g.dataSources && Value.allEqual f.resources g.resources

end ViewGraph
