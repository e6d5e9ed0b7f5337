import ViewGraph.Record.Fields
import ViewGraph.Value.Plain

/-!
# Dumping records

A record is dumped as a table with one member a field, in the order of the fields. Some records are
sparse: their dump never holds a null.

* `dumpChild`, `dumpInstance`, `dumpProp`, …, `dumpFragment`: the records.
-/

namespace ViewGraph

/-- A field of a record with its data. `absent` says that the record holds nothing there. -/
structure Entry where
  field : Field
  absent : Bool
  data : Value

namespace Entry

/-- A field that holds something. -/
def of (field : Field) (data : Value) : Entry := ⟨field, false, data⟩

/-- A field that may hold nothing. -/
def ofText? (field : Field) (text? : Option String) : Entry :=
  ⟨field, text?.isNone, Value.ofText? text?⟩

def name (o : DumpOptions) (e : Entry) : String :=
  if o.externalNames then e.field.external else e.field.name

end Entry

/-- The table of some fields. -/
def dumpTable (o : DumpOptions) (entries : List Entry) : Value :=
  .dict ((entries.filter fun e => !(o.dropNull && e.absent)).map fun e => (e.name o, e.data))

/-- The table of some fields, without those that are null. -/
def dumpSparse (o : DumpOptions) (entries : List Entry) : Value :=
  dumpTable o (entries.filter fun e => !e.data.isNull)

/-- A list of texts. -/
def ofTexts (texts : List String) : Value := .list (texts.map .str)

/-! ### Children and instances -/

def dumpChild (o : DumpOptions) : Child → Value
  | .text value placeholder =>
    dumpSparse o
      [.of "type" (.str "text"), .of "value" (.str value),
       ⟨"placeholder", placeholder.isNone, placeholder.elim .null .bool⟩]
  | .expression value => dumpTable o [.of "type" (.str "expression"), .of "value" (.str value)]
  | .id value => dumpTable o [.of "type" (.str "id"), .of "value" (.str value)]

def dumpInstance (o : DumpOptions) (i : Instance) : Value :=
  dumpSparse o
    [.of "type" (.str "instance"), .of "id" (.str i.id), .of "component" (.str i.component),
     .ofText? "label" i.label, .of "children" (.list (i.children.map (dumpChild o)))]

/-! ### Attributes -/

def dumpPage : PageTarget → Value
  | .page id => .str id
  | .anchored members => .dict (members.map fun (name, s) => (name, .str s))

/-- The data of the content of an attribute. -/
def dumpContent (g : Graph) (exact : Bool) : PropContent → Except DumpError Value
  | .expression value | .parameter value | .resource value | .asset value | .string value =>
    .ok (.str value)
  | .action items => .list <$> items.mapM fun members => g.plain exact (.dict members)
  | .page target => .ok (dumpPage target)
  | .number value => .ok value.toValue
  | .boolean value => .ok (.bool value)
  | .json value => g.plain exact value

/-- Does an attribute hold nothing? -/
def PropContent.isNull : PropContent → Bool
  | .json value => value.isNull
  | _ => false

def dumpProp (g : Graph) (o : DumpOptions) (p : PropRecord) : Except DumpError Value := do
  let data ← dumpContent g o.exact p.content
  return dumpTable o
    [.of "id" (.str p.id), .of .instanceId (.str p.instanceId), .of "name" (.str p.name),
     .of "type" (.str p.content.kind.tag), ⟨"value", p.content.isNull, data⟩]

/-! ### Styles -/

def dumpDeclaration (g : Graph) (o : DumpOptions) (d : Declaration) : Except DumpError Value := do
  let data ← g.plain o.exact d.value
  return dumpSparse o
    [.of "property" (.str d.property), ⟨"value", d.value.isNull, data⟩, .ofText? "state" d.state]

def dumpBreakpoint (o : DumpOptions) (b : Breakpoint) : Value :=
  dumpTable o [.of "id" (.str b.id), .of "label" (.str b.label)]

def dumpStyleSource (o : DumpOptions) (s : StyleSource) : Value :=
  dumpTable o [.of "type" (.str "local"), .of "id" (.str s.id)]

def dumpSelection (o : DumpOptions) (s : StyleSourceSelection) : Value :=
  dumpTable o [.of .instanceId (.str s.instanceId), .of "values" (ofTexts s.values)]

def dumpStyleDecl (g : Graph) (o : DumpOptions) (s : StyleDecl) : Except DumpError Value := do
  let data ← g.plain o.exact s.value
  return dumpSparse o
    [.of .breakpointId (.str s.breakpointId), .of .styleSourceId (.str s.styleSourceId),
     .ofText? "state" s.state, .of "property" (.str s.property), ⟨"value", s.value.isNull, data⟩]

/-! ### Fragments -/

def dumpFragment (g : Graph) (o : DumpOptions) (f : DocumentFragment) : Except DumpError Value := do
  let props ← f.props.mapM (dumpProp g o)
  let styles ← f.styles.mapM (dumpStyleDecl g o)
  let assets ← g.plainList o.exact f.assets
  let dataSources ← g.plainList o.exact f.dataSources
  let resources ← g.plainList o.exact f.resources
  return dumpTable o
    [.of "children" (.list (f.children.map (dumpChild o))),
     .of "instances" (.list (f.instances.map (dumpInstance o))),
     .of "props" (.list props),
     .of "breakpoints" (.list (f.breakpoints.map (dumpBreakpoint o))),
     .of .styleSources (.list (f.styleSources.map (dumpStyleSource o))),
     .of .styleSourceSelections (.list (f.styleSourceSelections.map (dumpSelection o))),
     .of "styles" (.list styles), .of "assets" (.list assets),
     .of .dataSources (.list dataSources), .of "resources" (.list resources)]

end ViewGraph
