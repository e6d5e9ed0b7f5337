import ViewGraph.Graph

/-!
# Plain data

Records are dumped as plain data: nulls, truth values, numbers, texts, lists and tables. A value of
any kind that a record holds is dumped by its fields. In the data of a JSON document a tuple is a
list and a number that is not finite is null; exact data keep both.

* `Graph.plain`: the plain data of a value.
-/

namespace ViewGraph

/-- How data are dumped: for JSON or exactly, with the external or the internal field names, with
or without the fields that hold nothing. -/
structure DumpOptions where
  exact : Bool := false
  externalNames : Bool := true
  dropNull : Bool := false
deriving DecidableEq

/-- Why a value has no plain data. -/
inductive DumpError
  /-- The marker of fragments is no data. -/
  | notData
  /-- An element contains itself. -/
  | circular
deriving DecidableEq

/-- Members of a table, without those that are null. -/
def withoutNull (members : List (String × Value)) : List (String × Value) :=
  members.filter fun (_, v) => !v.isNull

namespace Value

mutual

/-- The plain data of a value, given the plain data of an element. -/
def plain (exact : Bool) (element : Handle → Except DumpError Value) :
    Value → Except DumpError Value
  | null => .ok null
  | bool b => .ok (bool b)
  | int n => .ok (int n)
  | float x => .ok (if exact || x.isFinite then float x else null)
  | str s => .ok (str s)
  | list items => list <$> plains exact element items
  | tuple items => (if exact then tuple else list) <$> plains exact element items
  | dict members => dict <$> plainMembers exact element members
  | wrapped kind payload => do
    let payload ← plain exact element payload
    return dict [(kind.field, payload)]
  | action args code => do
    let args ← plain exact element args
    let code ← plain exact element code
    return dict [("args", args), ("code", code)]
  | page target anchor => do
    let target ← plain exact element target
    let anchor ← plain exact element anchor
    return dict [("page_id", target), ("instance_id", anchor)]
  | style property value state => do
    let value ← plain exact element value
    return dict
      (withoutNull [("property", str property), ("value", value), ("state", ofText? state)])
  | fragment => if exact then .ok fragment else .error .notData
  | component name => do
    let name ← plain exact element name
    return dict [("name", name)]
  | .element handle => element handle

/-- The plain data of the items of a list. -/
def plains (exact : Bool) (element : Handle → Except DumpError Value) :
    List Value → Except DumpError (List Value)
  | [] => .ok []
  | item :: rest => do
    let item ← plain exact element item
    let rest ← plains exact element rest
    return item :: rest

/-- The plain data of the members of a table. -/
def plainMembers (exact : Bool) (element : Handle → Except DumpError Value) :
    List (String × Value) → Except DumpError (List (String × Value))
  | [] => .ok []
  | (name, value) :: rest => do
    let value ← plain exact element value
    let rest ← plainMembers exact element rest
    return (name, value) :: rest

end

end Value

namespace Graph

/-- The plain data of an element. `inside` lists the elements it stands in, and `fuel` bounds how
many more can be entered. -/
def plainElement (g : Graph) (exact : Bool) : Nat → List Handle → Handle → Except DumpError Value
  | 0, _, _ => .error .circular
  | fuel + 1, inside, h =>
    if inside.contains h then if exact then .ok (.element h) else .error .circular
    else match g.find? h with
      | none => .error .circular
      | some e => do
        let element := g.plainElement exact fuel (h :: inside)
        let component ← e.component.plain exact element
        let props ← Value.plainMembers exact element e.props
        let children ← Value.plains exact element e.children
        return .dict
          [("component", component), ("props", .dict props), ("children", .list children)]

/-- The plain data of a value of this graph. -/
def plain (g : Graph) (exact : Bool) (v : Value) : Except DumpError Value :=
  v.plain exact (g.plainElement exact (g.nodes.size + 1) [])

/-- The plain data of several values. -/
def plainList (g : Graph) (exact : Bool) (vs : List Value) : Except DumpError (List Value) :=
  Value.plains exact (g.plainElement exact (g.nodes.size + 1) []) vs

end Graph

end ViewGraph
