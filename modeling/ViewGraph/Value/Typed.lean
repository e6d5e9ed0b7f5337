import ViewGraph.Value

/-!
# Typed values

Each typed value has a kind and a payload, which is what a record of that kind holds.

* `Value.kind?`: the name of the kind of a typed value.
* `Value.payload?`: its payload. An action whose arguments cannot be listed has none.
* `Value.items?`: the items of a value that can stand for a list.
-/

namespace ViewGraph

namespace Wrapper

/-- The name of the kind. -/
def kind : Wrapper → String
  | .expression => "expression"
  | .parameter => "parameter"
  | .resource => "resource"
  | .asset => "asset"
  | .placeholder => "placeholder"

end Wrapper

namespace Value

/-- The items of a value that can stand for a list: the items of a list, the characters of a text,
the names of a table, the fields of a declaration. -/
def items? : Value → Option (List Value)
  | list items => some items
  | tuple items => some items
  | str s => some (s.toList.map fun c => str (String.singleton c))
  | dict members => some (members.map fun (name, _) => str name)
  | style property value state =>
    some [tuple [str "property", str property], tuple [str "value", value],
      tuple [str "state", ofText? state]]
  | _ => none

/-- The payload of an action: what is executed. -/
def actionPayload (args : List Value) (code : Value) : Value :=
  dict [("type", str "execute"), ("args", list args), ("code", code)]

/-- The payload of a link: a page, or a page with an anchor. -/
def pagePayload (target anchor : Value) : Value :=
  if anchor.isTrue then dict [("pageId", target), ("instanceId", anchor)] else target

/-- The kind of a typed value. -/
def kind? : Value → Option String
  | wrapped kind _ => some kind.kind
  | action .. => some "action"
  | page .. => some "page"
  | _ => none

/-- The payload of a typed value. -/
def payload? : Value → Option Value
  | wrapped _ payload => some payload
  | action args code => args.items?.map fun items => actionPayload items code
  | page target anchor => some (pagePayload target anchor)
  | _ => none

mutual

/-- Can a value be a member of a set? A value that can change cannot, nor can one that holds it. -/
def isHashable : Value → Bool
  | list _ => false
  | dict _ => false
  | tuple items => allHashable items
  | wrapped _ payload => isHashable payload
  | action args code => isHashable args && isHashable code
  | page target anchor => isHashable target && isHashable anchor
  | style _ value _ => isHashable value
  | component name => isHashable name
  | _ => true

def allHashable : List Value → Bool
  | [] => true
  | v :: rest => isHashable v && allHashable rest

end

/-- The ids among the items of a value that stands for a set of reserved ids. -/
def reservedIds? (v : Value) : Option (List String) := do
  let items ← v.items?
  if items.all isHashable then
    some (items.filterMap fun
      | str s => some s
      | _ => none)
  else none

end Value

end ViewGraph
