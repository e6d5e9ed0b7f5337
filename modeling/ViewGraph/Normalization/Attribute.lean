import ViewGraph.Normalization.Prop
import ViewGraph.Normalization.Style

/-!
# The records of attributes

The attributes of an instance are gone through in the order in which they are written. Some have a
meaning of their own and give no record, the style attribute gives style records, and each other one
gives one record.

* `isReserved`: the attributes without a record.
* `DocumentFragment.addAttributes`: adds the records of the attributes of an instance.
-/

namespace ViewGraph

/-- The attributes that have a meaning of their own and give no record. -/
def isReserved (name : String) : Bool :=
  name = Element.idAttribute || name = Element.labelAttribute || name = Element.childrenAttribute

namespace DocumentFragment

/-- Adds the records of the attributes of an instance. -/
def addAttributes (g : Graph) (id : String) :
    DocumentFragment → List (String × Value) → Logged Failure DocumentFragment
  | r, [] => return r
  | r, (name, v) :: rest =>
    if isReserved name then addAttributes g id r rest
    else if name = Element.styleAttribute then do
      let r ← Logged.ofExcept (r.addStyles id v)
      addAttributes g id r rest
    else do
      let prop ← createProp g.text (.str id) (.str name) v
      addAttributes g id { r with props := r.props ++ [prop] } rest

end DocumentFragment

end ViewGraph
