import ViewGraph.Number.Decimal
import ViewGraph.Text.Quoted
import ViewGraph.Value

/-!
# Display of values

The text of a value, as ids, labels and messages show it. A text shows as itself; inside another
value it stands in quotes. How an element shows is a parameter, because that takes its graph. A value
that holds a whole number with too many digits does not show at all.

* `Value.inner`: a value inside another one.
* `Value.display`: a value on its own.
* `display_str`, `display_int`: a text shows as itself, a whole number as its decimal numeral.
-/

namespace ViewGraph

/-- Texts with a separator between them. -/
def joined (separator : List Char) : List (List Char) → List Char
  | [] => []
  | [text] => text
  | text :: rest => text ++ separator ++ joined separator rest

/-- A call-like display: a class and its fields. -/
def called (name : String) (fields : List (String × List Char)) : List Char :=
  name.toList ++ '(' ::
    joined [',', ' '] (fields.map fun (field, text) => field.toList ++ '=' :: text) ++ [')']

namespace Wrapper

/-- The name of the field that holds the payload. -/
def field : Wrapper → String
  | .expression => "expression"
  | .parameter => "data_source_id"
  | .resource => "resource_id"
  | .asset => "asset_id"
  | .placeholder => "text"

end Wrapper

namespace Value

/-- An optional text inside another value. -/
def innerText? : Option String → List Char
  | some s => quoted s.toList
  | none => ['N', 'o', 'n', 'e']

mutual

/-- The display of a value inside another one. -/
def inner (element : Handle → Shown (List Char)) : Value → Shown (List Char)
  | null => .ok ['N', 'o', 'n', 'e']
  | bool b => .ok (if b then ['T', 'r', 'u', 'e'] else ['F', 'a', 'l', 's', 'e'])
  | int n => showInt n
  | float x => .ok x.text
  | str s => .ok (quoted s.toList)
  | list items => do
    let items ← inners element items
    return '[' :: joined [',', ' '] items ++ [']']
  | tuple items => do
    let texts ← inners element items
    return '(' :: joined [',', ' '] texts ++ (if items.length = 1 then [',', ')'] else [')'])
  | dict members => do
    let members ← innerMembers element members
    return '\x7b' :: joined [',', ' '] members ++ ['\x7d']
  | wrapped kind payload => do
    let payload ← inner element payload
    return called (wrapperName kind) [(kind.field, payload)]
  | action args code => do
    let args ← inner element args
    let code ← inner element code
    return called "ActionValue" [("args", args), ("code", code)]
  | page target anchor => do
    let target ← inner element target
    let anchor ← inner element anchor
    return called "PageValue" [("page_id", target), ("instance_id", anchor)]
  | style property value state => do
    let value ← inner element value
    return called "TemplateStyleDecl"
      [("property", quoted property.toList), ("value", value), ("state", innerText? state)]
  | fragment => .ok ['F', 'R', 'A', 'G', 'M', 'E', 'N', 'T']
  | component name => do
    let name ← inner element name
    return called "ComponentRef" [("name", name)]
  | .element handle => element handle

/-- The displays of the items of a list. -/
def inners (element : Handle → Shown (List Char)) : List Value → Shown (List (List Char))
  | [] => .ok []
  | item :: rest => do
    let item ← inner element item
    let rest ← inners element rest
    return item :: rest

/-- The displays of the members of a table. -/
def innerMembers (element : Handle → Shown (List Char)) :
    List (String × Value) → Shown (List (List Char))
  | [] => .ok []
  | (name, value) :: rest => do
    let value ← inner element value
    let rest ← innerMembers element rest
    return (quoted name.toList ++ [':', ' '] ++ value) :: rest

end

/-- The display of a value on its own. -/
def display (element : Handle → Shown (List Char)) : Value → Shown (List Char)
  | str s => .ok s.toList
  | style property value state => do
    let value ← inner element value
    return joined [' ']
      ["property=".toList ++ quoted property.toList, "value=".toList ++ value,
       "state=".toList ++ innerText? state]
  | value => inner element value

theorem display_str (element : Handle → Shown (List Char)) (s : String) :
    display element (str s) = .ok s.toList := rfl

theorem display_int (element : Handle → Shown (List Char)) (n : Int) :
    display element (int n) = showInt n := by
  simp [display, inner]

end Value

end ViewGraph
