import ViewGraph.Json.Text
import ViewGraph.Value.Display

/-!
# Writing JSON text

A value is written on one line, or with one item a line under an indentation that grows with the
depth. A number that is not finite has no JSON text and is refused, and so is a whole number with too
many digits. A value that is no JSON data is written as the string that displays it.

* `Json.write`: the text of a value.
* `Json.Layout`: on one line, or indented.
-/

namespace ViewGraph.Json

/-- How a text is laid out. -/
inductive Layout
  | oneLine
  /-- One item a line, with this text for each level of depth. -/
  | indented (unit : List Char)

/-- Why a value has no JSON text. -/
inductive WriteError
  | notFinite (number : Binary64)
  /-- A whole number, here or in what is displayed, has too many digits. -/
  | tooManyDigits
deriving DecidableEq

/-- What is shown, in a text that is written. -/
def ofShown {α : Type} : Shown α → Except WriteError α
  | .ok a => .ok a
  | .error _ => .error .tooManyDigits

/-- The string that displays a value. -/
def displayString (text : Shown (List Char)) : Except WriteError (List Char) := do
  let text ← ofShown text
  return string (String.ofList text)

namespace Layout

/-- What stands in front of an item at a depth. -/
def lineBreak (layout : Layout) (depth : Nat) : List Char :=
  match layout with
  | .oneLine => []
  | .indented unit => '\n' :: (List.replicate depth unit).flatten

/-- What stands between two items at a depth. -/
def separator (layout : Layout) (depth : Nat) : List Char :=
  match layout with
  | .oneLine => [',', ' ']
  | .indented _ => ',' :: layout.lineBreak depth

/-- Items between brackets at a depth. Brackets that hold nothing stand close together. -/
def bracketed (layout : Layout) (depth : Nat) (opening closing : Char) (items : List (List Char)) :
    List Char :=
  if items.isEmpty then [opening, closing]
  else
    opening :: layout.lineBreak (depth + 1) ++ joined (layout.separator (depth + 1)) items ++
      layout.lineBreak depth ++ [closing]

end Layout

mutual

/-- The text of a value at a depth. -/
def writeValue (display : Value → Shown (List Char)) (layout : Layout) (depth : Nat) :
    Value → Except WriteError (List Char)
  | .null => .ok ['n', 'u', 'l', 'l']
  | .bool b => .ok (if b then ['t', 'r', 'u', 'e'] else ['f', 'a', 'l', 's', 'e'])
  | .int n => ofShown (showInt n)
  | .float x => if x.isFinite then .ok x.text else .error (.notFinite x)
  | .str s => .ok (string s)
  | .list items => do
    let texts ← writeItems display layout (depth + 1) items
    return layout.bracketed depth '[' ']' texts
  | .tuple items => do
    let texts ← writeItems display layout (depth + 1) items
    return layout.bracketed depth '[' ']' texts
  | .dict members => do
    let texts ← writeMembers display layout (depth + 1) members
    return layout.bracketed depth '\x7b' '\x7d' texts
  | .wrapped kind payload => displayString (display (.wrapped kind payload))
  | .action args code => displayString (display (.action args code))
  | .page target anchor => displayString (display (.page target anchor))
  | .style property value state => displayString (display (.style property value state))
  | .fragment => displayString (display .fragment)
  | .component name => displayString (display (.component name))
  | .element handle => displayString (display (.element handle))

/-- The texts of the items of a list. -/
def writeItems (display : Value → Shown (List Char)) (layout : Layout) (depth : Nat) :
    List Value → Except WriteError (List (List Char))
  | [] => .ok []
  | item :: rest => do
    let text ← writeValue display layout depth item
    let texts ← writeItems display layout depth rest
    return text :: texts

/-- The texts of the members of a table. -/
def writeMembers (display : Value → Shown (List Char)) (layout : Layout) (depth : Nat) :
    List (String × Value) → Except WriteError (List (List Char))
  | [] => .ok []
  | (name, value) :: rest => do
    let text ← writeValue display layout depth value
    let texts ← writeMembers display layout depth rest
    return (string name ++ ':' :: ' ' :: text) :: texts

end

/-- The text of a value. -/
def write (display : Value → Shown (List Char)) (layout : Layout) (v : Value) :
    Except WriteError (List Char) :=
  writeValue display layout 0 v

end ViewGraph.Json
