import ViewGraph.Number.Binary64
import ViewGraph.Table

/-!
# Values

What an attribute, a child or a document can hold: the data of JSON documents, the typed values of
a template, and elements, which live in a graph and are named by their place in it.

The names in a table are texts, and texts are sequences of Unicode scalar values. A table with other names,
which no JSON document has, is not a value here; a program that passes one is not described.

* `Value.isTrue`: whether an optional value counts as given.
* `Value.equals`: equality of values. Numbers compare by value, elements by identity.
* `Value.typeName`: the name of the kind of value that messages use.
-/

namespace ViewGraph

/-- The place of an element in its graph. Two elements are the same element exactly if their
places are equal. -/
structure Handle where
  index : Nat
deriving DecidableEq

/-- The typed values with one payload. -/
inductive Wrapper
  | expression
  | parameter
  | resource
  | asset
  | placeholder
deriving DecidableEq

/-- A value. The payload of a typed value is not restricted; whether it fits is decided by the
record that it is put in. -/
inductive Value
  | null
  | bool (b : Bool)
  | int (n : Int)
  | float (x : Binary64)
  | str (s : String)
  | list (items : List Value)
  | tuple (items : List Value)
  | dict (members : List (String × Value))
  | wrapped (kind : Wrapper) (payload : Value)
  | action (args code : Value)
  | page (target anchor : Value)
  | style (property : String) (value : Value) (state : Option String)
  | fragment
  | component (name : Value)
  | element (handle : Handle)

instance : Inhabited Value := ⟨.null⟩

namespace Value

/-- A text, or null for none. -/
def ofText? : Option String → Value
  | some s => .str s
  | none => .null

/-- Does an optional value count as given? Null, false, zero and whatever is empty do not. -/
def isTrue : Value → Bool
  | null => false
  | bool b => b
  | int n => n ≠ 0
  | float x => !x.isZero
  | str s => !s.isEmpty
  | list items => !items.isEmpty
  | tuple items => !items.isEmpty
  | dict members => !members.isEmpty
  | _ => true

def isNull : Value → Bool
  | null => true
  | _ => false

/-- The name of a class of typed values. -/
def wrapperName : Wrapper → String
  | .expression => "ExpressionValue"
  | .parameter => "ParameterValue"
  | .resource => "ResourceValue"
  | .asset => "AssetValue"
  | .placeholder => "PlaceholderValue"

/-- The name of the kind of a value. -/
def typeName : Value → String
  | null => "NoneType"
  | bool _ => "bool"
  | int _ => "int"
  | float _ => "float"
  | str _ => "str"
  | list _ => "list"
  | tuple _ => "tuple"
  | dict _ => "dict"
  | wrapped kind _ => wrapperName kind
  | action .. => "ActionValue"
  | page .. => "PageValue"
  | style .. => "TemplateStyleDecl"
  | fragment => "_FragmentMarker"
  | component _ => "ComponentRef"
  | element _ => "Element"

/-- The whole number or the truth value that a value is, as a number. -/
def whole? : Value → Option Int
  | bool b => some (if b then 1 else 0)
  | int n => some n
  | _ => none

/-- Equality of two values without parts. -/
def sameLeaf : Value → Value → Bool
  | null, null => true
  | str s, str t => s == t
  | fragment, fragment => true
  | element g, element h => g == h
  | float x, float y => x.equals y
  | float x, v => match v.whole? with
    | some n => x.equalsInt n
    | none => false
  | v, float y => match v.whole? with
    | some n => y.equalsInt n
    | none => false
  | v, w => match v.whole?, w.whole? with
    | some m, some n => m == n
    | _, _ => false

mutual

/-- Equality of values. Tables are equal if they give the same names equal values, in any order. -/
def equals : Value → Value → Bool
  | list xs, w => match w with
    | list ys => allEqual xs ys
    | _ => false
  | tuple xs, w => match w with
    | tuple ys => allEqual xs ys
    | _ => false
  | dict ms, w => match w with
    | dict ns => ms.length == ns.length && allFound ms ns
    | _ => false
  | wrapped k v, w => match w with
    | wrapped l u => k == l && equals v u
    | _ => false
  | action a c, w => match w with
    | action b d => equals a b && equals c d
    | _ => false
  | page p i, w => match w with
    | page q j => equals p q && equals i j
    | _ => false
  | style p v s, w => match w with
    | style q u t => p == q && equals v u && s == t
    | _ => false
  | component n, w => match w with
    | component m => equals n m
    | _ => false
  | v, w => sameLeaf v w

/-- Equality of two lists, place by place. -/
def allEqual : List Value → List Value → Bool
  | [], ys => ys.isEmpty
  | x :: xs, ys => match ys with
    | [] => false
    | y :: ys => equals x y && allEqual xs ys

/-- Does the second table give every name of the first an equal value? -/
def allFound : List (String × Value) → List (String × Value) → Bool
  | [], _ => true
  | (name, v) :: ms, ns =>
    (match Table.find? name ns with
      | some u => equals v u
      | none => false) && allFound ms ns

end

end Value

end ViewGraph
