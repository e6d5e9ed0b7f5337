import ViewGraph.Tree

/-!
# Template documents

A node of a template document is a table with a component and perhaps with attributes and children,
or a list, which is a fragment. An attribute may be a typed value, written as a table with one
member whose name is a tag.

An error of the format tells the way to the offending place from outside in, so what a part of a
document reports does not depend on where it stands. A number among children stands for its text, so
one with too many digits cannot be loaded; that is no error of the format and has no place.

* `Document.load`: the tree of a document.
* `Document.loadValue`: a typed value.
* `DocumentError.path`, `DocumentError.message`: the place and the problem in words.
-/

namespace ViewGraph

/-- A step into a document. -/
inductive Step
  | member (name : String)
  | index (i : Nat)
deriving DecidableEq

/-- What is wrong at a place of a document. -/
inductive Problem
  | textExpected (got : String)
  | actionExpected
  | argumentsExpected
  | pageExpected
  | unknownTag (tag : String)
  | valueAsChild
  | labelExpected
  | stylesExpected
  | declarationExpected
  | nodeExpected (got : String)
  | componentMissing
  | propsExpected
  | childrenExpected
deriving DecidableEq

/-- A problem, and the way to it from outside in. -/
structure DocumentError where
  steps : List Step
  problem : Problem
deriving DecidableEq

/-- Why a document has no tree. -/
inductive LoadError
  | format (e : DocumentError)
  /-- A number among children has too many digits. -/
  | tooManyDigits
deriving DecidableEq

abbrev Loading (α : Type) := Except LoadError α

/-- The problem in words. -/
def Problem.text : Problem → String
  | textExpected got => "expected a string, got " ++ got
  | actionExpected => "action must be an object with 'args' and 'code'"
  | argumentsExpected => "action args must be a list of strings"
  | pageExpected => "page must be a page id or an object with 'pageId'"
  | unknownTag tag => "unknown value tag '" ++ tag ++ "'"
  | valueAsChild => "only $expression and $placeholder values may be children"
  | labelExpected => "label must be a string"
  | stylesExpected => "styles must be a list of declarations"
  | declarationExpected => "style declaration needs 'property' and 'value'"
  | nodeExpected got => "expected a node object, got " ++ got
  | componentMissing => "node is missing 'component'"
  | propsExpected => "props must be an object"
  | childrenExpected => "children must be a list"

/-- A path, one step longer. -/
def Step.extend (path : String) : Step → String
  | member name => if path.isEmpty then name else path ++ "." ++ name
  | index i => path ++ "[" ++ toString i ++ "]"

namespace DocumentError

/-- The place of the problem in a document that stands at `base`. -/
def path (base : String) (e : DocumentError) : String := e.steps.foldl Step.extend base

/-- The problem in words, with its place. -/
def message (base : String) (e : DocumentError) : String :=
  let path := e.path base
  (if path.isEmpty then "root" else path) ++ ": " ++ e.problem.text

end DocumentError

namespace Document

/-- A problem of the value itself. -/
def fail {α : Type} (problem : Problem) : Loading α := .error (.format ⟨[], problem⟩)

/-- What is found inside a part: the way to an error of the format gets longer. -/
def within {α : Type} (step : Step) (r : Loading α) : Loading α :=
  r.mapError fun
    | .format e => .format { e with steps := step :: e.steps }
    | .tooManyDigits => .tooManyDigits

/-! ### Typed values -/

def text : Value → Loading String
  | .str s => .ok s
  | v => fail (.textExpected v.typeName)

/-- The tag and the payload of a typed value. -/
def tagged? : Value → Option (String × Value)
  | .dict [(tag, payload)] => if tag.startsWith "$" then some (tag, payload) else none
  | _ => none

def isText : Value → Bool
  | .str _ => true
  | _ => false

/-- An action: a list of argument names, and code. Each may be left out. -/
def loadAction : Value → Loading Value
  | .dict members => do
    let args := (Table.find? "args" members).getD (.list [])
    match args with
    | .list items =>
      if items.all isText then
        let code ← within (.member "code") (text ((Table.find? "code" members).getD (.str "")))
        return .action (.list items) (.str code)
      else within (.member "args") (fail .argumentsExpected)
    | _ => within (.member "args") (fail .argumentsExpected)
  | _ => fail .actionExpected

/-- A page: its id, or a table with its id and perhaps that of an instance on it. -/
def loadPage : Value → Loading Value
  | .str s => .ok (.page (.str s) .null)
  | .dict members =>
    match Table.find? "pageId" members with
    | none => fail .pageExpected
    | some page => do
      let page ← within (.member "pageId") (text page)
      match (Table.find? "instanceId" members).getD .null with
      | .null => return .page (.str page) .null
      | anchor =>
        let anchor ← within (.member "instanceId") (text anchor)
        return .page (.str page) (.str anchor)
  | _ => fail .pageExpected

/-- A typed value with one text. -/
def loadWrapped (kind : Wrapper) (payload : Value) : Loading Value := do
  return .wrapped kind (.str (← text payload))

/-- The typed value of a tag. -/
def loadPayload (tag : String) (payload : Value) : Loading Value :=
  if tag = "$expression" then within (.member tag) (loadWrapped .expression payload)
  else if tag = "$parameter" then within (.member tag) (loadWrapped .parameter payload)
  else if tag = "$resource" then within (.member tag) (loadWrapped .resource payload)
  else if tag = "$asset" then within (.member tag) (loadWrapped .asset payload)
  else if tag = "$placeholder" then within (.member tag) (loadWrapped .placeholder payload)
  else if tag = "$action" then within (.member tag) (loadAction payload)
  else if tag = "$page" then within (.member tag) (loadPage payload)
  else fail (.unknownTag tag)

/-- A typed value, if the value is tagged; any other value is left as it is. -/
def loadValue (v : Value) : Loading Value :=
  match tagged? v with
  | some (tag, payload) => loadPayload tag payload
  | none => .ok v

/-! ### Attributes -/

def checkLabel : Option Value → Loading Unit
  | none | some .null | some (.str _) => .ok ()
  | some _ => fail .labelExpected

/-- A style declaration has a property and a value, and perhaps a state. -/
def checkDeclarationTable : Value → Loading Unit
  | .dict members =>
    match Table.find? "property" members, Table.find? "value" members with
    | some property, some _ => do
      let _ ← within (.member "property") (text property)
      match (Table.find? "state" members).getD .null with
      | .null => return ()
      | state =>
        let _ ← within (.member "state") (text state)
        return ()
    | _, _ => fail .declarationExpected
  | _ => fail .declarationExpected

def checkDeclarations : Nat → List Value → Loading Unit
  | _, [] => .ok ()
  | i, v :: rest => do
    within (.index i) (checkDeclarationTable v)
    checkDeclarations (i + 1) rest

def checkStyles : Option Value → Loading Unit
  | none | some .null => .ok ()
  | some (.list items) => checkDeclarations 0 items
  | some _ => fail .stylesExpected

/-- The label and the style declarations have to be well formed. -/
def checkReserved (props : List (String × Value)) : Loading Unit := do
  within (.member Element.labelAttribute)
    (checkLabel (Table.find? Element.labelAttribute props))
  within (.member Element.styleAttribute)
    (checkStyles (Table.find? Element.styleAttribute props))

def loadProps : List (String × Value) → Loading (List (String × Value))
  | [] => .ok []
  | (name, v) :: rest => do
    let v ← within (.member name) (loadValue v)
    let rest ← loadProps rest
    return (name, v) :: rest

/-- The attributes of a node before their values are loaded; whatever counts as not given stands for
none. -/
def propsOf (members : List (String × Value)) : Loading (List (String × Value)) :=
  match (Table.find? "props" members).getD .null with
  | .dict props => .ok props
  | v => if v.isTrue then fail .propsExpected else .ok []

/-- The children of a node have to be a list, if they are given. -/
def checkChildren (members : List (String × Value)) : Loading Unit :=
  match (Table.find? "children" members).getD .null with
  | .list _ => .ok ()
  | v => if v.isTrue then fail .childrenExpected else .ok ()

/-! ### Nodes -/

/-- The component that makes a node a fragment. -/
def fragmentComponent : String := "Fragment"

/-- A whole number among children stands for its numeral. -/
def loadWhole (n : Int) : Loading Value :=
  match showInt n with
  | .ok text => .ok (.str (String.ofList text))
  | .error _ => .error .tooManyDigits

/-- A child that is no node: a text, a number as its numeral, or a typed value that can stand among
children. -/
def loadLeaf? : Value → Option (Loading Value)
  | .str s => some (.ok (.str s))
  | .int n => some (loadWhole n)
  | .float x => some (.ok (.str (String.ofList x.text)))
  | v => (tagged? v).map fun (tag, payload) => do
    let value ← loadPayload tag payload
    match value with
    | .wrapped .expression _ | .wrapped .placeholder _ => return value
    | _ => fail .valueAsChild

mutual

/-- The tree of a node. -/
def load : Value → Loading Tree
  | .list items => do
    let children ← loadChildren 0 items
    return .node .fragment [] children
  | .dict members => do
    let some component := Table.find? "component" members | fail .componentMissing
    let name ← within (.member "component") (text component)
    let props ← within (.member "props") (propsOf members)
    within (.member "props") (checkReserved props)
    within (.member "children") (checkChildren members)
    let props ← within (.member "props") (loadProps props)
    let children ← within (.member "children") (loadMember members)
    return .node (if name = fragmentComponent then .fragment else .str name) props children
  | v => fail (.nodeExpected v.typeName)

/-- The children in the list that a table of a node holds under their name. -/
def loadMember : List (String × Value) → Loading (List Tree)
  | [] => .ok []
  | (name, v) :: rest =>
    if name = "children" then
      match v with
      | .list items => loadChildren 0 items
      | _ => .ok []
    else loadMember rest

/-- The children in a list, the first of them at this index. A null is no child. -/
def loadChildren : Nat → List Value → Loading (List Tree)
  | _, [] => .ok []
  | i, v :: rest =>
    if v.isNull then loadChildren (i + 1) rest
    else do
      let child ← within (.index i)
        (match loadLeaf? v with
          | some leaf => Tree.leaf <$> leaf
          | none => load v)
      let rest ← loadChildren (i + 1) rest
      return child :: rest

end

end Document

end ViewGraph
