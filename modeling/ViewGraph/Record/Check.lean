import ViewGraph.Record.Fields

/-!
# Checking records

Data are checked against a class of records. Fields that a class does not have are ignored.

* `checkChild`, `checkProp`: the tag chooses the class.
* `checkInstance`, `checkDeclaration`, …, `checkFragment`: the single classes.
-/

namespace ViewGraph

open Checked

/-- The members of a record that is given as a table. -/
def checkRecord {α : Type} (name : String) (check : List (String × Value) → Checked α) :
    Value → Checked α
  | .dict members => check members
  | _ => fail (.recordExpected name)

/-- The tag of a record, if it is given, has to be that of its class. -/
def checkTag (tag : String) (members : List (String × Value)) : Checked Unit :=
  (Field.plain "type").checkOr ()
    (fun
      | .str s => if s = tag then valid () else fail (.literalExpected tag)
      | _ => fail (.literalExpected tag))
    members

/-- Lets the tag of a record choose its class among the kinds of a union. `display` is how a tag
that is no text is shown. -/
def checkTagged {κ α : Type} (display : Value → String) (kinds : List κ) (tag : κ → String)
    (check : κ → List (String × Value) → Checked α) : Value → Checked α
  | .dict members =>
    match Table.find? "type" members with
    | none => fail .tagMissing
    | some (.str text) =>
      match kinds.find? fun k => tag k = text with
      | some k => within text (check k members)
      | none => fail (.tagUnknown text (kinds.map tag))
    | some v => fail (.tagUnknown (display v) (kinds.map tag))
  | .wrapped .. | .action .. | .page .. | .style .. | .fragment | .component _ | .element _ =>
    fail .tagMissing
  | _ => fail .fieldsExpected

/-! ### Children and instances -/

/-- A child of one kind. -/
def checkChildOf (kind : ChildKind) (ms : List (String × Value)) : Checked Child :=
  match kind with
  | .text =>
    pure (fun _ value placeholder => Child.text value placeholder) <*> checkTag kind.tag ms <*>
      Field.check "value" checkText ms <*>
      Field.checkOr "placeholder" none (checkOption checkBool) ms
  | .expression =>
    pure (fun _ value => Child.expression value) <*> checkTag kind.tag ms <*>
      Field.check "value" checkText ms
  | .id =>
    pure (fun _ value => Child.id value) <*> checkTag kind.tag ms <*>
      Field.check "value" checkText ms

def checkChild (display : Value → String) : Value → Checked Child :=
  checkTagged display ChildKind.all ChildKind.tag checkChildOf

def checkInstance (display : Value → String) (ms : List (String × Value)) : Checked Instance :=
  pure (fun _ id component label children => Instance.mk id component label children) <*>
    checkTag "instance" ms <*> Field.check "id" checkText ms <*>
    Field.check "component" checkText ms <*>
    Field.checkOr "label" none (checkOption checkText) ms <*>
    Field.checkOr "children" [] (checkList (checkChild display)) ms

/-! ### Attributes -/

/-- A table of texts. -/
def checkTexts : List (String × Value) → Checked (List (String × String))
  | [] => valid []
  | (name, v) :: rest =>
    both (map (fun s r => (name, s) :: r) (within name (checkText v))) (checkTexts rest)

/-- A page is a text, or a table of texts. -/
def checkPage (v : Value) : Checked PageTarget :=
  match v with
  | .str s => valid (.page s)
  | .dict members =>
    match checkTexts members with
    | valid texts => valid (.anchored texts)
    | invalid issues =>
      invalid (⟨.textExpected, ["str"]⟩ ::
        issues.map fun i => { i with path := "dict[str,str]" :: i.path })
  | _ => invalid [⟨.textExpected, ["str"]⟩, ⟨.tableExpected, ["dict[str,str]"]⟩]

/-- A number that is given as one stays what it is; anything else is read as a whole number if it
can be, and otherwise as a number. -/
def checkNumber (v : Value) : Checked Number :=
  match v with
  | .int n => valid (.whole n)
  | .float x => valid (.real x)
  | v => match checkWhole v, checkReal v with
    | valid n, _ => valid (.whole n)
    | _, valid x => valid (.real x)
    | invalid first, invalid second =>
      invalid (first.map (fun i => { i with path := "int" :: i.path }) ++
        second.map fun i => { i with path := "float" :: i.path })

/-- The content of an attribute of one kind. -/
def checkContent (kind : PropKind) (ms : List (String × Value)) : Checked PropContent :=
  match kind with
  | .expression => map .expression (Field.check "value" checkText ms)
  | .parameter => map .parameter (Field.check "value" checkText ms)
  | .resource => map .resource (Field.check "value" checkText ms)
  | .action => map .action (Field.check "value" (checkList checkTable) ms)
  | .asset => map .asset (Field.check "value" checkText ms)
  | .page => map .page (Field.check "value" checkPage ms)
  | .string => map .string (Field.check "value" checkText ms)
  | .number => map .number (Field.check "value" checkNumber ms)
  | .boolean => map .boolean (Field.check "value" checkBool ms)
  | .json => map .json (Field.checkOr "value" .null valid ms)

/-- An attribute of one kind. -/
def checkPropOf (kind : PropKind) (ms : List (String × Value)) : Checked PropRecord :=
  pure (fun id instanceId name _ content => PropRecord.mk id instanceId name content) <*>
    Field.check "id" checkText ms <*> Field.instanceId.check checkText ms <*>
    Field.check "name" checkText ms <*> checkTag kind.tag ms <*> checkContent kind ms

def checkProp (display : Value → String) : Value → Checked PropRecord :=
  checkTagged display PropKind.all PropKind.tag checkPropOf

/-! ### Styles -/

def checkDeclarationFields (ms : List (String × Value)) : Checked Declaration :=
  pure Declaration.mk <*> Field.check "property" checkText ms <*> Field.check "value" valid ms <*>
    Field.checkOr "state" none (checkOption checkText) ms

/-- A declaration, as a table or as the record itself. -/
def checkDeclaration : Value → Checked Declaration
  | .style property value state => valid ⟨property, value, state⟩
  | v => checkRecord "TemplateStyleDecl" checkDeclarationFields v

def checkBreakpoint (ms : List (String × Value)) : Checked Breakpoint :=
  pure Breakpoint.mk <*> Field.check "id" checkText ms <*> Field.checkOr "label" "" checkText ms

def checkStyleSource (ms : List (String × Value)) : Checked StyleSource :=
  pure (fun _ id => StyleSource.mk id) <*> checkTag "local" ms <*> Field.check "id" checkText ms

def checkSelection (ms : List (String × Value)) : Checked StyleSourceSelection :=
  pure StyleSourceSelection.mk <*> Field.instanceId.check checkText ms <*>
    Field.check "values" (checkList checkText) ms

def checkStyleDecl (ms : List (String × Value)) : Checked StyleDecl :=
  pure StyleDecl.mk <*> Field.breakpointId.check checkText ms <*>
    Field.styleSourceId.check checkText ms <*>
    Field.checkOr "state" none (checkOption checkText) ms <*>
    Field.check "property" checkText ms <*> Field.check "value" valid ms

/-! ### Fragments -/

def checkFragment (display : Value → String) (ms : List (String × Value)) :
    Checked DocumentFragment :=
  let records {α : Type} (field : Field) (name : String)
      (check : List (String × Value) → Checked α) : Checked (List α) :=
    field.checkOr [] (checkList (checkRecord name check)) ms
  pure DocumentFragment.mk <*>
    Field.checkOr "children" [] (checkList (checkChild display)) ms <*>
    records "instances" "Instance" (checkInstance display) <*>
    Field.checkOr "props" [] (checkList (checkProp display)) ms <*>
    records "breakpoints" "Breakpoint" checkBreakpoint <*>
    records .styleSources "StyleSource" checkStyleSource <*>
    records .styleSourceSelections "StyleSourceSelection" checkSelection <*>
    records "styles" "StyleDecl" checkStyleDecl <*>
    Field.checkOr "assets" [] (checkList valid) ms <*>
    Field.dataSources.checkOr [] (checkList valid) ms <*>
    Field.checkOr "resources" [] (checkList valid) ms

end ViewGraph
