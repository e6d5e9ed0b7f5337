import ViewGraph.Proofs.Agreement
import ViewGraph.Proofs.RenamedValues

/-!
# Records of renamed values

The records that are made of renamed values are those that are made of the values, renamed. What a check reports
does not depend on the names of elements.

* `PropRecord.rename`, `StyleDecl.rename`, `DocumentFragment.rename`, …: records with the elements in them renamed.
* `check_rename`, `checkOr_rename`: the fields of a table.
* `classify_rename`, `checkContent_rename`, `createProp_rename`: the record of an attribute.
* `declarations_rename`: the declarations of a style attribute.
* `attributeRecords_rename`: the records of all attributes of an element.
* `leafChild_rename`: the reference that a leaf gives.
-/

namespace ViewGraph

/-! ### Definitions -/

section Defs

variable (σ : Handle → Handle)

/-- The content of an attribute with the elements in it renamed. -/
def PropContent.rename : PropContent → PropContent
  | .action items => .action (items.map (Value.renameMembers σ))
  | .json value => .json (value.rename σ)
  | c => c

def PropRecord.rename (p : PropRecord) : PropRecord := { p with content := p.content.rename σ }

def Declaration.rename (d : Declaration) : Declaration := { d with value := d.value.rename σ }

def StyleDecl.rename (s : StyleDecl) : StyleDecl := { s with value := s.value.rename σ }

/-- What the attributes of an element give, with the elements in it renamed. -/
def renameRecords (records : List PropRecord × List (List Declaration)) :
    List PropRecord × List (List Declaration) :=
  (records.1.map (PropRecord.rename σ), records.2.map (List.map (Declaration.rename σ)))

/-- The records of one element with the elements in them renamed. -/
def Block.rename (b : Block) : Block :=
  ⟨b.inst, b.props.map (PropRecord.rename σ), b.styles.map (List.map (Declaration.rename σ))⟩

/-- Records with the elements in them renamed. -/
def DocumentFragment.rename (f : DocumentFragment) : DocumentFragment :=
  { f with
    props := f.props.map (PropRecord.rename σ)
    styles := f.styles.map (StyleDecl.rename σ)
    assets := f.assets.map (Value.rename σ)
    dataSources := f.dataSources.map (Value.rename σ)
    resources := f.resources.map (Value.rename σ) }

end Defs

variable {σ : Handle → Handle}

/-! ### Results -/

section Results

variable {α β γ ε : Type}

theorem Checked.map_id (x : Checked α) : x.map id = x := by
  cases x <;> rfl

theorem Checked.map_map (f : α → β) (r : β → γ) (x : Checked α) : (x.map f).map r = x.map (r ∘ f) := by
  cases x <;> rfl

theorem Checked.within_map (step : String) (r : α → β) (x : Checked α) :
    (x.map r).within step = (x.within step).map r := by
  cases x <;> rfl

theorem ofChecked_map (className : String) (r : α → β) (x : Checked α) :
    ofChecked className (x.map r) = (ofChecked className x).map r := by
  cases x <;> rfl

/-- The results of a list of computations change one by one. -/
theorem mapM_map_result (F : α → Except ε β) (r : β → γ) (l : List α) :
    l.mapM (fun a => (F a).map r) = (l.mapM F).map (List.map r) := by
  induction l with
  | nil => rfl
  | cons a l ih =>
    rw [List.mapM_cons, List.mapM_cons, ih]
    cases F a with
    | error e => rfl
    | ok b => cases l.mapM F <;> rfl

end Results

/-! ### Checks -/

section Checks

variable {α : Type} {check : Value → Checked α} (members : List (String × Value))

/-- The value of a field is renamed with its table. -/
theorem find?_rename (field : Field) : field.find? (Value.renameMembers σ members) =
    (field.find? members).map fun (given, v) => (given, v.rename σ) := by
  unfold Field.find?
  rw [Value.find?_renameMembers, Value.find?_renameMembers]
  cases Table.find? field.external members with
  | some v => rfl
  | none => cases Table.find? field.name members <;> rfl

theorem check_rename {r : α → α} (h : ∀ v, check (v.rename σ) = (check v).map r) (field : Field) :
    field.check check (Value.renameMembers σ members) = (field.check check members).map r := by
  unfold Field.check
  rw [find?_rename]
  cases field.find? members with
  | none => rfl
  | some a => exact (congrArg _ (h a.2)).trans (Checked.within_map a.1 r _)

theorem checkOr_rename {r : α → α} {default : α} (hdefault : r default = default)
    (h : ∀ v, check (v.rename σ) = (check v).map r) (field : Field) :
    field.checkOr default check (Value.renameMembers σ members) =
      (field.checkOr default check members).map r := by
  unfold Field.checkOr
  rw [find?_rename]
  cases field.find? members with
  | none => exact congrArg Checked.valid hdefault.symm
  | some a => exact (congrArg _ (h a.2)).trans (Checked.within_map a.1 r _)

section Unchanged

variable (h : ∀ v, check (v.rename σ) = check v)

include h

/-- A check that does not look at elements does not change. -/
theorem check_renameMembers (field : Field) :
    field.check check (Value.renameMembers σ members) = field.check check members := by
  rw [check_rename members (r := id) (fun v => (h v).trans (Checked.map_id _).symm), Checked.map_id]

theorem checkOr_renameMembers {default : α} (field : Field) :
    field.checkOr default check (Value.renameMembers σ members) = field.checkOr default check members := by
  rw [checkOr_rename members (r := id) rfl (fun v => (h v).trans (Checked.map_id _).symm), Checked.map_id]

end Unchanged

theorem checkTag_renameMembers (tag : String) :
    checkTag tag (Value.renameMembers σ members) = checkTag tag members :=
  checkOr_renameMembers members (fun v => by cases v <;> rfl) _

end Checks

theorem checkText_rename (v : Value) : checkText (v.rename σ) = checkText v := by
  cases v <;> rfl

theorem checkBool_rename (v : Value) : checkBool (v.rename σ) = checkBool v := by
  cases v <;> rfl

theorem checkNumber_rename (v : Value) : checkNumber (v.rename σ) = checkNumber v := by
  cases v <;> rfl

theorem checkOption_checkText_rename (v : Value) :
    checkOption checkText (v.rename σ) = checkOption checkText v := by
  cases v <;> rfl

theorem checkOption_checkBool_rename (v : Value) :
    checkOption checkBool (v.rename σ) = checkOption checkBool v := by
  cases v <;> rfl

theorem checkTexts_renameMembers (members : List (String × Value)) :
    checkTexts (Value.renameMembers σ members) = checkTexts members := by
  induction members with
  | nil => rfl
  | cons a rest ih =>
    obtain ⟨name, v⟩ := a
    rw [Value.renameMembers, checkTexts, checkTexts, ih, checkText_rename]

theorem checkPage_rename (v : Value) : checkPage (v.rename σ) = checkPage v := by
  cases v with
  | dict members => simp only [Value.rename, checkPage, checkTexts_renameMembers]
  | _ => rfl

theorem checkTable_rename (v : Value) :
    checkTable (v.rename σ) = (checkTable v).map (Value.renameMembers σ) := by
  cases v <;> rfl

theorem eachFrom_renameAll {α : Type} {check : Value → Checked α} {r : α → α}
    (h : ∀ v, check (v.rename σ) = (check v).map r) (i : Nat) (vs : List Value) :
    Checked.eachFrom check i (Value.renameAll σ vs) = (Checked.eachFrom check i vs).map (List.map r) := by
  induction vs generalizing i with
  | nil => rfl
  | cons v vs ih =>
    rw [Value.renameAll, Checked.eachFrom, Checked.eachFrom, ih, h]
    cases check v <;> cases Checked.eachFrom check (i + 1) vs <;> rfl

theorem checkList_rename {α : Type} {check : Value → Checked α} {r : α → α}
    (h : ∀ v, check (v.rename σ) = (check v).map r) (v : Value) :
    checkList check (v.rename σ) = (checkList check v).map (List.map r) := by
  cases v with
  | list items => exact eachFrom_renameAll h 0 items
  | tuple items => exact eachFrom_renameAll h 0 items
  | _ => rfl

/-! ### Attributes -/

/-- The kind of a value does not change, and its content is renamed with it. -/
theorem classify_rename (v : Value) :
    classify (v.rename σ) = (classify v).map fun (kind, content) => (kind, content.rename σ) := by
  cases v with
  | wrapped kind payload => cases kind <;> rfl
  | action args code =>
    rw [Value.rename, classify, classify, Value.items?_rename]
    cases args.items? with
    | none => rfl
    | some items => simp [Except.map, Value.actionPayload, Value.rename, Value.renameAll, Value.renameMembers]
  | page target anchor =>
    have hpayload : Value.pagePayload (target.rename σ) (anchor.rename σ) =
        (Value.pagePayload target anchor).rename σ := by
      unfold Value.pagePayload
      rw [Value.isTrue_rename]
      split_ifs
      · simp [Value.rename, Value.renameMembers]
      · rfl
    rw [Value.rename, classify, hpayload]
    rfl
  | _ => rfl

theorem checkContent_rename (kind : PropKind) (members : List (String × Value)) :
    checkContent kind (Value.renameMembers σ members) =
      (checkContent kind members).map (PropContent.rename σ) := by
  cases kind with
  | action =>
    rw [checkContent, checkContent, check_rename members (checkList_rename checkTable_rename)]
    simp only [Checked.map_map]
    rfl
  | json =>
    rw [checkContent, checkContent, checkOr_rename members (r := Value.rename σ) rfl fun v => rfl]
    simp only [Checked.map_map]
    rfl
  | page =>
    rw [checkContent, checkContent, check_renameMembers members checkPage_rename, Checked.map_map]
    rfl
  | number =>
    rw [checkContent, checkContent, check_renameMembers members checkNumber_rename, Checked.map_map]
    rfl
  | boolean =>
    rw [checkContent, checkContent, check_renameMembers members checkBool_rename, Checked.map_map]
    rfl
  | _ =>
    rw [checkContent, checkContent, check_renameMembers members checkText_rename, Checked.map_map]
    rfl

theorem checkPropOf_rename (kind : PropKind) (members : List (String × Value)) :
    checkPropOf kind (Value.renameMembers σ members) = (checkPropOf kind members).map (PropRecord.rename σ) := by
  have htext (field : Field) : field.check checkText (Value.renameMembers σ members) =
      field.check checkText members := check_renameMembers members checkText_rename field
  unfold checkPropOf
  rw [htext, htext, htext, checkTag_renameMembers, checkContent_rename]
  cases Field.check "id" checkText members <;> cases Field.instanceId.check checkText members <;>
    cases Field.check "name" checkText members <;> cases checkTag kind.tag members <;>
    cases checkContent kind members <;> rfl

/-- **Attributes.** The record of a renamed value is the record of the value, renamed. -/
theorem createProp_rename (text : Value → Shown String) (instanceId name : String) (v : Value) :
    (createProp text (.str instanceId) (.str name) (v.rename σ)).outcome =
      (createProp text (.str instanceId) (.str name) v).outcome.map (PropRecord.rename σ) := by
  unfold createProp
  simp only [Logged.outcome_bind, Logged.outcome_ofExcept, Logged.outcome_tell, classify_rename]
  cases text (.str instanceId) with
  | error d => rfl
  | ok owner =>
  cases text (.str name) with
  | error d => rfl
  | ok title =>
  cases classify v with
  | error e => rfl
  | ok a =>
    obtain ⟨kind, content⟩ := a
    let members := [("id", .str (propId owner title)),
      ("instance_id", .str instanceId), ("name", .str name), ("value", content)]
    have hrecord : checkPropOf kind (Value.renameMembers σ members) =
        (checkPropOf kind members).map (PropRecord.rename σ) := checkPropOf_rename kind members
    exact (congrArg (ofChecked kind.className) hrecord).trans (ofChecked_map _ _ _)

/-! ### Styles -/

theorem styleItems_rename (v : Value) : styleItems (v.rename σ) = (styleItems v).map (Value.renameAll σ) := by
  unfold styleItems
  rw [Value.isTrue_rename, Value.items?_rename]
  split_ifs
  · cases v.items? <;> rfl
  · rfl

theorem checkDeclarationFields_rename (members : List (String × Value)) :
    checkDeclarationFields (Value.renameMembers σ members) =
      (checkDeclarationFields members).map (Declaration.rename σ) := by
  unfold checkDeclarationFields
  rw [check_renameMembers members checkText_rename, check_rename members (r := Value.rename σ) (fun _ => rfl),
    checkOr_renameMembers members checkOption_checkText_rename]
  cases Field.check "property" checkText members <;> cases Field.check "value" Checked.valid members <;>
    cases Field.checkOr "state" none (checkOption checkText) members <;> rfl

theorem declarationOf_rename (v : Value) :
    declarationOf (v.rename σ) = (declarationOf v).map (Declaration.rename σ) := by
  cases v with
  | dict members =>
    exact (congrArg _ (checkDeclarationFields_rename members)).trans (ofChecked_map _ _ _)
  | _ => rfl

/-- **Styles.** The declarations of a renamed attribute are those of the attribute, renamed. -/
theorem declarations_rename (v : Value) :
    declarations (v.rename σ) = (declarations v).map (List.map (Declaration.rename σ)) := by
  unfold declarations
  rw [styleItems_rename]
  cases styleItems v with
  | error e => rfl
  | ok items =>
    show (Value.renameAll σ items).mapM declarationOf = (items.mapM declarationOf).map _
    rw [Value.renameAll_eq_map, List.mapM_map, ← mapM_map_result]
    exact mapM_congr fun v _ => declarationOf_rename v

/-! ### The attributes of an element -/

/-- **Attributes of an element.** The records of renamed attributes are those of the attributes, renamed. -/
theorem attributeRecords_rename (g : Graph) (id : String) (props : List (String × Value)) :
    attributeRecords g id (Value.renameMembers σ props) =
      (attributeRecords g id props).map (renameRecords σ) := by
  induction props with
  | nil => rfl
  | cons a rest ih =>
    obtain ⟨name, v⟩ := a
    rw [Value.renameMembers, attributeRecords, attributeRecords, ih]
    split_ifs with hreserved hstyle
    · rfl
    · rw [declarations_rename]
      cases declarations v with
      | error e => rfl
      | ok ds => cases attributeRecords g id rest <;> rfl
    · rw [createProp_rename]
      cases (createProp g.text (.str id) (.str name) v).outcome with
      | error e => rfl
      | ok p => cases attributeRecords g id rest <;> rfl

/-! ### Leaves -/

theorem checkChildOf_renameMembers (kind : ChildKind) (members : List (String × Value)) :
    checkChildOf kind (Value.renameMembers σ members) = checkChildOf kind members := by
  have htext (field : Field) : field.check checkText (Value.renameMembers σ members) =
      field.check checkText members := check_renameMembers members checkText_rename field
  cases kind with
  | text =>
    rw [checkChildOf, checkChildOf, checkTag_renameMembers, htext,
      checkOr_renameMembers members checkOption_checkBool_rename]
  | expression => rw [checkChildOf, checkChildOf, checkTag_renameMembers, htext]
  | id => rw [checkChildOf, checkChildOf, checkTag_renameMembers, htext]

/-- The reference that a leaf gives does not depend on the names of elements in it. -/
theorem leafChild_rename (l : Leaf) : leafChild (l.rename σ) = leafChild l := by
  cases l with
  | text s => rfl
  | placeholder payload =>
    exact congrArg (ofChecked _) (checkChildOf_renameMembers .text
      [("value", payload), ("placeholder", .bool true)])
  | expression payload =>
    exact congrArg (ofChecked _) (checkChildOf_renameMembers .expression [("value", payload)])

end ViewGraph
