import ViewGraph.Document.Text
import ViewGraph.Proofs.Declared
import ViewGraph.Proofs.Refusals

/-!
# The grammar of template documents

A document is a node, and the loader accepts nodes and nothing else.  What it refuses has an error of its format,
if no whole number in it has too many digits.

* `Value.IsVoid`: the values that do not count as given.
* `IsNode`, `IsChild`: the nodes of a document, and what can stand among their children.
* `IsProps`, `IsTypedForm`: the attributes of a node, and the typed values among them.
* `accepts_loadPayload`, `accepts_checkReserved`, `accepts_loadProps`: what the checks of the loader let pass, in
  the words of the grammar.
* `accepts_load`, `accepts_loadChildren`: the loader accepts the nodes, and lists of children.
* `nodes_load_exactly`: a node becomes an element, and anything else is refused.
-/

namespace ViewGraph

/-! ### Definitions -/

namespace Value

/-- What does not count as given: null, false, a zero, and whatever is empty. -/
inductive IsVoid : Value → Prop
  | null : IsVoid .null
  | no : IsVoid (.bool false)
  | zero : IsVoid (.int 0)
  | floatZero {x : Binary64} (hx : x.isZero = true) : IsVoid (.float x)
  | text : IsVoid (.str "")
  | list : IsVoid (.list [])
  | tuple : IsVoid (.tuple [])
  | table : IsVoid (.dict [])

def IsText (v : Value) : Prop := ∃ s, v = .str s

def IsTextOrNull (v : Value) : Prop := v = .null ∨ v.IsText

/-- A list of texts. -/
def IsTexts (v : Value) : Prop := ∃ items, v = .list items ∧ ∀ item ∈ items, item.IsText

end Value

namespace Document

section Members

variable (name : String) (p : Value → Prop) (members : List (String × Value))

/-- A table has a member of this name, and it is as `p` says. -/
def Required : Prop := ∃ v, Table.find? name members = some v ∧ p v

/-- If a table has a member of this name, it is as `p` says. -/
def Optional : Prop := ∀ v, Table.find? name members = some v → p v

end Members

/-- The tags of the typed values that hold one text. -/
def textTags : List String := ["$expression", "$parameter", "$resource", "$asset", "$placeholder"]

/-- The payload of a typed value under its tag. -/
inductive IsTypedForm (tag : String) : Value → Prop
  | text (htag : tag ∈ textTags) (s : String) : IsTypedForm tag (.str s)
  | action {members : List (String × Value)} (htag : tag = "$action")
      (hargs : Optional "args" Value.IsTexts members) (hcode : Optional "code" Value.IsText members) :
      IsTypedForm tag (.dict members)
  | page (htag : tag = "$page") (id : String) : IsTypedForm tag (.str id)
  | anchored {members : List (String × Value)} (htag : tag = "$page")
      (hpage : Required "pageId" Value.IsText members)
      (hanchor : Optional "instanceId" Value.IsTextOrNull members) : IsTypedForm tag (.dict members)

/-- The value of an attribute. A table with one member is a typed value, if the name of the member is marked
as a tag. -/
def IsAttributeValue (v : Value) : Prop :=
  ∀ tag payload, v = .dict [(tag, payload)] → tag.startsWith "$" = true → IsTypedForm tag payload

/-- A style declaration has a property and a value, and perhaps a state. -/
inductive IsDeclarationForm : Value → Prop
  | table {members : List (String × Value)} (hproperty : Required "property" Value.IsText members)
      (hvalue : Required "value" (fun _ => True) members)
      (hstate : Optional "state" Value.IsTextOrNull members) : IsDeclarationForm (.dict members)

/-- The value of the style attribute: null or a list of declarations. -/
inductive IsStyles : Value → Prop
  | null : IsStyles .null
  | list {items : List Value} (hitems : ∀ item ∈ items, IsDeclarationForm item) : IsStyles (.list items)

/-- The attributes of a node. -/
structure IsProps (props : List (String × Value)) : Prop where
  label : Optional Element.labelAttribute Value.IsTextOrNull props
  styles : Optional Element.styleAttribute IsStyles props
  values : ∀ a ∈ props, IsAttributeValue a.2

/-- What a node may give as its attributes. -/
inductive GivesProps : Value → Prop
  | void {v : Value} (hv : v.IsVoid) : GivesProps v
  | table {props : List (String × Value)} (hprops : IsProps props) : GivesProps (.dict props)

/-- What a node may give as its children, apart from what is in the list. -/
inductive GivesChildren : Value → Prop
  | void {v : Value} (hv : v.IsVoid) : GivesChildren v
  | list (items : List Value) : GivesChildren (.list items)

mutual

/-- A node: a list, or a table with a component and perhaps with attributes and children. A null in a list is
no child. -/
inductive IsNode : Value → Prop
  | fragment {items : List Value} (hitems : ∀ v ∈ items, v ≠ .null → IsChild v) : IsNode (.list items)
  | node {members : List (String × Value)} (hcomponent : Required "component" Value.IsText members)
      (hprops : Optional "props" GivesProps members) (hchildren : Optional "children" GivesChildren members)
      (hitems : ∀ items, Table.find? "children" members = some (.list items) →
        ∀ v ∈ items, v ≠ .null → IsChild v) : IsNode (.dict members)

/-- A child: a text, a number that can be shown, an expression, a placeholder, or a node. -/
inductive IsChild : Value → Prop
  | text (s : String) : IsChild (.str s)
  | whole {n : Int} (hn : Number.isShown (.whole n) = true) : IsChild (.int n)
  | float (x : Binary64) : IsChild (.float x)
  | expression (s : String) : IsChild (.dict [("$expression", .str s)])
  | placeholder (s : String) : IsChild (.dict [("$placeholder", .str s)])
  | node {v : Value} (hv : IsNode v) : IsChild v

end

/-- A part of a document is loaded. -/
def Accepts {α : Type} (r : Loading α) : Prop := ∃ a, r = .ok a

/-! ### Sequences of checks -/

section Accepts

variable {α β : Type}

@[simp] theorem accepts_ok (a : α) : Accepts (.ok a) := ⟨a, rfl⟩

@[simp] theorem accepts_pure (a : α) : Accepts (pure a) := ⟨a, rfl⟩

@[simp] theorem not_accepts_fail (problem : Problem) : ¬ Accepts (fail problem : Loading α) := nofun

@[simp] theorem accepts_within {step : Step} {r : Loading α} : Accepts (within step r) ↔ Accepts r :=
  exists_congr fun _ => within_eq_ok

@[simp] theorem accepts_map {f : α → β} {r : Loading α} : Accepts (f <$> r) ↔ Accepts r := by
  cases r with
  | error e => exact ⟨nofun, nofun⟩
  | ok a => exact ⟨fun _ => accepts_ok a, fun _ => accepts_ok (f a)⟩

theorem accepts_bind {x : Loading α} {f : α → Loading β} :
    Accepts (x >>= f) ↔ ∃ a, x = .ok a ∧ Accepts (f a) := by
  constructor
  · rintro ⟨b, hb⟩
    obtain ⟨a, ha, hf⟩ := Logged.bind_eq_ok.mp hb
    exact ⟨a, ha, b, hf⟩
  · rintro ⟨a, ha, b, hb⟩
    exact ⟨b, Logged.bind_eq_ok.mpr ⟨a, ha, hb⟩⟩

/-- Where the result of the first part does not matter, both parts have to be accepted. -/
theorem accepts_bind_of_iff {x : Loading α} {f : α → Loading β} {p : Prop}
    (hf : ∀ a, x = .ok a → (Accepts (f a) ↔ p)) : Accepts (x >>= f) ↔ Accepts x ∧ p := by
  rw [accepts_bind]
  constructor
  · rintro ⟨a, ha, hfa⟩
    exact ⟨⟨a, ha⟩, (hf a ha).mp hfa⟩
  · rintro ⟨⟨a, ha⟩, hp⟩
    exact ⟨a, ha, (hf a ha).mpr hp⟩

end Accepts

/-! ### Values that count as given -/

theorem isVoid_iff {v : Value} : v.IsVoid ↔ v.isTrue = false := by
  constructor
  · intro h
    cases h with
    | floatZero hx => simp [Value.isTrue, hx]
    | _ => rfl
  · intro h
    cases v with
    | null => exact .null
    | bool b =>
      obtain rfl : b = false := h
      exact .no
    | int n =>
      obtain rfl : n = 0 := by simpa [Value.isTrue] using h
      exact .zero
    | float x => exact .floatZero (by simpa [Value.isTrue] using h)
    | str s =>
      obtain rfl : s = "" := by simpa [Value.isTrue] using h
      exact .text
    | list items =>
      obtain rfl : items = [] := by simpa [Value.isTrue] using h
      exact .list
    | tuple items =>
      obtain rfl : items = [] := by simpa [Value.isTrue] using h
      exact .tuple
    | dict members =>
      obtain rfl : members = [] := by simpa [Value.isTrue] using h
      exact .table
    | _ => simp [Value.isTrue] at h

theorem accepts_text {v : Value} : Accepts (text v) ↔ v.IsText :=
  exists_congr fun _ => text_eq_ok

/-- A member that may be left out is looked up with what stands for it. -/
theorem optional_iff {name : String} {p : Value → Prop} {members : List (String × Value)} {default : Value}
    (hdefault : p default) :
    Optional name p members ↔ p ((Table.find? name members).getD default) := by
  unfold Optional
  cases Table.find? name members with
  | none => simpa using hdefault
  | some v => simp

/-! ### Typed values -/

theorem all_isText_iff {items : List Value} :
    items.all isText = true ↔ ∀ item ∈ items, item.IsText := by
  rw [List.all_eq_true]
  refine forall₂_congr fun v _ => ?_
  cases v <;> simp [isText, Value.IsText]

theorem isTexts_list {items : List Value} :
    (Value.list items).IsTexts ↔ ∀ item ∈ items, item.IsText := by
  constructor
  · rintro ⟨items', heq, htexts⟩
    obtain rfl := Value.list.inj heq
    exact htexts
  · exact fun htexts => ⟨items, rfl, htexts⟩

theorem accepts_loadWrapped {kind : Wrapper} {payload : Value} :
    Accepts (loadWrapped kind payload) ↔ payload.IsText := by
  simp [loadWrapped, accepts_text]

/-- A typed value under one of the tags that hold one text. -/
theorem isTypedForm_of_mem {tag : String} (htag : tag ∈ textTags) {payload : Value} :
    IsTypedForm tag payload ↔ payload.IsText := by
  constructor
  · intro h
    cases h with
    | text _ s => exact ⟨s, rfl⟩
    | action heq => exact absurd (heq ▸ htag) (by decide)
    | page heq => exact absurd (heq ▸ htag) (by decide)
    | anchored heq => exact absurd (heq ▸ htag) (by decide)
  · rintro ⟨s, rfl⟩
    exact .text htag s

theorem accepts_loadAction {payload : Value} :
    Accepts (loadAction payload) ↔ IsTypedForm "$action" payload := by
  cases payload with
  | dict members =>
    have htexts : Value.IsTexts (.list []) := isTexts_list.mpr (by simp)
    have htext : Value.IsText (.str "") := ⟨"", rfl⟩
    have hiff : IsTypedForm "$action" (.dict members) ↔
        Optional "args" Value.IsTexts members ∧ Optional "code" Value.IsText members := by
      constructor
      · intro h
        cases h with
        | action _ hargs hcode => exact ⟨hargs, hcode⟩
        | anchored htag => exact absurd htag (by decide)
      · exact fun ⟨hargs, hcode⟩ => .action rfl hargs hcode
    rw [hiff, optional_iff htexts, optional_iff htext]
    simp only [loadAction]
    cases (Table.find? "args" members).getD (.list []) with
    | list items =>
      by_cases hall : items.all isText = true
      · simp only [hall, if_true]
        simp only [isTexts_list, iff_true_intro (all_isText_iff.mp hall), true_and]
        simp [accepts_text]
      · simp [hall, isTexts_list, mt all_isText_iff.mpr hall]
    | _ => simp [Value.IsTexts]
  | str s =>
    simp only [loadAction, not_accepts_fail, false_iff]
    rintro (⟨htag, -⟩ | - | htag)
    · exact absurd htag (by decide)
    · exact absurd htag (by decide)
  | _ =>
    simp only [loadAction, not_accepts_fail, false_iff]
    intro h
    cases h

/-- A page is an id, or a table with an id and perhaps with an anchor. -/
theorem accepts_loadPage {payload : Value} :
    Accepts (loadPage payload) ↔ IsTypedForm "$page" payload := by
  cases payload with
  | str s => simp [loadPage, IsTypedForm.page]
  | dict members =>
    have hnull : Value.IsTextOrNull .null := .inl rfl
    have hiff : IsTypedForm "$page" (.dict members) ↔
        Required "pageId" Value.IsText members ∧ Optional "instanceId" Value.IsTextOrNull members := by
      constructor
      · intro h
        cases h with
        | action htag => exact absurd htag (by decide)
        | anchored _ hpage hanchor => exact ⟨hpage, hanchor⟩
      · exact fun ⟨hpage, hanchor⟩ => .anchored rfl hpage hanchor
    rw [hiff, optional_iff hnull]
    simp only [loadPage, Required]
    cases Table.find? "pageId" members with
    | none => simp
    | some page =>
      simp only [Option.some.injEq, exists_eq_left']
      rw [accepts_bind_of_iff (p := ((Table.find? "instanceId" members).getD .null).IsTextOrNull),
        accepts_within, accepts_text]
      intro id _
      cases (Table.find? "instanceId" members).getD .null <;>
        simp [text, Value.IsTextOrNull, Value.IsText]
  | _ =>
    simp only [loadPage, not_accepts_fail, false_iff]
    intro h
    cases h

/-- **Typed values.** The payload that a tag admits, and no other. -/
theorem accepts_loadPayload {tag : String} {payload : Value} :
    Accepts (loadPayload tag payload) ↔ IsTypedForm tag payload := by
  unfold loadPayload
  split_ifs with h h h h h h h
  · rw [accepts_within, accepts_loadWrapped, isTypedForm_of_mem (by simp [h, textTags])]
  · rw [accepts_within, accepts_loadWrapped, isTypedForm_of_mem (by simp [h, textTags])]
  · rw [accepts_within, accepts_loadWrapped, isTypedForm_of_mem (by simp [h, textTags])]
  · rw [accepts_within, accepts_loadWrapped, isTypedForm_of_mem (by simp [h, textTags])]
  · rw [accepts_within, accepts_loadWrapped, isTypedForm_of_mem (by simp [h, textTags])]
  · rw [accepts_within, h, accepts_loadAction]
  · rw [accepts_within, h, accepts_loadPage]
  · simp only [not_accepts_fail, false_iff]
    rintro (⟨htag, -⟩ | htag | htag | htag)
    · simp_all [textTags]
    all_goals contradiction

theorem accepts_loadValue {v : Value} : Accepts (loadValue v) ↔ IsAttributeValue v := by
  unfold loadValue IsAttributeValue
  cases htagged : tagged? v with
  | some t =>
    obtain ⟨tag, payload⟩ := t
    obtain ⟨rfl, htag⟩ := tagged?_eq_some htagged
    rw [accepts_loadPayload]
    constructor
    · intro h tag' payload' heq _
      obtain ⟨rfl, rfl⟩ : tag = tag' ∧ payload = payload' := by simpa using heq
      exact h
    · exact fun h => h tag payload rfl htag
  | none =>
    simp only [accepts_ok, true_iff]
    rintro tag payload rfl htag
    simp [tagged?, htag] at htagged

/-! ### Attributes -/

theorem accepts_checkLabel {props : List (String × Value)} :
    Accepts (checkLabel (Table.find? Element.labelAttribute props)) ↔
      Optional Element.labelAttribute Value.IsTextOrNull props := by
  unfold Optional
  cases Table.find? Element.labelAttribute props with
  | none => simp [checkLabel]
  | some v => cases v <;> simp [checkLabel, Value.IsTextOrNull, Value.IsText]

theorem accepts_checkDeclarationTable {v : Value} :
    Accepts (checkDeclarationTable v) ↔ IsDeclarationForm v := by
  cases v with
  | dict members =>
    have hnull : Value.IsTextOrNull .null := .inl rfl
    have hiff : IsDeclarationForm (.dict members) ↔ Required "property" Value.IsText members ∧
        Required "value" (fun _ => True) members ∧ Optional "state" Value.IsTextOrNull members :=
      ⟨fun ⟨hproperty, hvalue, hstate⟩ => ⟨hproperty, hvalue, hstate⟩,
        fun ⟨hproperty, hvalue, hstate⟩ => .table hproperty hvalue hstate⟩
    rw [hiff, optional_iff hnull]
    simp only [checkDeclarationTable, Required]
    cases Table.find? "property" members with
    | none => simp
    | some property =>
      cases Table.find? "value" members with
      | none => simp
      | some value =>
        simp only [Option.some.injEq, exists_eq_left', true_and]
        rw [accepts_bind_of_iff (p := ((Table.find? "state" members).getD .null).IsTextOrNull),
          accepts_within, accepts_text]
        intro _ _
        cases (Table.find? "state" members).getD .null <;>
          simp [text, Value.IsTextOrNull, Value.IsText]
  | _ =>
    simp only [checkDeclarationTable, not_accepts_fail, false_iff]
    intro h
    cases h

theorem accepts_checkDeclarations {i : Nat} {items : List Value} :
    Accepts (checkDeclarations i items) ↔ ∀ item ∈ items, IsDeclarationForm item := by
  induction items generalizing i with
  | nil => simp [checkDeclarations]
  | cons v rest ih =>
    rw [checkDeclarations, accepts_bind_of_iff fun _ _ => ih, accepts_within, accepts_checkDeclarationTable,
      List.forall_mem_cons]

theorem accepts_checkStyles {props : List (String × Value)} :
    Accepts (checkStyles (Table.find? Element.styleAttribute props)) ↔
      Optional Element.styleAttribute IsStyles props := by
  unfold Optional
  cases Table.find? Element.styleAttribute props with
  | none => simp [checkStyles]
  | some v =>
    simp only [Option.some.injEq, forall_eq']
    cases v with
    | null => simp [checkStyles, IsStyles.null]
    | list items =>
      rw [checkStyles, accepts_checkDeclarations]
      exact ⟨.list, fun h => by cases h; assumption⟩
    | _ =>
      simp only [checkStyles, not_accepts_fail, false_iff]
      intro h
      cases h

theorem accepts_checkReserved {props : List (String × Value)} :
    Accepts (checkReserved props) ↔ Optional Element.labelAttribute Value.IsTextOrNull props ∧
      Optional Element.styleAttribute IsStyles props := by
  rw [checkReserved, accepts_bind_of_iff (p := Optional Element.styleAttribute IsStyles props) fun _ _ => by
    rw [accepts_within, accepts_checkStyles], accepts_within, accepts_checkLabel]

theorem accepts_loadProps {props : List (String × Value)} :
    Accepts (loadProps props) ↔ ∀ a ∈ props, IsAttributeValue a.2 := by
  induction props with
  | nil => simp [loadProps]
  | cons a rest ih =>
    obtain ⟨name, v⟩ := a
    rw [loadProps, accepts_bind_of_iff (p := ∀ a ∈ rest, IsAttributeValue a.2) fun w _ => by simp [ih],
      accepts_within, accepts_loadValue, List.forall_mem_cons]

theorem isProps_nil : IsProps [] := ⟨nofun, nofun, nofun⟩

theorem givesProps_dict {props : List (String × Value)} : GivesProps (.dict props) ↔ IsProps props := by
  constructor
  · intro h
    cases h with
    | void hv =>
      cases hv
      exact isProps_nil
    | table hprops => exact hprops
  · exact .table

theorem isProps_iff {props : List (String × Value)} :
    Accepts (checkReserved props) ∧ Accepts (loadProps props) ↔ IsProps props := by
  rw [accepts_checkReserved, accepts_loadProps]
  exact ⟨fun ⟨⟨hlabel, hstyles⟩, hvalues⟩ => ⟨hlabel, hstyles, hvalues⟩,
    fun ⟨hlabel, hstyles, hvalues⟩ => ⟨⟨hlabel, hstyles⟩, hvalues⟩⟩

/-- What a node gives as its attributes passes the checks of the loader if it counts as not given, or if it is
a table of attributes. -/
theorem exists_props_iff {members : List (String × Value)} :
    (∃ given, propsOf members = .ok given ∧ IsProps given) ↔ Optional "props" GivesProps members := by
  rw [optional_iff (.void .null : GivesProps .null), propsOf]
  generalize (Table.find? "props" members).getD .null = v
  have hvoid : GivesProps v ↔ v.isTrue = false ∨ ∃ props, v = .dict props ∧ IsProps props := by
    rw [← isVoid_iff]
    constructor
    · rintro (hv | hprops)
      · exact .inl hv
      · exact .inr ⟨_, rfl, hprops⟩
    · rintro (hv | ⟨props, rfl, hprops⟩)
      · exact .void hv
      · exact .table hprops
  cases v with
  | dict props => simp [givesProps_dict]
  | _ =>
    rw [hvoid]
    simp only [reduceCtorEq, false_and, exists_false, or_false]
    split_ifs with htrue <;> simp_all [isProps_nil]

theorem accepts_checkChildren {members : List (String × Value)} :
    Accepts (checkChildren members) ↔ Optional "children" GivesChildren members := by
  rw [optional_iff (.void .null : GivesChildren .null), checkChildren]
  generalize (Table.find? "children" members).getD .null = v
  have hvoid : GivesChildren v ↔ v.isTrue = false ∨ ∃ items, v = .list items := by
    rw [← isVoid_iff]
    constructor
    · rintro (hv | items)
      · exact .inl hv
      · exact .inr ⟨items, rfl⟩
    · rintro (hv | ⟨items, rfl⟩)
      · exact .void hv
      · exact .list items
  cases v with
  | list items => simp [GivesChildren.list]
  | _ =>
    rw [hvoid]
    simp only [reduceCtorEq, exists_false, or_false]
    split_ifs with htrue <;> simp_all

/-! ### Nodes -/

/-- A node is no tagged table: a tag is no name of a component. -/
theorem not_isNode_of_tagged {tag : String} {payload : Value} (htag : tag.startsWith "$" = true) :
    ¬ IsNode (.dict [(tag, payload)]) := by
  intro h
  cases h with
  | node hcomponent =>
    obtain ⟨v, hv, -⟩ := hcomponent
    have htagged : tagged? (.dict [(tag, payload)]) = some (tag, payload) := by simp only [tagged?, htag, if_true]
    rw [find?_of_tagged? htagged (by decide +kernel)] at hv
    simp at hv

/-- A tagged table is a child exactly if it is an expression or a placeholder with a text. -/
theorem isChild_of_tagged {tag : String} {payload : Value} (htag : tag.startsWith "$" = true) :
    IsChild (.dict [(tag, payload)]) ↔ (tag = "$expression" ∨ tag = "$placeholder") ∧ payload.IsText := by
  constructor
  · intro h
    cases h with
    | expression s => exact ⟨.inl rfl, s, rfl⟩
    | placeholder s => exact ⟨.inr rfl, s, rfl⟩
    | node hv => exact absurd hv (not_isNode_of_tagged htag)
  · rintro ⟨rfl | rfl, s, rfl⟩
    · exact .expression s
    · exact .placeholder s

/-- What is loaded under a tag is let through as a child under two of the tags. -/
theorem accepts_loadedLeaf {tag : String} {payload value : Value} : loadPayload tag payload = .ok value →
    (Accepts (match value with
      | .wrapped .expression _ | .wrapped .placeholder _ => return value
      | _ => fail .valueAsChild : Loading Value) ↔ tag = "$expression" ∨ tag = "$placeholder") := by
  intro hvalue
  unfold loadPayload at hvalue
  split_ifs at hvalue with he hp hr ha hl hact hpage
  · obtain ⟨s, -, rfl⟩ := loadWrapped_eq_ok (within_eq_ok.mp hvalue)
    simp [he]
  · obtain ⟨s, -, rfl⟩ := loadWrapped_eq_ok (within_eq_ok.mp hvalue)
    simp [hp]
  · obtain ⟨s, -, rfl⟩ := loadWrapped_eq_ok (within_eq_ok.mp hvalue)
    simp [hr]
  · obtain ⟨s, -, rfl⟩ := loadWrapped_eq_ok (within_eq_ok.mp hvalue)
    simp [ha]
  · obtain ⟨s, -, rfl⟩ := loadWrapped_eq_ok (within_eq_ok.mp hvalue)
    simp [hl]
  · obtain ⟨-, texts, code, -, -, -, rfl⟩ := loadAction_eq_ok (within_eq_ok.mp hvalue)
    simp [hact]
  · rcases loadPage_eq_ok (within_eq_ok.mp hvalue) with
      ⟨id, -, rfl⟩ | ⟨-, id, -, -, ⟨-, rfl⟩ | ⟨anchor, -, rfl⟩⟩ <;> simp [hpage]
  · simp at hvalue

/-- Of the typed values only expressions and placeholders stand among children. -/
theorem accepts_taggedLeaf {tag : String} {payload : Value} :
    Accepts (do
      let value ← loadPayload tag payload
      match value with
      | .wrapped .expression _ | .wrapped .placeholder _ => return value
      | _ => fail .valueAsChild) ↔
    (tag = "$expression" ∨ tag = "$placeholder") ∧ payload.IsText := by
  rw [accepts_bind_of_iff fun _ => accepts_loadedLeaf, accepts_loadPayload]
  constructor
  · rintro ⟨hform, htag⟩
    have hmem : tag ∈ textTags := by rcases htag with rfl | rfl <;> decide
    exact ⟨htag, (isTypedForm_of_mem hmem).mp hform⟩
  · rintro ⟨htag, htext⟩
    have hmem : tag ∈ textTags := by rcases htag with rfl | rfl <;> decide
    exact ⟨(isTypedForm_of_mem hmem).mpr htext, htag⟩

theorem accepts_loadLeaf {v : Value} {leaf : Loading Value} (h : loadLeaf? v = some leaf) :
    Accepts leaf ↔ IsChild v := by
  cases v with
  | str s =>
    obtain rfl := Option.some.inj h
    simp [IsChild.text]
  | int n =>
    obtain rfl := Option.some.inj h
    have hchild : IsChild (.int n) ↔ Number.isShown (.whole n) = true := by
      refine ⟨fun h => ?_, .whole⟩
      cases h with
      | whole hn => exact hn
      | node hv => cases hv
    rw [hchild, ← exists_showInt_iff, Accepts]
    simp only [loadWhole_eq_ok]
    exact ⟨fun ⟨_, text, htext, _⟩ => ⟨text, htext⟩, fun ⟨text, htext⟩ => ⟨_, text, htext, rfl⟩⟩
  | float x =>
    obtain rfl := Option.some.inj h
    simp [IsChild.float]
  | dict members =>
    obtain ⟨⟨tag, payload⟩, htagged, rfl⟩ := Option.map_eq_some_iff.mp h
    obtain ⟨heq, htag⟩ := tagged?_eq_some htagged
    obtain rfl := Value.dict.inj heq
    rw [isChild_of_tagged htag]
    exact accepts_taggedLeaf
  | _ => simp [loadLeaf?, tagged?] at h

/-- What is no leaf is a child exactly if it is a node. -/
theorem isChild_iff_of_not_leaf {v : Value} (h : loadLeaf? v = none) : IsChild v ↔ IsNode v := by
  have hexpression : "$expression".startsWith "$" = true := by decide +kernel
  have hplaceholder : "$placeholder".startsWith "$" = true := by decide +kernel
  constructor
  · intro hv
    cases hv with
    | node hv => exact hv
    | expression s => simp [loadLeaf?, tagged?, hexpression] at h
    | placeholder s => simp [loadLeaf?, tagged?, hplaceholder] at h
    | _ => simp [loadLeaf?] at h
  · exact .node

theorem isNode_dict {members : List (String × Value)} :
    IsNode (.dict members) ↔ Required "component" Value.IsText members ∧
      Optional "props" GivesProps members ∧ Optional "children" GivesChildren members ∧
      ∀ items, Table.find? "children" members = some (.list items) → ∀ v ∈ items, v ≠ .null → IsChild v := by
  constructor
  · intro h
    cases h with
    | node hcomponent hprops hchildren hitems => exact ⟨hcomponent, hprops, hchildren, hitems⟩
  · rintro ⟨hcomponent, hprops, hchildren, hitems⟩
    exact .node hcomponent hprops hchildren hitems

/-- What follows in a node after its component is checked in four steps. -/
theorem accepts_afterName {members : List (String × Value)} {tree : List (String × Value) → List Tree → Tree} :
    Accepts (do
      let props ← within (.member "props") (propsOf members)
      within (.member "props") (checkReserved props)
      within (.member "children") (checkChildren members)
      let props ← within (.member "props") (loadProps props)
      let children ← within (.member "children") (loadMember members)
      return tree props children) ↔
    (∃ given, propsOf members = .ok given ∧ IsProps given) ∧ Accepts (checkChildren members) ∧
      Accepts (loadMember members) := by
  rw [accepts_bind, exists_and_right.symm]
  refine exists_congr fun given => ?_
  rw [within_eq_ok, and_assoc, and_congr_right_iff]
  intro _
  rw [accepts_bind_of_iff fun _ _ => accepts_bind_of_iff fun _ _ => accepts_bind_of_iff fun _ _ =>
    accepts_bind_of_iff fun _ _ => iff_true_intro (accepts_pure _)]
  simp only [accepts_within, and_true, ← isProps_iff]
  tauto

theorem ne_null_iff {v : Value} : v ≠ .null ↔ v.isNull = false := by
  cases v <;> simp [Value.isNull]

mutual

/-- **Acceptance.** The loader accepts the nodes, and nothing else. -/
theorem accepts_load : ∀ v : Value, Accepts (load v) ↔ IsNode v
  | .list items => by
    have hchildren := accepts_loadChildren 0 items
    rw [load, accepts_bind_of_iff (p := True) fun _ _ => by simp, and_true, hchildren]
    exact ⟨.fragment, fun h => by cases h; assumption⟩
  | .dict members => by
    have hitems := accepts_loadMember members
    rw [isNode_dict, ← hitems, ← accepts_checkChildren, ← exists_props_iff, load]
    unfold Required
    cases Table.find? "component" members with
    | none => simp
    | some component =>
      simp only [Option.some.injEq, exists_eq_left']
      rw [accepts_bind_of_iff fun name _ => accepts_afterName, accepts_within, accepts_text]
  | .null => ⟨nofun, nofun⟩
  | .bool _ => ⟨nofun, nofun⟩
  | .int _ => ⟨nofun, nofun⟩
  | .float _ => ⟨nofun, nofun⟩
  | .str _ => ⟨nofun, nofun⟩
  | .tuple _ => ⟨nofun, nofun⟩
  | .wrapped _ _ => ⟨nofun, nofun⟩
  | .action _ _ => ⟨nofun, nofun⟩
  | .page _ _ => ⟨nofun, nofun⟩
  | .style _ _ _ => ⟨nofun, nofun⟩
  | .fragment => ⟨nofun, nofun⟩
  | .component _ => ⟨nofun, nofun⟩
  | .element _ => ⟨nofun, nofun⟩

theorem accepts_loadMember : ∀ members : List (String × Value), Accepts (loadMember members) ↔
    ∀ items, Table.find? "children" members = some (.list items) → ∀ v ∈ items, v ≠ .null → IsChild v
  | [] => by simp [loadMember, Table.find?]
  | (name, v) :: rest => by
    have hrest := accepts_loadMember rest
    by_cases hname : name = "children"
    · subst hname
      cases v with
      | list items =>
        have hitems := accepts_loadChildren 0 items
        simp [loadMember, Table.find?_cons, hitems]
      | _ => simp [loadMember, Table.find?_cons]
    · have hne : "children" ≠ name := fun heq => hname heq.symm
      cases v <;> simp [loadMember, Table.find?_cons, hname, hne, hrest]

theorem accepts_loadChildren : ∀ (i : Nat) (items : List Value),
    Accepts (loadChildren i items) ↔ ∀ v ∈ items, v ≠ .null → IsChild v
  | _, [] => by simp [loadChildren]
  | i, v :: rest => by
    have hv := accepts_load v
    have hrest := accepts_loadChildren (i + 1) rest
    rw [loadChildren, List.forall_mem_cons, ne_null_iff]
    split_ifs with hnull
    · simp [hnull, hrest]
    · rw [accepts_bind_of_iff fun _ _ => by rw [accepts_bind_of_iff (p := True) fun _ _ => by simp, and_true, hrest],
        accepts_within]
      simp only [Bool.not_eq_true] at hnull
      simp only [hnull, forall_const]
      cases hleaf : loadLeaf? v with
      | some leaf => rw [accepts_map, accepts_loadLeaf hleaf]
      | none => rw [hv, isChild_iff_of_not_leaf hleaf]

end

/-! ### The element of a document -/

/-- What is loaded is never a leaf. -/
theorem exists_node_of_load {v : Value} {t : Tree} (h : load v = .ok t) :
    ∃ component props children, t = .node component props children := by
  cases v with
  | list items =>
    rw [load] at h
    obtain ⟨children, -, h⟩ := Logged.bind_eq_ok.mp h
    exact ⟨_, _, _, (Except.ok.inj h).symm⟩
  | dict members =>
    rw [load] at h
    cases hcomponent : Table.find? "component" members with
    | none => simp [hcomponent] at h
    | some component =>
      simp only [hcomponent] at h
      obtain ⟨name, -, h⟩ := Logged.bind_eq_ok.mp h
      obtain ⟨given, -, h⟩ := Logged.bind_eq_ok.mp h
      obtain ⟨-, -, h⟩ := Logged.bind_eq_ok.mp h
      obtain ⟨-, -, h⟩ := Logged.bind_eq_ok.mp h
      obtain ⟨props, -, h⟩ := Logged.bind_eq_ok.mp h
      obtain ⟨children, -, h⟩ := Logged.bind_eq_ok.mp h
      exact ⟨_, _, _, (Except.ok.inj h).symm⟩
  | _ => simp [load] at h

theorem exists_element_of_loadInto {g g' : Graph} {doc root : Value} (h : loadInto g doc = .ok (g', root)) :
    ∃ k e, root = .element k ∧ g'.find? k = some e := by
  obtain ⟨t, ht, hplant⟩ := Logged.bind_eq_ok.mp h
  obtain ⟨component, props, children, rfl⟩ := exists_node_of_load ht
  rw [Tree.plant_node] at hplant
  obtain ⟨rfl, rfl⟩ := Prod.mk.inj (Except.ok.inj hplant)
  exact ⟨_, _, rfl, Graph.find?_push _ _⟩

/-- **The grammar.** A document that is a node becomes an element, and any other document is refused, with an
error of the format if every whole number in it can be shown. -/
theorem nodes_load_exactly (g : Graph) (doc : Value) :
    (IsNode doc → ∃ g' h e, loadInto g doc = .ok (g', .element h) ∧ g'.find? h = some e) ∧
      (¬ IsNode doc → ∃ e, loadInto g doc = .error e ∧
        (doc.isShortDocument = true → ∃ f, e = .format f)) := by
  constructor
  · intro hnode
    obtain ⟨t, ht⟩ := (accepts_load doc).mpr hnode
    have hloaded : loadInto g doc = .ok (t.plant g) := by
      rw [loadInto, ht]
      rfl
    obtain ⟨k, e, hroot, he⟩ := exists_element_of_loadInto hloaded
    exact ⟨_, k, e, by rw [← hroot, hloaded], he⟩
  · intro hnot
    cases hload : load doc with
    | ok t => exact absurd ((accepts_load doc).mp ⟨t, hload⟩) hnot
    | error e =>
      have hloaded : loadInto g doc = .error e := by
        rw [loadInto, hload]
        rfl
      exact ⟨e, hloaded, fun hshort => (formatOnly_loadInto hshort g).exists_format hloaded⟩

end Document

end ViewGraph
