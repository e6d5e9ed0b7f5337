import Mathlib.Data.List.Forall2
import ViewGraph.Document
import ViewGraph.Normalization.Style
import ViewGraph.Proofs.Checks
import ViewGraph.Proofs.JsonData
import ViewGraph.Proofs.Tables

/-!
# What is loaded

The loader checks a document before it makes a tree of it.  Here is what its checks leave of a document that
it accepts.

* `Loads v t`: the tree of a node, or the leaf of a child, as the loader makes it.
* `loads_of_load`: it makes no other.
* `Value.IsTyped`, `Value.IsLeafValue`: the typed values that are loaded, and the leaves.
* `SoundProps`: attributes that are loaded, with declarations that can be read.
* `sound_of_loads`: a tree that is loaded has such attributes and such leaves all over.
-/

namespace ViewGraph

/-! ### Definitions -/

/-- A typed value that is loaded holds texts. -/
inductive Value.IsTyped : Value → Prop
  | wrapped (kind : Wrapper) (s : String) : IsTyped (.wrapped kind (.str s))
  | action (args : List String) (code : String) : IsTyped (.action (.list (args.map .str)) (.str code))
  | page (id : String) : IsTyped (.page (.str id) .null)
  | anchored (id anchor : String) : IsTyped (.page (.str id) (.str anchor))

/-- A leaf that is loaded holds a text. -/
inductive Value.IsLeafValue : Value → Prop
  | text (s : String) : IsLeafValue (.str s)
  | placeholder (s : String) : IsLeafValue (.wrapped .placeholder (.str s))
  | expression (s : String) : IsLeafValue (.wrapped .expression (.str s))

/-- A table that can be read as a declaration. -/
def Value.IsDeclaration (v : Value) : Prop :=
  ∃ members d, v = .dict members ∧ checkDeclarationFields members = .valid d

/-- Attributes as they are loaded: JSON data and typed values under distinct names, under that of the label a
text, and under that of the styles a list of declarations. Either of these may be null. -/
structure SoundProps (number : Number → Bool) (props : List (String × Value)) : Prop where
  names : (props.map (·.1)).Nodup
  values : ∀ a ∈ props, a.2.isJson number = true ∨ a.2.IsTyped
  label : ∀ v, (Element.labelAttribute, v) ∈ props → v = .null ∨ ∃ s, v = .str s
  styles : ∀ v, (Element.styleAttribute, v) ∈ props →
    v = .null ∨ ∃ items, v = .list items ∧ ∀ item ∈ items, item.IsDeclaration

/-- A tree of fragments and named components with such attributes, and with leaves that hold texts. -/
inductive Tree.Sound (number : Number → Bool) : Tree → Prop
  | leaf {v : Value} (hv : v.IsLeafValue) : Sound number (.leaf v)
  | node {component : Value} {props : List (String × Value)} {ts : List Tree}
      (hcomponent : component = .fragment ∨ ∃ name, component = .str name)
      (hprops : SoundProps number props) (hts : ∀ t ∈ ts, Sound number t) :
      Sound number (.node component props ts)

namespace Document

/-- The items that stand for children: a null does not. -/
def present (items : List Value) : List Value := items.filter fun v => !v.isNull

/-- The items of the children that the table of a node holds. -/
def childItems (members : List (String × Value)) : List Value :=
  match Table.find? "children" members with
  | some (.list items) => items
  | _ => []

/-- The component of a node that goes by a name. -/
def componentOf (name : String) : Value := if name = fragmentComponent then .fragment else .str name

/-- A tree is what the loader makes of a node, or of a child that is no node. -/
inductive Loads : Value → Tree → Prop
  | leaf {v w : Value} (h : loadLeaf? v = some (.ok w)) : Loads v (.leaf w)
  | fragment {items : List Value} {ts : List Tree} (hts : List.Forall₂ Loads (present items) ts) :
      Loads (.list items) (.node .fragment [] ts)
  | node {members given props : List (String × Value)} {name : String} {ts : List Tree}
      (hname : Table.find? "component" members = some (.str name)) (hgiven : propsOf members = .ok given)
      (hchecked : checkReserved given = .ok ()) (hprops : loadProps given = .ok props)
      (hts : List.Forall₂ Loads (present (childItems members)) ts) :
      Loads (.dict members) (.node (componentOf name) props ts)

/-! ### Nodes -/

section Nodes

variable {α : Type}

@[simp] theorem within_eq_ok {step : Step} {r : Loading α} {a : α} : within step r = .ok a ↔ r = .ok a := by
  cases r <;> simp [within, Except.mapError]

@[simp] theorem fail_ne_ok {problem : Problem} {a : α} : (fail problem : Loading α) ≠ .ok a := nofun

theorem text_eq_ok {v : Value} {s : String} : text v = .ok s ↔ v = .str s := by
  cases v <;> simp [text]

theorem present_cons (v : Value) (items : List Value) :
    present (v :: items) = if v.isNull then present items else v :: present items := by
  cases h : v.isNull <;> simp [present, h]

mutual

/-- **Loading.** The loader makes only trees of nodes. -/
theorem loads_of_load : ∀ (v : Value) {t : Tree}, load v = .ok t → Loads v t
  | .list items, t, h => by
    rw [load] at h
    obtain ⟨ts, hts, h⟩ := Logged.bind_eq_ok.mp h
    obtain rfl := Except.ok.inj h
    exact .fragment (loads_of_loadChildren 0 items hts)
  | .dict members, t, h => by
    rw [load] at h
    cases hcomponent : Table.find? "component" members with
    | none => simp [hcomponent] at h
    | some component =>
      simp only [hcomponent] at h
      obtain ⟨name, hname, h⟩ := Logged.bind_eq_ok.mp h
      obtain ⟨given, hgiven, h⟩ := Logged.bind_eq_ok.mp h
      obtain ⟨⟨⟩, hchecked, h⟩ := Logged.bind_eq_ok.mp h
      obtain ⟨⟨⟩, -, h⟩ := Logged.bind_eq_ok.mp h
      obtain ⟨props, hprops, h⟩ := Logged.bind_eq_ok.mp h
      obtain ⟨ts, hts, h⟩ := Logged.bind_eq_ok.mp h
      obtain rfl := Except.ok.inj h
      obtain rfl := text_eq_ok.mp (within_eq_ok.mp hname)
      exact .node hcomponent (within_eq_ok.mp hgiven) (within_eq_ok.mp hchecked) (within_eq_ok.mp hprops)
        (loads_of_loadMember members (within_eq_ok.mp hts))
  | .null, _, h => by simp [load] at h
  | .bool _, _, h => by simp [load] at h
  | .int _, _, h => by simp [load] at h
  | .float _, _, h => by simp [load] at h
  | .str _, _, h => by simp [load] at h
  | .tuple _, _, h => by simp [load] at h
  | .wrapped _ _, _, h => by simp [load] at h
  | .action _ _, _, h => by simp [load] at h
  | .page _ _, _, h => by simp [load] at h
  | .style _ _ _, _, h => by simp [load] at h
  | .fragment, _, h => by simp [load] at h
  | .component _, _, h => by simp [load] at h
  | .element _, _, h => by simp [load] at h

theorem loads_of_loadMember : ∀ (members : List (String × Value)) {ts : List Tree},
    loadMember members = .ok ts → List.Forall₂ Loads (present (childItems members)) ts
  | [], ts, h => by
    obtain rfl := Except.ok.inj h
    exact .nil
  | (name, v) :: rest, ts, h => by
    rw [childItems, Table.find?_cons]
    by_cases hname : name = "children"
    · subst hname
      rw [if_pos rfl]
      cases v with
      | list items => exact loads_of_loadChildren 0 items (by simpa [loadMember] using h)
      | _ =>
        obtain rfl : [] = ts := by simpa [loadMember] using h
        exact .nil
    · have hrest : loadMember rest = .ok ts := by cases v <;> simpa [loadMember, hname] using h
      rw [if_neg fun heq => hname heq.symm]
      exact loads_of_loadMember rest hrest

theorem loads_of_loadChildren : ∀ (i : Nat) (items : List Value) {ts : List Tree},
    loadChildren i items = .ok ts → List.Forall₂ Loads (present items) ts
  | _, [], ts, h => by
    obtain rfl := Except.ok.inj h
    exact .nil
  | i, v :: rest, ts, h => by
    rw [loadChildren] at h
    rw [present_cons]
    split_ifs at h ⊢ with hnull
    · exact loads_of_loadChildren (i + 1) rest h
    · obtain ⟨t, ht, h⟩ := Logged.bind_eq_ok.mp h
      obtain ⟨more, hmore, h⟩ := Logged.bind_eq_ok.mp h
      obtain rfl := Except.ok.inj h
      refine .cons ?_ (loads_of_loadChildren (i + 1) rest hmore)
      rw [within_eq_ok] at ht
      cases hleaf : loadLeaf? v with
      | none => exact loads_of_load v (by simpa [hleaf] using ht)
      | some leaf =>
        cases leaf with
        | error e => simp [hleaf] at ht
        | ok w =>
          obtain rfl : Tree.leaf w = t := by simpa [hleaf] using ht
          exact .leaf hleaf

end

end Nodes

/-! ### Typed values and leaves -/

theorem exists_texts_of_all {items : List Value} (h : items.all isText = true) :
    ∃ texts : List String, items = texts.map .str := by
  induction items with
  | nil => exact ⟨[], rfl⟩
  | cons v items ih =>
    rw [List.all_cons, Bool.and_eq_true] at h
    obtain ⟨texts, rfl⟩ := ih h.2
    cases v with
    | str s => exact ⟨s :: texts, rfl⟩
    | _ => simp [isText] at h

theorem loadWrapped_eq_ok {kind : Wrapper} {payload w : Value} (h : loadWrapped kind payload = .ok w) :
    ∃ s, payload = .str s ∧ w = .wrapped kind (.str s) := by
  obtain ⟨s, hs, h⟩ := Logged.bind_eq_ok.mp h
  exact ⟨s, text_eq_ok.mp hs, (Except.ok.inj h).symm⟩

theorem isTyped_of_loadWrapped {kind : Wrapper} {payload w : Value} (h : loadWrapped kind payload = .ok w) :
    w.IsTyped := by
  obtain ⟨s, -, rfl⟩ := loadWrapped_eq_ok h
  exact .wrapped kind s

/-- An action that is loaded has texts as arguments, and a text as code. -/
theorem loadAction_eq_ok {payload w : Value} (h : loadAction payload = .ok w) :
    ∃ members, ∃ texts : List String, ∃ code, payload = .dict members ∧
      (Table.find? "args" members).getD (.list []) = .list (texts.map .str) ∧
      (Table.find? "code" members).getD (.str "") = .str code ∧
      w = .action (.list (texts.map .str)) (.str code) := by
  unfold loadAction at h
  split at h
  · rename_i members
    simp only at h
    split at h
    · rename_i items hitems
      split_ifs at h with htexts
      · obtain ⟨code, hcode, h⟩ := Logged.bind_eq_ok.mp h
        obtain ⟨texts, rfl⟩ := exists_texts_of_all htexts
        exact ⟨members, texts, code, rfl, hitems, text_eq_ok.mp (within_eq_ok.mp hcode),
          (Except.ok.inj h).symm⟩
      · simp at h
    · simp at h
  · simp at h

theorem isTyped_of_loadAction {payload w : Value} (h : loadAction payload = .ok w) : w.IsTyped := by
  obtain ⟨-, texts, code, -, -, -, rfl⟩ := loadAction_eq_ok h
  exact .action texts code

/-- A page that is loaded is an id, or a table with an id and perhaps with an anchor. -/
theorem loadPage_eq_ok {payload w : Value} (h : loadPage payload = .ok w) :
    (∃ id, payload = .str id ∧ w = .page (.str id) .null) ∨
      ∃ members id, payload = .dict members ∧ Table.find? "pageId" members = some (.str id) ∧
        ((Table.find? "instanceId" members).getD .null = .null ∧ w = .page (.str id) .null ∨
          ∃ anchor, Table.find? "instanceId" members = some (.str anchor) ∧
            w = .page (.str id) (.str anchor)) := by
  unfold loadPage at h
  split at h
  · exact .inl ⟨_, rfl, (Except.ok.inj h).symm⟩
  · rename_i members
    refine .inr ⟨members, ?_⟩
    split at h
    · simp at h
    · rename_i page hpage
      obtain ⟨id, hid, hrest⟩ := Logged.bind_eq_ok.mp h
      obtain rfl := text_eq_ok.mp (within_eq_ok.mp hid)
      refine ⟨id, rfl, hpage, ?_⟩
      split at hrest
      · rename_i hnone
        exact .inl ⟨hnone, (Except.ok.inj hrest).symm⟩
      · obtain ⟨anchor, hanchor, hw⟩ := Logged.bind_eq_ok.mp hrest
        have hsome := text_eq_ok.mp (within_eq_ok.mp hanchor)
        refine .inr ⟨anchor, ?_, (Except.ok.inj hw).symm⟩
        cases hfind : Table.find? "instanceId" members with
        | none => simp [hfind] at hsome
        | some v => rw [← hsome, hfind, Option.getD_some]
  · simp at h

theorem isTyped_of_loadPage {payload w : Value} (h : loadPage payload = .ok w) : w.IsTyped := by
  rcases loadPage_eq_ok h with ⟨id, -, rfl⟩ | ⟨-, id, -, -, ⟨-, rfl⟩ | ⟨anchor, -, rfl⟩⟩
  · exact .page id
  · exact .page id
  · exact .anchored id anchor

theorem isTyped_of_loadPayload {tag : String} {payload w : Value} (h : loadPayload tag payload = .ok w) :
    w.IsTyped := by
  unfold loadPayload at h
  split_ifs at h
  · exact isTyped_of_loadWrapped (within_eq_ok.mp h)
  · exact isTyped_of_loadWrapped (within_eq_ok.mp h)
  · exact isTyped_of_loadWrapped (within_eq_ok.mp h)
  · exact isTyped_of_loadWrapped (within_eq_ok.mp h)
  · exact isTyped_of_loadWrapped (within_eq_ok.mp h)
  · exact isTyped_of_loadAction (within_eq_ok.mp h)
  · exact isTyped_of_loadPage (within_eq_ok.mp h)
  · simp at h

theorem loadWhole_eq_ok {n : ℤ} {w : Value} :
    loadWhole n = .ok w ↔ ∃ text, showInt n = .ok text ∧ w = .str (String.ofList text) := by
  unfold loadWhole
  cases showInt n <;> simp [eq_comm]

theorem isLeafValue_of_loadLeaf? {v w : Value} (h : loadLeaf? v = some (.ok w)) : w.IsLeafValue := by
  unfold loadLeaf? at h
  split at h
  · obtain rfl := Except.ok.inj (Option.some.inj h)
    exact .text _
  · obtain ⟨text, -, rfl⟩ := loadWhole_eq_ok.mp (Option.some.inj h)
    exact .text _
  · obtain rfl := Except.ok.inj (Option.some.inj h)
    exact .text _
  · obtain ⟨⟨tag, payload⟩, -, h⟩ := Option.map_eq_some_iff.mp h
    obtain ⟨value, hvalue, h⟩ := Logged.bind_eq_ok.mp h
    have htyped := isTyped_of_loadPayload hvalue
    split at h
    · obtain rfl := Except.ok.inj h
      cases htyped
      exact .expression _
    · obtain rfl := Except.ok.inj h
      cases htyped
      exact .placeholder _
    · simp at h

/-! ### Attributes -/

variable {number : Number → Bool}

theorem loadProps_eq_ok {given props : List (String × Value)} (h : loadProps given = .ok props) :
    List.Forall₂ (fun a b => a.1 = b.1 ∧ loadValue a.2 = .ok b.2) given props := by
  induction given generalizing props with
  | nil =>
    obtain rfl := Except.ok.inj h
    exact .nil
  | cons a rest ih =>
    obtain ⟨name, v⟩ := a
    obtain ⟨w, hw, h⟩ := Logged.bind_eq_ok.mp h
    obtain ⟨more, hmore, h⟩ := Logged.bind_eq_ok.mp h
    obtain rfl := Except.ok.inj h
    exact .cons ⟨rfl, within_eq_ok.mp hw⟩ (ih hmore)

/-- Only a table can be a typed value. -/
theorem loadValue_eq_self {v : Value} (hv : ∀ members, v ≠ .dict members) : loadValue v = .ok v := by
  have hnone : tagged? v = none := by
    unfold tagged?
    split
    · exact absurd rfl (hv _)
    · rfl
  rw [loadValue, hnone]

/-- What is loaded is the value itself, or a typed value. -/
theorem eq_or_isTyped_of_loadValue {v w : Value} (h : loadValue v = .ok w) : w = v ∨ w.IsTyped := by
  unfold loadValue at h
  split at h
  · exact .inr (isTyped_of_loadPayload h)
  · exact .inl (Except.ok.inj h).symm

theorem value_of_loadValue {v w : Value} (hv : v.isJson number = true) (h : loadValue v = .ok w) :
    w.isJson number = true ∨ w.IsTyped :=
  (eq_or_isTyped_of_loadValue h).imp_left fun hw => by rwa [hw]

/-- What is checked as a declaration can be read as one. -/
theorem isDeclaration_of_checkDeclarationTable {v : Value} (h : checkDeclarationTable v = .ok ()) :
    v.IsDeclaration := by
  unfold checkDeclarationTable at h
  split at h
  · rename_i members
    split at h
    · rename_i property value hproperty hvalue
      obtain ⟨p, hp, hrest⟩ := Logged.bind_eq_ok.mp h
      obtain rfl := text_eq_ok.mp (within_eq_ok.mp hp)
      have hstate : ∃ s, Field.checkOr "state" none (checkOption checkText) members = .valid s := by
        rw [checkOr_plain]
        cases hs : Table.find? "state" members with
        | none => exact ⟨none, rfl⟩
        | some state =>
          rw [hs, Option.getD_some] at hrest
          split at hrest
          · exact ⟨none, rfl⟩
          · obtain ⟨s, hs, -⟩ := Logged.bind_eq_ok.mp hrest
            obtain rfl := text_eq_ok.mp (within_eq_ok.mp hs)
            exact ⟨some s, rfl⟩
      obtain ⟨s, hs⟩ := hstate
      have hp' : (Field.plain "property").check checkText members = .valid p :=
        check_eq_valid.mpr ⟨_, hproperty, rfl⟩
      have hvalue' : (Field.plain "value").check .valid members = .valid value :=
        check_eq_valid.mpr ⟨_, hvalue, rfl⟩
      refine ⟨members, ⟨p, value, s⟩, rfl, ?_⟩
      unfold checkDeclarationFields
      rw [hp', hvalue', hs]
      rfl
    · simp at h
  · simp at h

theorem isDeclaration_of_checkDeclarations {i : Nat} {items : List Value}
    (h : checkDeclarations i items = .ok ()) : ∀ item ∈ items, item.IsDeclaration := by
  induction items generalizing i with
  | nil => simp
  | cons v rest ih =>
    obtain ⟨⟨⟩, hv, h⟩ := Logged.bind_eq_ok.mp h
    intro item hitem
    rcases List.mem_cons.mp hitem with rfl | hitem
    · exact isDeclaration_of_checkDeclarationTable (within_eq_ok.mp hv)
    · exact ih h item hitem

/-- The label that is checked is none, null or a text. -/
theorem label_of_checkReserved {given : List (String × Value)} (h : checkReserved given = .ok ())
    {v : Value} (hv : Table.find? Element.labelAttribute given = some v) : v = .null ∨ ∃ s, v = .str s := by
  obtain ⟨⟨⟩, h, -⟩ := Logged.bind_eq_ok.mp h
  rw [within_eq_ok, hv] at h
  cases v with
  | null => exact .inl rfl
  | str s => exact .inr ⟨s, rfl⟩
  | _ => simp [checkLabel] at h

/-- The style attribute that is checked is none, null or a list of declarations. -/
theorem styles_of_checkReserved {given : List (String × Value)} (h : checkReserved given = .ok ())
    {v : Value} (hv : Table.find? Element.styleAttribute given = some v) :
    v = .null ∨ ∃ items, v = .list items ∧ ∀ item ∈ items, item.IsDeclaration := by
  obtain ⟨⟨⟩, -, h⟩ := Logged.bind_eq_ok.mp h
  rw [within_eq_ok, hv] at h
  cases v with
  | null => exact .inl rfl
  | list items => exact .inr ⟨items, rfl, isDeclaration_of_checkDeclarations h⟩
  | _ => simp [checkStyles] at h

/-- Loading changes no name, and each value is loaded from the one of its name. -/
theorem find?_of_loadProps {given props : List (String × Value)} (h : loadProps given = .ok props)
    {name : String} {w : Value} :
    Table.find? name props = some w ↔ ∃ v, Table.find? name given = some v ∧ loadValue v = .ok w := by
  have hall := loadProps_eq_ok h
  clear h
  induction hall with
  | nil => simp [Table.find?]
  | @cons a b given props hab _ ih =>
    obtain ⟨key, v⟩ := a
    obtain ⟨key', w'⟩ := b
    obtain ⟨rfl, hw⟩ := hab
    rw [Table.find?_cons, Table.find?_cons]
    split_ifs with hname
    · constructor
      · intro heq
        exact ⟨v, rfl, Option.some.inj heq ▸ hw⟩
      · rintro ⟨v', heq, hw'⟩
        obtain rfl := Option.some.inj heq
        exact congrArg some (Except.ok.inj (hw.symm.trans hw'))
    · exact ih

theorem names_of_loadProps {given props : List (String × Value)} (h : loadProps given = .ok props) :
    props.map (·.1) = given.map (·.1) := by
  have hall := loadProps_eq_ok h
  clear h
  induction hall with
  | nil => rfl
  | cons hab _ ih => rw [List.map_cons, List.map_cons, hab.1, ih]

theorem soundProps_nil : SoundProps number [] where
  names := List.nodup_nil
  values := by simp
  label := by simp
  styles := by simp

theorem soundProps_of_loadProps {given props : List (String × Value)}
    (hgiven : (Value.dict given).isJson number = true) (hchecked : checkReserved given = .ok ())
    (hprops : loadProps given = .ok props) : SoundProps number props := by
  obtain ⟨hnames, hvalues⟩ := Value.isJson_dict.mp hgiven
  have hnd : (props.map (·.1)).Nodup := by rwa [names_of_loadProps hprops]
  refine ⟨hnd, fun b hb => ?_, fun w hw => ?_, fun w hw => ?_⟩
  · obtain ⟨v, hv, hload⟩ := (find?_of_loadProps hprops).mp (Table.find?_of_mem hnd hb)
    exact value_of_loadValue (hvalues _ (Table.mem_of_find? hv)) hload
  · obtain ⟨v, hv, hload⟩ := (find?_of_loadProps hprops).mp (Table.find?_of_mem hnd hw)
    have hlabel := label_of_checkReserved hchecked hv
    have hself : loadValue v = .ok v := by
      refine loadValue_eq_self fun members => ?_
      rcases hlabel with rfl | ⟨s, rfl⟩ <;> simp
    rwa [← Except.ok.inj (hself.symm.trans hload)]
  · obtain ⟨v, hv, hload⟩ := (find?_of_loadProps hprops).mp (Table.find?_of_mem hnd hw)
    have hstyles := styles_of_checkReserved hchecked hv
    have hself : loadValue v = .ok v := by
      refine loadValue_eq_self fun members => ?_
      rcases hstyles with rfl | ⟨items, rfl, -⟩ <;> simp
    rwa [← Except.ok.inj (hself.symm.trans hload)]

/-! ### Trees -/

theorem isJson_of_propsOf {members given : List (String × Value)}
    (h : (Value.dict members).isJson number = true) (hgiven : propsOf members = .ok given) :
    (Value.dict given).isJson number = true := by
  unfold propsOf at hgiven
  split at hgiven
  · rename_i props hprops
    obtain rfl := Except.ok.inj hgiven
    cases hfind : Table.find? "props" members with
    | none => simp [hfind] at hprops
    | some v =>
      rw [hfind, Option.getD_some] at hprops
      exact hprops ▸ Value.isJson_of_find? h hfind
  · split_ifs at hgiven
    · simp at hgiven
    · obtain rfl := Except.ok.inj hgiven
      exact Value.isJson_dict.mpr ⟨List.nodup_nil, by simp⟩

theorem isJson_of_mem_present {items : List Value} (h : ∀ v ∈ items, v.isJson number = true) :
    ∀ v ∈ present items, v.isJson number = true :=
  fun v hv => h v (List.mem_of_mem_filter hv)

theorem isJson_of_mem_childItems {members : List (String × Value)}
    (h : (Value.dict members).isJson number = true) : ∀ v ∈ childItems members, v.isJson number = true := by
  unfold childItems
  split
  · rename_i items hfind
    exact Value.isJson_list.mp (Value.isJson_of_find? h hfind)
  · simp

theorem component_componentOf (name : String) :
    componentOf name = .fragment ∨ ∃ text, componentOf name = .str text := by
  unfold componentOf
  split_ifs
  · exact .inl rfl
  · exact .inr ⟨name, rfl⟩

mutual

/-- **Soundness.** What is loaded of JSON data has sound attributes and leaves all over. -/
theorem sound_of_loads : ∀ (t : Tree) {v : Value}, Loads v t → v.isJson number = true → t.Sound number
  | .leaf w, v, h, _ => by
    cases h with
    | leaf hleaf => exact .leaf (isLeafValue_of_loadLeaf? hleaf)
  | .node component props ts, v, h, hv => by
    cases h with
    | fragment hts =>
      exact .node (.inl rfl) soundProps_nil (sound_of_loadsAll ts hts (isJson_of_mem_present (Value.isJson_list.mp hv)))
    | node hname hgiven hchecked hprops hts =>
      exact .node (component_componentOf _)
        (soundProps_of_loadProps (isJson_of_propsOf hv hgiven) hchecked hprops) (sound_of_loadsAll ts hts (isJson_of_mem_present (isJson_of_mem_childItems hv)))

theorem sound_of_loadsAll : ∀ (ts : List Tree) {vs : List Value}, List.Forall₂ Loads vs ts →
    (∀ v ∈ vs, v.isJson number = true) → ∀ t ∈ ts, t.Sound number
  | [], _, _, _ => by simp
  | t :: ts, vs, h, hvs => by
    cases h with
    | cons ht hts =>
      obtain ⟨hv, hvs⟩ := List.forall_mem_cons.mp hvs
      exact List.forall_mem_cons.mpr ⟨sound_of_loads t ht hv, sound_of_loadsAll ts hts hvs⟩

end

end Document

end ViewGraph
