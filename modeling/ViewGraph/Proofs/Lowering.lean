import ViewGraph.Proofs.Declarations
import ViewGraph.Proofs.Nodes

/-!
# Attributes from the document to the data

What is written as an attribute of a node is loaded, classified, checked, recorded and dumped.  Its entry in
the data can be told from what is written.

* `Document.lowered v`: the type and the value of the entry of an attribute that is written as `v`.
* `Document.loweredProps id members`: the entries of a node whose instance has this id.
* `classify_of_loadValue`: a loaded value is classified as it is lowered.
* `dumpedProp_of_createProp`: its record is dumped so.
* `attributes_lowered`: the data of a document hold the entries of its nodes, in order.
-/

namespace ViewGraph

open ViewGraph.Graph ViewGraph.Document

/-! ### Definitions -/

namespace Document

/-- The types of the tagged values whose entries have their payload. -/
def payloadKinds : List (String × PropKind) :=
  [("$expression", .expression), ("$parameter", .parameter), ("$resource", .resource), ("$asset", .asset),
   ("$placeholder", .json)]

/-- The value of an action. -/
def loweredAction (payload : Value) : Value :=
  .list [.dict
    [("type", .str "execute"),
     ("args", (Table.find? "args" (membersOf payload)).getD (.list [])),
     ("code", (Table.find? "code" (membersOf payload)).getD (.str ""))]]

/-- The value of a link: the id of its page, with the id of an instance if one is given that is not empty. -/
def loweredPage : Value → Value
  | .dict members =>
    let page := (Table.find? "pageId" members).getD .null
    match Table.find? "instanceId" members with
    | some (.str anchor) =>
      if anchor = "" then page else .dict [("pageId", page), ("instanceId", .str anchor)]
    | _ => page
  | v => v

/-- The type and the value of a tagged value. -/
def loweredTagged? (tag : String) (payload : Value) : Option (PropKind × Value) :=
  if tag = "$action" then some (.action, loweredAction payload)
  else if tag = "$page" then some (.page, loweredPage payload)
  else (Table.find? tag payloadKinds).map fun kind => (kind, payload)

/-- The type and the value of the entry of an attribute. -/
def lowered : Value → PropKind × Value
  | .str s => (.string, .str s)
  | .int n => (.number, .int n)
  | .float x => (.number, .float x)
  | .bool b => (.boolean, .bool b)
  | .dict [(tag, payload)] => (loweredTagged? tag payload).getD (.json, .dict [(tag, payload)])
  | v => (.json, v)

/-- The entry of an attribute. -/
def loweredEntry (instanceId : String) (a : String × Value) : Value :=
  .dict
    [("id", .str (instanceId ++ ":" ++ a.1)), ("instanceId", .str instanceId), ("name", .str a.1),
     ("type", .str (lowered a.2).1.tag), ("value", (lowered a.2).2)]

/-- The attributes that have no entry. -/
def specialNames : List String := ["ws:id", "ws:label", "ws:style", "children"]

/-- The entries of a node, in the order of its attributes. -/
def loweredProps (instanceId : String) (members : List (String × Value)) : List Value :=
  ((givenProps members).filter fun a => a.1 ∉ specialNames).map (loweredEntry instanceId)

/-! ### From what is written to the content -/

theorem classify_of_loadAction {payload w : Value} (h : loadAction payload = .ok w) :
    classify w = .ok (.action, loweredAction payload) := by
  obtain ⟨members, texts, code, rfl, hargs, hcode, rfl⟩ := loadAction_eq_ok h
  rw [loweredAction, membersOf, hargs, hcode]
  rfl

theorem classify_of_loadPage {payload w : Value} (h : loadPage payload = .ok w) :
    classify w = .ok (.page, loweredPage payload) := by
  rcases loadPage_eq_ok h with ⟨id, rfl, rfl⟩ | ⟨members, id, rfl, hid, ⟨hnone, rfl⟩ | ⟨anchor, hanchor, rfl⟩⟩
  · rfl
  · have hpage : loweredPage (.dict members) = .str id := by
      rw [loweredPage, hid]
      cases hfind : Table.find? "instanceId" members with
      | none => rfl
      | some v =>
        rw [hfind, Option.getD_some] at hnone
        rw [hnone]
        rfl
    rw [hpage]
    rfl
  · simp only [loweredPage, hid, hanchor, Option.getD_some, classify, Value.pagePayload, Value.isTrue,
      Bool.not_eq_true', String.isEmpty_eq_false_iff, ite_not]

/-- What is loaded of a tagged value is classified as the tagged value is lowered. -/
theorem classify_of_loadPayload {tag : String} {payload w : Value} (h : loadPayload tag payload = .ok w) :
    ∃ r, loweredTagged? tag payload = some r ∧ classify w = .ok r := by
  unfold loadPayload at h
  split_ifs at h with he hp hr ha hl hact hpage
  · obtain ⟨s, rfl, rfl⟩ := loadWrapped_eq_ok (within_eq_ok.mp h)
    exact ⟨_, by rw [he]; rfl, rfl⟩
  · obtain ⟨s, rfl, rfl⟩ := loadWrapped_eq_ok (within_eq_ok.mp h)
    exact ⟨_, by rw [hp]; rfl, rfl⟩
  · obtain ⟨s, rfl, rfl⟩ := loadWrapped_eq_ok (within_eq_ok.mp h)
    exact ⟨_, by rw [hr]; rfl, rfl⟩
  · obtain ⟨s, rfl, rfl⟩ := loadWrapped_eq_ok (within_eq_ok.mp h)
    exact ⟨_, by rw [ha]; rfl, rfl⟩
  · obtain ⟨s, rfl, rfl⟩ := loadWrapped_eq_ok (within_eq_ok.mp h)
    exact ⟨_, by rw [hl]; rfl, rfl⟩
  · exact ⟨_, if_pos hact, classify_of_loadAction (within_eq_ok.mp h)⟩
  · exact ⟨_, by rw [hpage]; rfl, classify_of_loadPage (within_eq_ok.mp h)⟩
  · simp at h

/-- Every tag that is known is one. -/
theorem loweredTagged?_eq_none {tag : String} (h : tag.startsWith "$" = false) (payload : Value) :
    loweredTagged? tag payload = none := by
  have hne : ∀ known : String, known.startsWith "$" = true → tag ≠ known := by
    rintro known hknown rfl
    exact absurd (h.symm.trans hknown) (by decide)
  have hfind : Table.find? tag payloadKinds = none := by
    refine Table.find?_eq_none_iff.mpr fun hmem => ?_
    have hall : ∀ known ∈ payloadKinds.map (·.1), known.startsWith "$" = true := by decide +kernel
    exact hne tag (hall tag hmem) rfl
  rw [loweredTagged?, if_neg (hne _ (by decide +kernel)), if_neg (hne _ (by decide +kernel)), hfind]
  rfl

/-- **Values.** A value that is loaded is classified as what is written is lowered. -/
theorem classify_of_loadValue {number : Number → Bool} {v w : Value} (hv : v.isJson number = true)
    (h : loadValue v = .ok w) : classify w = .ok (lowered v) := by
  unfold loadValue at h
  split at h
  · rename_i tag payload htagged
    obtain ⟨rfl, -⟩ := tagged?_eq_some htagged
    obtain ⟨r, hr, hw⟩ := classify_of_loadPayload h
    rw [hw, lowered, hr]
    rfl
  · rename_i hnone
    obtain rfl := Except.ok.inj h
    cases v with
    | dict members =>
      match members with
      | [] => rfl
      | [(tag, payload)] =>
        have htag : tag.startsWith "$" = false := by simpa [tagged?] using hnone
        rw [lowered, loweredTagged?_eq_none htag]
        rfl
      | _ :: _ :: _ => rfl
    | null | bool _ | int _ | float _ | str _ | list _ => rfl
    | _ => simp [Value.isJson] at hv

end Document

/-! ### From the content to the entry -/

variable {g : Graph} {root : Value}

/-- The record of an attribute is dumped as what is written of the attribute is lowered. -/
theorem dumpedProp_of_createProp {i : String} {a : String × Value} {w : Value} {p : PropRecord}
    (ha : a.2.isStrictDocument = true) (hw : loadValue a.2 = .ok w)
    (hp : (createProp g.text (.str i) (.str a.1) w).outcome = .ok p) :
    dumpedProp p = loweredEntry i a := by
  obtain ⟨kind, content, c, hkind, hrecord, hdata, rfl, rfl, -⟩ :=
    exists_record (g := g) (value_of_loadValue ha hw) i a.1
  obtain rfl := Except.ok.inj (hrecord.symm.trans hp)
  have hlowered := Except.ok.inj (hkind.symm.trans (classify_of_loadValue ha hw))
  rw [dumpedProp, dumped_eq_data hdata, loweredEntry, ← hlowered]
  rfl

/-- The attributes without an entry are those without a record. -/
theorem notMem_specialNames_iff {name : String} :
    name ∉ specialNames ↔ isReserved name = false ∧ name ≠ Element.styleAttribute := by
  have hreserved : isReserved name = false ↔
      name ≠ Element.idAttribute ∧ name ≠ Element.labelAttribute ∧ name ≠ Element.childrenAttribute := by
    simp [isReserved, and_assoc]
  rw [hreserved]
  simp only [specialNames, Element.idAttribute, Element.labelAttribute, Element.childrenAttribute,
    Element.styleAttribute, List.mem_cons, List.not_mem_nil]
  tauto

/-- The records that the element of a node contributes are dumped as the attributes of the node are lowered. -/
theorem map_dumpedProp_of_madeOf {members : List (String × Value)} {h : Handle} {b : Block}
    (hmade : g.MadeOf members Number.isFinite h) (hc : Contributes g root h b) :
    b.props.map dumpedProp = loweredProps b.inst.id members := by
  have hjson := (Value.isJson_dict.mp hmade.json).2
  have hloaded := (List.forall₂_and_left _ _).mpr ⟨hjson, loadProps_eq_ok hmade.props⟩
  -- the attributes with a record have the names of those with an entry
  have hkept := List.rel_filter (p := fun a => a.1 ∉ specialNames)
    (q := fun a => !isReserved a.1 && a.1 ≠ Element.styleAttribute)
    (fun a a' h => by simp [notMem_specialNames_iff, h.2.1]) hloaded
  have hentries := (forall₂_comp hkept (mapM_eq_ok.mp hc.props)).imp
    fun a p ⟨a', ⟨ha, hname, hw⟩, hp⟩ => dumpedProp_of_createProp ha hw (by rw [hname]; exact hp)
  rw [loweredProps, hc.id, ← List.forall₂_eq_eq_eq]
  exact List.forall₂_map_left_iff.mpr (List.forall₂_map_right_iff.mpr hentries.flip)

/-- What each pair of items gives is joined in the order of the pairs. -/
theorem flatten_zipWith_of_forall₂ {α β γ δ : Type} {R : α → β → Prop} {F : α → γ → List δ} {i : β → γ}
    {G : β → List δ} {l : List α} {bs : List β} (h : List.Forall₂ R l bs)
    (hR : ∀ a b, R a b → G b = F a (i b)) :
    bs.flatMap G = (List.zipWith F l (bs.map i)).flatten := by
  induction h with
  | nil => rfl
  | cons hab _ ih =>
    rw [List.flatMap_cons, List.map_cons, List.zipWith_cons_cons, List.flatten_cons, ih, hR _ _ hab]

/-- **Attributes.** The data of a document that has records, and in which every number is finite, hold one
entry for each attribute of its nodes, in order, but for four special ones: node by node in pre-order, under the
id of the instance that shows the node, with the type and the value that the attribute is lowered to. -/
theorem attributes_lowered {doc : Value} {g₀ : Graph} {f : DocumentFragment}
    (hdoc : doc.isStrictDocument = true) (hload : Document.loadInto g₀ doc = .ok (g, root))
    (hok : (normalize g root).outcome = .ok f) :
    ∃ data, dumpFragment g {} f = .ok (.dict data) ∧
      List.Forall₂ g.ShownBy (Document.nodes doc) f.instances ∧
      Table.find? "props" data = some (.list
        (List.zipWith (fun members i => loweredProps i.id members) (Document.nodes doc) f.instances).flatten) := by
  obtain ⟨blocks, refs, hf, hall⟩ := exists_blocks_of_loadInto hdoc hload hok
  have hinstances : f.instances = blocks.map (·.inst) := by rw [hf]; rfl
  refine ⟨_, dumpFragment_of_loadInto hdoc hload hok, ?_, ?_⟩
  · rw [hinstances]
    exact List.forall₂_map_right_iff.mpr (hall.imp fun members b ⟨h, hmade, hc, hshown⟩ => hshown)
  · have hentries : f.props.map dumpedProp = blocks.flatMap fun b => b.props.map dumpedProp := by
      rw [hf]
      exact List.map_flatMap
    have hrows : (blocks.flatMap fun b => b.props.map dumpedProp) =
        (List.zipWith (fun members i => loweredProps i.id members) (Document.nodes doc)
          (blocks.map (·.inst))).flatten :=
      flatten_zipWith_of_forall₂ hall fun members b ⟨h, hmade, hc, _⟩ => map_dumpedProp_of_madeOf hmade hc
    rw [hinstances, ← hrows, ← hentries]
    rfl

/-- A box with an attribute of every kind, and in a fragment, whose own attribute does not count, a text with
its own. -/
def attributesDocument : Value := .dict
  [("component", .str "Box"),
   ("props", .dict
     [("ws:id", .str "box"), ("ws:label", .str "Box"),
      ("shown", .dict [("$expression", .str "a + b")]), ("source", .dict [("$asset", .str "logo")]),
      ("click", .dict [("$action", .dict [("code", .str "go()")])]),
      ("link", .dict [("$page", .dict [("pageId", .str "home"), ("instanceId", .str "top")])]),
      ("back", .dict [("$page", .dict [("pageId", .str "home"), ("instanceId", .str "")])]),
      ("note", .dict [("$placeholder", .str "later")]), ("children", .str "none"), ("size", .int 2),
      ("open", .bool true), ("data", .list [.null, .dict [("$asset", .str "kept")]])]),
   ("children", .list
     [.dict [("component", .str "Fragment"), ("props", .dict [("dropped", .int 0)]),
       ("children", .list [.dict [("component", .str "Text"), ("props", .dict [("title", .str "b")])]])]])]

theorem attributes_lowered_attributesDocument : attributesDocument.isStrictDocument = true ∧
    ∃ g root f data, Document.loadInto .empty attributesDocument = .ok (g, root) ∧
      (normalize g root).outcome = .ok f ∧ dumpFragment g {} f = .ok (.dict data) ∧
      f.instances.map (·.component) = ["Box", "Text"] ∧
      Table.find? "props" data = some (.list (List.zipWith (fun members i => loweredProps i.id members)
        (Document.nodes attributesDocument) f.instances).flatten) := by
  have hdoc : attributesDocument.isStrictDocument = true := by decide +kernel
  have hnodes : (Document.nodes attributesDocument).map nodeComponent? = [some "Box", some "Text"] := by
    decide +kernel
  obtain ⟨g, root, f, hload, hok⟩ := exists_rendered attributesDocument (by decide +kernel)
  obtain ⟨data, hdump, hshown, hprops⟩ := attributes_lowered hdoc hload hok
  refine ⟨hdoc, g, root, f, data, hload, hok, hdump, ?_, hprops⟩
  have hcomponents : (Document.nodes attributesDocument).map nodeComponent? =
      (f.instances.map (·.component)).map some := by
    rw [List.map_map, ← List.forall₂_eq_eq_eq]
    exact List.forall₂_map_left_iff.mpr (List.forall₂_map_right_iff.mpr
      (hshown.imp fun members i h => h.component))
  exact List.map_injective_iff.mpr (Option.some_injective _) (hcomponents.symm.trans hnodes)

end ViewGraph
