import ViewGraph.Proofs.Acceptance
import ViewGraph.Proofs.Declared

/-!
# Nodes and their instances

Each node of a document that is no fragment becomes one element, and each of these elements one instance.

* `Document.nodes doc`: the nodes of a document that are no fragments, in pre-order.
* `MadeOf members h`: the element at `h` is the one that a node became.
* `madeOf_of_loads`: the walk over the elements of a document meets those of its nodes, in pre-order.
* `ShownBy members i`: the instance `i` shows a node.
* `exists_blocks_of_loadInto`: the records of a document are those of its nodes.
* `HasLongId doc`: a node asks for an id in which a whole number cannot be shown.
* `accepted_renders`: a document that is accepted is rendered, and nothing in it is passed over, unless two
  of its elements ask for the same id, or one for an id that cannot be shown.
-/

namespace ViewGraph

open ViewGraph.Graph

/-! ### Definitions -/

namespace Document

/-- The component of a node, if the node is no fragment. -/
def nodeComponent? (members : List (String × Value)) : Option String :=
  match Table.find? "component" members with
  | some (.str name) => if name = fragmentComponent then none else some name
  | _ => none

/-- The members of a table. Any other value has none. -/
def membersOf : Value → List (String × Value)
  | .dict members => members
  | _ => []

/-- The attributes that are written in a node. -/
def givenProps (members : List (String × Value)) : List (String × Value) :=
  membersOf ((Table.find? "props" members).getD .null)

mutual

/-- The nodes of a document that are no fragments, in pre-order. -/
def nodes : Value → List (List (String × Value))
  | .list items => nodesAmong items
  | .dict members =>
    if (nodeComponent? members).isSome then members :: nodesBelow members else nodesBelow members
  | _ => []

/-- The nodes below a node, which are those among its children. -/
def nodesBelow : List (String × Value) → List (List (String × Value))
  | [] => []
  | (name, v) :: rest =>
    if name = "children" then
      match v with
      | .list items => nodesAmong items
      | _ => []
    else nodesBelow rest

def nodesAmong : List Value → List (List (String × Value))
  | [] => []
  | v :: rest => nodes v ++ nodesAmong rest

end

end Document

open ViewGraph.Document

section Defs

variable (g : Graph) (members : List (String × Value))

/-- An element has the component of a node, and the attributes that are loaded of those of the node, which are
JSON data. -/
structure Graph.MadeOf (number : Number → Bool) (h : Handle) : Prop where
  json : (Value.dict (givenProps members)).isJson number = true
  component : ∃ e name, g.find? h = some e ∧ e.component = .str name ∧ nodeComponent? members = some name
  props : loadProps (givenProps members) = .ok (g.attributesAt h)

/-- An instance shows the component of a node, and has the id that the node asks for, if it asks for one. -/
structure Graph.ShownBy (i : Instance) : Prop where
  component : nodeComponent? members = some i.component
  id : ∀ v w, Table.find? Element.idAttribute (givenProps members) = some v → loadValue v = .ok w →
    w.isNull = false → g.text w = .ok i.id

end Defs

/-! ### From the document to the elements -/

namespace Document

theorem nodesBelow_eq (members : List (String × Value)) :
    nodesBelow members = nodesAmong (childItems members) := by
  induction members with
  | nil => rfl
  | cons a rest ih =>
    obtain ⟨name, v⟩ := a
    unfold childItems
    rw [Table.find?_cons]
    by_cases hname : name = "children"
    · subst hname
      rw [if_pos rfl]
      cases v <;> simp [nodesBelow, nodesAmong]
    · rw [if_neg fun heq => hname heq.symm, ← childItems, ← ih]
      cases v <;> simp [nodesBelow, hname]

theorem nodesAmong_present (items : List Value) : nodesAmong (present items) = nodesAmong items := by
  induction items with
  | nil => rfl
  | cons v rest ih =>
    rw [present_cons]
    split_ifs with hnull
    · cases v with
      | null => simp [ih, nodesAmong, nodes]
      | _ => simp [Value.isNull] at hnull
    · rw [nodesAmong, nodesAmong, ih]

/-- A leaf is no node. -/
theorem nodes_of_loadLeaf? {v w : Value} (h : loadLeaf? v = some (.ok w)) : nodes v = [] := by
  cases v with
  | dict members =>
    obtain ⟨hcomponent, hchildren⟩ := find?_of_loadLeaf? h
    rw [nodes, nodesBelow_eq, nodeComponent?, hcomponent, hchildren]
    rfl
  | list items => simp [loadLeaf?, tagged?] at h
  | _ => rfl

theorem propsOf_eq_ok {members given : List (String × Value)} (h : propsOf members = .ok given) :
    given = givenProps members := by
  unfold propsOf at h
  unfold givenProps
  split at h
  · rename_i props hprops
    rw [hprops]
    exact (Except.ok.inj h).symm
  · rename_i hnone
    split_ifs at h with htrue
    · simp at h
    · obtain rfl := Except.ok.inj h
      cases hv : (Table.find? "props" members).getD .null with
      | dict props => exact absurd hv (hnone props)
      | _ => rfl

end Document

variable {number : Number → Bool} {g : Graph}

mutual

/-- **Walk.** What stands for the tree of a document is met node by node, in pre-order. -/
theorem madeOf_of_loads : ∀ (t : Tree) {v w : Value}, Loads v t → v.isJson number = true → g.Stands w t →
    g.Grounded [w] → List.Forall₂ (g.MadeOf · number) (nodes v) (g.listing [w])
  | .leaf value, _, _, hloads, _, hs, _ => by
    cases hs
    cases hloads with
    | leaf hleaf =>
      obtain ⟨l, hl⟩ := roleOf_of_isLeafValue (g := g) (isLeafValue_of_loadLeaf? hleaf)
      rw [nodes_of_loadLeaf? hleaf, listing_leaf hl]
      exact .nil
  | .node component props ts, _, _, hloads, hjson, hs, hg => by
    cases hs with
    | @node h _ _ vs _ he hvs =>
      have hbelow := hg.children (by simp) he
      have hr := roleOf_element he
      cases hloads with
      | fragment hts =>
        have hf : (Element.mk .fragment [] vs).isFragment = true := rfl
        rw [if_pos hf] at hr
        rw [listing_fragment hg hr, Document.nodes, ← nodesAmong_present]
        exact madeOf_of_loadsAll ts hts (isJson_of_mem_present (Value.isJson_list.mp hjson)) hvs hbelow
      | @node members given _ name _ hname hgiven hchecked hprops hts =>
        have ih := madeOf_of_loadsAll ts hts (isJson_of_mem_present (isJson_of_mem_childItems hjson)) hvs hbelow
        rw [nodesAmong_present, ← nodesBelow_eq] at ih
        by_cases hfragment : name = fragmentComponent
        · have hnone : nodeComponent? members = none := by rw [nodeComponent?, hname]; exact if_pos hfragment
          have hf : (Element.mk (componentOf name) props vs).isFragment = true :=
            (isFragment_componentOf name props).mpr hfragment
          rw [if_pos hf] at hr
          rw [listing_fragment hg hr, Document.nodes, hnone]
          exact ih
        · have hsome : nodeComponent? members = some name := by
            rw [nodeComponent?, hname]
            exact if_neg hfragment
          have hf : ¬ (Element.mk (componentOf name) props vs).isFragment = true :=
            fun h => hfragment ((isFragment_componentOf name props).mp h)
          rw [if_neg hf] at hr
          rw [listing_concrete hg hr, Document.nodes, hsome]
          have hat : g.attributesAt h = props := by simp [attributesAt, he]
          obtain rfl := propsOf_eq_ok hgiven
          exact .cons ⟨isJson_of_propsOf hjson hgiven, ⟨_, name, he, if_neg hfragment, hsome⟩, hat ▸ hprops⟩ ih

theorem madeOf_of_loadsAll : ∀ (ts : List Tree) {vs ws : List Value}, List.Forall₂ Loads vs ts →
    (∀ v ∈ vs, v.isJson number = true) → List.Forall₂ g.Stands ws ts → g.Grounded ws →
    List.Forall₂ (g.MadeOf · number) (nodesAmong vs) (g.listing ws)
  | [], _, _, hloads, _, hs, _ => by
    cases hs
    cases hloads
    exact .nil
  | t :: ts, _, _, hloads, hjson, hs, hg => by
    cases hs with
    | @cons w _ ws _ hw hws =>
      cases hloads with
      | cons hv hvs =>
        obtain ⟨hjson, hjsons⟩ := List.forall_mem_cons.mp hjson
        rw [nodesAmong, listing_cons]
        exact List.rel_append (madeOf_of_loads t hv hjson hw hg.head)
          (madeOf_of_loadsAll ts hvs hjsons hws hg.tail)

end

/-! ### From the elements to the records -/

variable {root : Value} {members : List (String × Value)} {h : Handle} {b : Block}

/-- The id that an element asks for with an attribute is the text of the attribute. -/
theorem askedId?_eq_text {e : Element} (he : g.find? h = some e) {w : Value}
    (hw : Table.find? Element.idAttribute e.props = some w) (hnull : w.isNull = false) :
    g.askedId? h = some <$> g.text w := by
  rw [askedId?, he]
  show g.explicitId? e = _
  rw [explicitId?, hw]
  cases w with
  | null => simp [Value.isNull] at hnull
  | _ => rfl

theorem shownBy_of_madeOf (hmade : g.MadeOf members number h) (hasked : g.askedId? h = .ok (g.wantedId? h))
    (hc : Contributes g root h b) : g.ShownBy members b.inst := by
  obtain ⟨e, name, he, hname, hcomponent⟩ := hmade.component
  obtain ⟨-, e', he', htext, -⟩ := hc.inst
  obtain rfl := Option.some.inj (he.symm.trans he')
  refine ⟨?_, fun v w hv hw hnull => ?_⟩
  · rw [hname, text_str] at htext
    rw [hcomponent, Except.ok.inj htext]
  · have hat : g.attributesAt h = e.props := by simp [attributesAt, he]
    have hfind : Table.find? Element.idAttribute e.props = some w := by
      rw [← hat]
      exact (find?_of_loadProps hmade.props).mpr ⟨v, hv, hw⟩
    have hid : some <$> g.text w = .ok (g.wantedId? h) := by
      rw [← hasked, askedId?_eq_text he hfind hnull]
    cases htext : g.text w with
    | error d => simp [htext] at hid
    | ok text =>
      rw [htext] at hid
      rw [hc.id, idOf_of_wantedId? (Except.ok.inj hid).symm]

/-- **Nodes.** The records of a document are made of what the elements of its nodes contribute, in
pre-order, and the instances show these nodes. -/
theorem exists_blocks_of_loadInto {doc : Value} {g₀ : Graph} {f : DocumentFragment}
    (hdoc : doc.isJson number = true) (hload : Document.loadInto g₀ doc = .ok (g, root))
    (hok : (normalize g root).outcome = .ok f) :
    ∃ blocks refs, f = { DocumentFragment.ofBlocks blocks with children := refs } ∧
      List.Forall₂ (fun members b => ∃ h, g.MadeOf members number h ∧ Contributes g root h b ∧
        g.ShownBy members b.inst) (nodes doc) blocks := by
  obtain ⟨t, hloads, ht, hplant⟩ := exists_sound_of_loadInto hdoc hload
  obtain ⟨hs, hac⟩ := stands_of_plant ht hplant
  obtain ⟨blocks, hall, hf⟩ := contributes_of_normalize hac hok
  have hmade := madeOf_of_loads t hloads hdoc hs hac.grounded
  rw [← firstVisits_eq_listing ht hplant] at hmade
  have hasked := idsShown_of_normalize hac hok
  refine ⟨blocks, _, hf, ?_⟩
  exact (forall₂_comp hmade ((List.forall₂_and_left _ _).mpr ⟨hasked, hall⟩)).imp
    fun members b ⟨h, hm, ha, hc⟩ => ⟨h, hm, hc, shownBy_of_madeOf hm ha hc⟩

/-! ### What is rendered -/

/-- Some node that is no fragment asks for an id in which a whole number cannot be shown. -/
def Document.HasLongId (doc : Value) : Prop :=
  ∃ members ∈ nodes doc, ∃ v, Table.find? Element.idAttribute (givenProps members) = some v ∧
    v.isShortDocument = false

/-- An element whose id has no text is made of a node with such an id. -/
theorem exists_long_of_madeOf (hmade : g.MadeOf members number h) {d : TooManyDigits}
    (hasked : g.askedId? h = .error d) :
    ∃ v, Table.find? Element.idAttribute (givenProps members) = some v ∧ v.isShortDocument = false := by
  obtain ⟨e, name, he, -⟩ := hmade.component
  have hat : g.attributesAt h = e.props := by simp [attributesAt, he]
  cases hfind : Table.find? Element.idAttribute e.props with
  | none => simp [askedId?, he, explicitId?, hfind] at hasked
  | some w =>
    obtain ⟨v, hv, hload⟩ := (find?_of_loadProps hmade.props).mp (hat ▸ hfind)
    have htext : ¬ ∃ text, g.text w = .ok text := by
      rintro ⟨text, htext⟩
      cases hnull : w.isNull with
      | true =>
        cases w with
        | null => simp [askedId?, he, explicitId?, hfind] at hasked
        | _ => simp [Value.isNull] at hnull
      | false => simp [askedId?_eq_text he hfind hnull, htext] at hasked
    refine ⟨v, hv, Bool.eq_false_iff.mpr fun hshort => htext ?_⟩
    rcases eq_or_isTyped_of_loadValue hload with rfl | htyped
    · exact (Value.exists_text_iff g hshort).mpr hshort
    · exact exists_text_of_isTyped htyped

/-- Only where a node has such an id do the claims fail for one that has no text. -/
theorem exists_longId_of_firstFault {doc : Value} {g₀ : Graph} (hdoc : doc.isJson number = true)
    (hload : Document.loadInto g₀ doc = .ok (g, root))
    (hfault : g.FirstFault (g.firstVisits root) .tooManyDigits) :
    ∃ members ∈ nodes doc, ∃ v, Table.find? Element.idAttribute (givenProps members) = some v ∧
      v.isJson number = true ∧ v.isShortDocument = false := by
  obtain ⟨t, hloads, ht, hplant⟩ := exists_sound_of_loadInto hdoc hload
  obtain ⟨hs, hac⟩ := stands_of_plant ht hplant
  have hmade := madeOf_of_loads t hloads hdoc hs hac.grounded
  rw [← firstVisits_eq_listing ht hplant] at hmade
  obtain ⟨before, h, after, hl, ⟨d, hasked⟩, -⟩ := hfault
  obtain ⟨members, hmem, hm⟩ := exists_of_mem_forall₂ hmade (b := h) (by simp [hl])
  obtain ⟨v, hv, hlong⟩ := exists_long_of_madeOf hm hasked
  exact ⟨members, hmem, v, hv, Value.isJson_of_find? hm.json hv, hlong⟩

theorem hasLongId_of_firstFault {doc : Value} {g₀ : Graph} (hdoc : doc.isJson number = true)
    (hload : Document.loadInto g₀ doc = .ok (g, root))
    (hfault : g.FirstFault (g.firstVisits root) .tooManyDigits) : HasLongId doc := by
  obtain ⟨members, hmem, v, hv, -, hlong⟩ := exists_longId_of_firstFault hdoc hload hfault
  exact ⟨members, hmem, v, hv, hlong⟩

/-- A document in which every whole number can be shown has no such node. -/
theorem rendered_or_duplicate {doc : Value} {g₀ : Graph} (hdoc : doc.isShortDocument = true)
    (hload : Document.loadInto g₀ doc = .ok (g, root)) :
    (∃ f, (normalize g root).outcome = .ok f) ∨ ∃ d, (normalize g root).outcome = .error (.duplicate d) := by
  rcases (renderable_of_loadInto hdoc hload).outcome with hok | ⟨e, hfault, herror⟩
  · exact .inl hok
  · cases e with
    | duplicate d => exact .inr ⟨d, herror⟩
    | tooManyDigits =>
      obtain ⟨-, -, v, -, hshort, hlong⟩ := exists_longId_of_firstFault hdoc hload hfault
      cases hshort.symm.trans hlong

/-- **Acceptance.** A document that the loader accepts is rendered, unless two of its elements ask for the same
id, or one for an id that cannot be shown; the latter takes a node with such an id. Whichever of these it is, no
child is passed over, and the records of each element can be made. -/
theorem accepted_renders {doc root : Value} {g₀ : Graph} (hdoc : doc.isDocument = true)
    (hload : Document.loadInto g₀ doc = .ok (g, root)) :
    ((∃ f, (normalize g root).outcome = .ok f) ∨
      (∃ d, (normalize g root).outcome = .error (.duplicate d)) ∨
      (normalize g root).outcome = .error .tooManyDigits ∧ HasLongId doc) ∧
    (∀ v, skippedEntry v ∉ (normalize g root).entries) ∧
    ∀ h e, g.Reaches root h → g.find? h = some e →
      (∀ v ∈ e.children, g.roleOf v ≠ .unsupported) ∧ ∀ idOf id, ∃ b, blockOf g idOf id e = .ok b := by
  have hr := renderable_of_loadInto hdoc hload
  refine ⟨?_, hr.skippedEntry_not_mem, fun h e hh he => ⟨hr.supported.below h e hh he, hr.blocks h e hh he⟩⟩
  rcases hr.outcome with hok | ⟨e, hfault, herror⟩
  · exact .inl hok
  · cases e with
    | duplicate d => exact .inr (.inl ⟨d, herror⟩)
    | tooManyDigits => exact .inr (.inr ⟨herror, hasLongId_of_firstFault hdoc hload hfault⟩)

/-- A box with a declaration, a link and a number that is none. Among its children are a null, a number, an
expression and a fragment with a text in it. -/
def boxDocument : Value := .dict
  [("component", .str "Box"),
   ("props", .dict
     [("ws:id", .str "box"), ("ws:label", .null),
      ("ws:style", .list [.dict [("property", .str "color"), ("value", .str "red"), ("state", .null)]]),
      ("size", .float .nan), ("link", .dict [("$page", .dict [("pageId", .str "home")])])]),
   ("children", .list
     [.null, .int 7, .dict [("$expression", .str "a + b")],
      .list [.str "dropped", .dict [("component", .str "Text")]]])]

theorem accepted_renders_boxDocument : boxDocument.isDocument = true ∧ ∃ g root f,
    Document.loadInto .empty boxDocument = .ok (g, root) ∧ (normalize g root).outcome = .ok f ∧
      ∀ v, skippedEntry v ∉ (normalize g root).entries := by
  have hdoc : boxDocument.isDocument = true := by decide +kernel
  obtain ⟨g, root, f, hload, hok⟩ := exists_rendered boxDocument (by decide +kernel)
  obtain ⟨-, hskip, -⟩ := accepted_renders hdoc hload
  exact ⟨hdoc, g, root, f, hload, hok, hskip⟩

/-- A box that asks for an id that is a number with one digit too many. -/
def longIdDocument : Value := .dict
  [("component", .str "Box"), ("props", .dict [("ws:id", .int (Nat.pow 10 maxDigits))])]

/-- The graph of the box. -/
def longIdGraph : Graph := ⟨#[⟨.str "Box", [("ws:id", .int (Nat.pow 10 maxDigits))], []⟩]⟩

/-- A document that is accepted is not always rendered, even if no two elements ask for the same id. -/
theorem not_rendered_of_longId : ¬ ∀ (doc : Value) (g : Graph) (root : Value), doc.isDocument = true →
    Document.loadInto .empty doc = .ok (g, root) → (∃ f, (normalize g root).outcome = .ok f) ∨
      ∃ d, (normalize g root).outcome = .error (.duplicate d) := by
  intro hall
  have hload : Document.loadInto .empty longIdDocument = .ok (longIdGraph, .element ⟨0⟩) := rfl
  have hac : longIdGraph.Acyclic (.element ⟨0⟩) := acyclic_of_index_lt (by decide) _
  have hvisits : longIdGraph.firstVisits (.element ⟨0⟩) = [⟨0⟩] := by decide +kernel
  have hasked : longIdGraph.askedId? ⟨0⟩ = .error {} := by
    show some <$> longIdGraph.text (.int (Nat.pow 10 maxDigits)) = _
    rw [text_int, showInt_of_le (Int.natAbs_natCast _).ge]
    rfl
  have hfault : longIdGraph.FirstFault (longIdGraph.firstVisits (.element ⟨0⟩)) .tooManyDigits := by
    rw [hvisits]
    exact ⟨[], ⟨0⟩, [], rfl, ⟨{}, hasked⟩, by simp [IdsShown], by simp⟩
  have herror := (normalize_of_firstFault hac hfault).1
  rcases hall longIdDocument longIdGraph (.element ⟨0⟩) rfl hload with ⟨f, hok⟩ | ⟨d, hd⟩
  · rw [herror] at hok
    cases hok
  · rw [herror] at hd
    cases hd

end ViewGraph
