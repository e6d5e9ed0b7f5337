import ViewGraph.Proofs.PropIds
import ViewGraph.Proofs.Transparency

/-!
# Edits of one element

The attributes of an element matter to its own records only.  Whatever else is recorded stays as it is when
they are edited, unless a text that names an element shows them.

* `Graph.withAttributes h props`: the graph in which an element has other attributes.
* `EditedLocally g g' root h f f'`: the records of both graphs are the same, but for those of that element.
* `EditedBlock id b b'`: so are two blocks of one element, which are the same unless it has that id.
* `filter_parts`: then the same is left of both if what belongs to that id is taken away.
* `edited_locally`: every edit is local, if the elements ask for the same ids.
-/

namespace ViewGraph

open ViewGraph.Graph

/-! ### Definitions -/

section Defs

variable (g g' : Graph) (root : Value) (h : Handle)

/-- The graph in which an element has other attributes. -/
def Graph.withAttributes (props : List (String × Value)) : Graph := g.update h fun e => { e with props := props }

/-- The text that the component of an element shows. -/
def Graph.componentText? : Option (Shown String) := (g.find? h).map fun e => g.text e.component

/-- The text that the label of an element shows. -/
def Graph.labelText? : Option (Shown (Option String)) := (g.find? h).map g.label?

/-- The records of two graphs are the same, but for those of the element at `h`.  `made` and `made'` are the
instances that are made of the elements, and `idOf` has their ids. -/
structure EditedLocally (f f' : DocumentFragment) (idOf : Handle → String) (made made' : Handle → Instance) :
    Prop where
  edited : g.HasInstance root h
  complete : ∀ k, k ∈ g.firstVisits root ↔ g.HasInstance root k
  once : (g.firstVisits root).Nodup
  ids : (f.instances.map (·.id)).Nodup
  children : f'.children = f.children
  instances : f.instances = (g.firstVisits root).map made
  instances' : f'.instances = (g.firstVisits root).map made'
  shows : ∀ k, g.HasInstance root k → IsInstanceOf g idOf k (made k)
  shows' : ∀ k, g.HasInstance root k → IsInstanceOf g' idOf k (made' k)
  /-- Instances have the same ids and the same children. -/
  same : ∀ k, g.HasInstance root k →
    made' k = { made k with component := (made' k).component, label := (made' k).label }
  component : ∀ k, g.HasInstance root k → g'.componentText? k = g.componentText? k →
    (made' k).component = (made k).component
  label : ∀ k, g.HasInstance root k → k ≠ h → g'.labelText? k = g.labelText? k →
    (made' k).label = (made k).label
  props : f'.props.filter (·.instanceId ≠ idOf h) = f.props.filter (·.instanceId ≠ idOf h)
  styleSources : f'.styleSources.filter (·.id ≠ styleSourceId (idOf h)) =
    f.styleSources.filter (·.id ≠ styleSourceId (idOf h))
  styleSourceSelections : f'.styleSourceSelections.filter (·.instanceId ≠ idOf h) =
    f.styleSourceSelections.filter (·.instanceId ≠ idOf h)
  styles : f'.styles.filter (·.styleSourceId ≠ styleSourceId (idOf h)) =
    f.styles.filter (·.styleSourceId ≠ styleSourceId (idOf h))

end Defs

/-! ### The edited graph -/

section Edit

variable (g : Graph) (h : Handle) (props : List (String × Value))

theorem find?_withAttributes (k : Handle) : (g.withAttributes h props).find? k =
    (g.find? k).map fun e => if k = h then { e with props := props } else e := by
  obtain ⟨i⟩ := h
  obtain ⟨j⟩ := k
  simp only [withAttributes, update, Graph.find?, Array.getElem?_modify, Handle.mk.injEq]
  by_cases hij : j = i
  · simp [hij]
  · simp [hij, Ne.symm hij]

theorem find?_withAttributes_of_ne {k : Handle} (hk : k ≠ h) :
    (g.withAttributes h props).find? k = g.find? k := by
  simp [find?_withAttributes, hk]

theorem sameShape_withAttributes : g.SameShape (g.withAttributes h props) where
  size := by simp [withAttributes, update]
  shape := fun k => by
    rw [find?_withAttributes, Option.map_map]
    congr 1
    funext e
    rw [Function.comp_apply]
    split_ifs <;> rfl

end Edit

/-! ### Two blocks of one element -/

/-- All records of a block belong to its instance. -/
def Block.Owned (b : Block) : Prop := ∀ p ∈ b.props, p.instanceId = b.inst.id

/-- Two blocks of one element hold the same records, unless it is the one with that id. -/
structure EditedBlock (own : String) (b b' : Block) : Prop where
  id : b'.inst.id = b.inst.id
  owned : b.Owned
  owned' : b'.Owned
  props : b.inst.id ≠ own → b'.props = b.props
  styles : b.inst.id ≠ own → b'.styles = b.styles

/-- The same is left of the blocks if what belongs to that id is taken away. -/
theorem filter_parts {γ : Type} {own : String} {part : Block → List γ} {keep : γ → Bool} {bs bs' : List Block}
    (hbs : List.Forall₂ (EditedBlock own) bs bs')
    (hpart : ∀ b b' : Block, b'.inst.id = b.inst.id → b'.props = b.props → b'.styles = b.styles →
      part b' = part b)
    (hown : ∀ b : Block, b.Owned → b.inst.id = own → ∀ x ∈ part b, keep x = false) :
    (bs'.flatMap part).filter keep = (bs.flatMap part).filter keep := by
  rw [List.filter_flatMap, List.filter_flatMap]
  refine (flatMap_eq_of_forall₂ (hbs.imp fun b b' hb => ?_)).symm
  by_cases hid : b.inst.id = own
  · have hgone : ∀ c : Block, c.Owned → c.inst.id = own → (part c).filter keep = [] := fun c hc hown' =>
      List.filter_eq_nil_iff.mpr fun x hx => by simp [hown c hc hown' x hx]
    rw [hgone b hb.owned hid, hgone b' hb.owned' (hb.id.trans hid)]
  · rw [hpart b b' hb.id (hb.props hid) (hb.styles hid)]

/-- So it is with everything that blocks record. -/
theorem filter_ofBlocks {own : String} {bs bs' : List Block} (hbs : List.Forall₂ (EditedBlock own) bs bs') :
    let r := DocumentFragment.ofBlocks bs
    let r' := DocumentFragment.ofBlocks bs'
    r'.props.filter (·.instanceId ≠ own) = r.props.filter (·.instanceId ≠ own) ∧
      r'.styleSources.filter (·.id ≠ styleSourceId own) = r.styleSources.filter (·.id ≠ styleSourceId own) ∧
      r'.styleSourceSelections.filter (·.instanceId ≠ own) =
        r.styleSourceSelections.filter (·.instanceId ≠ own) ∧
      r'.styles.filter (·.styleSourceId ≠ styleSourceId own) =
        r.styles.filter (·.styleSourceId ≠ styleSourceId own) := by
  refine ⟨?_, ?_, ?_, ?_⟩
  · exact filter_parts hbs (fun b b' _ hp _ => hp) fun b hb hid p hp => by simp [hb p hp, hid]
  · rw [sources_ofBlocks, sources_ofBlocks]
    refine filter_parts hbs (fun b b' hi _ hs => by rw [hi, hs]) fun b _ hid s hs => ?_
    obtain ⟨-, -, rfl⟩ := List.mem_map.mp hs
    simp [hid]
  · rw [sourceSelections_ofBlocks, sourceSelections_ofBlocks]
    refine filter_parts hbs (fun b b' hi _ hs => by rw [hi, hs]) fun b _ hid s hs => ?_
    obtain ⟨-, -, rfl⟩ := List.mem_map.mp hs
    simp [hid]
  · rw [styles_ofBlocks, styles_ofBlocks]
    refine filter_parts hbs (fun b b' hi _ hs => by rw [hi, hs]) fun b _ hid s hs => ?_
    obtain ⟨ds, -, hs⟩ := List.mem_flatMap.mp hs
    obtain ⟨d, -, rfl⟩ := List.mem_map.mp hs
    simp [hid, Declaration.toStyle]

variable {g g' : Graph} {root : Value} {h k : Handle}

/-- The records of the attributes of an element belong to its instance. -/
theorem owned_of_blockAt {b : Block} (hc : g.Concrete k) (hb : g.blockAt root k = .ok b) : b.Owned := by
  obtain ⟨e, he, -⟩ := hc
  obtain ⟨hattributes, hinst, -⟩ := blockAt_eq_ok he hb
  obtain ⟨hprops, -⟩ := attributeRecords_eq_ok hattributes
  obtain ⟨-, hkeys⟩ := keys_of_createProp (mapM_eq_ok.mp hprops)
  intro p hp
  have hkey : p.key ∈ b.props.map PropRecord.key := List.mem_map_of_mem hp
  rw [hkeys] at hkey
  obtain ⟨a, -, heq⟩ := List.mem_map.mp hkey
  obtain ⟨hid, -⟩ := Prod.mk.inj heq
  rw [← hid, hinst]

/-- The instance of an element has its id, shows it, and refers to its children. -/
theorem isInstanceOf_instanceAt (hac : g.Acyclic root) {f : DocumentFragment}
    (hok : (normalize g root).outcome = .ok f) (hk : g.HasInstance root k) :
    IsInstanceOf g (g.idOf root) k (g.instanceAt root k) := by
  obtain ⟨e, he, -⟩ := hk.2
  obtain ⟨b, hb⟩ := blockAt_of_normalize hac hok ((mem_firstVisits hac).mpr hk)
  obtain ⟨-, hid, hinst⟩ := blockAt_eq_ok he hb
  rw [instanceAt_of_blockAt hb]
  exact ⟨hid, e, he, hinst⟩

theorem IsInstanceOf.texts {idOf : Handle → String} {i : Instance} (hi : IsInstanceOf g idOf k i) :
    g.componentText? k = some (.ok i.component) ∧ g.labelText? k = some (.ok i.label) := by
  obtain ⟨-, e, he, hcomponent, hlabel, -⟩ := hi
  simp [componentText?, labelText?, he, hcomponent, hlabel]

/-! ### Records of the edited graph -/

section Records

variable (hs : g.SameShape g') (hl : SameLinks g g' root) (hedit : ∀ k, k ≠ h → g'.find? k = g.find? k)

include hl

include hedit in
/-- The other elements give the same records of their attributes. -/
theorem editedBlock_of_blockAt (hk : g.HasInstance root k) {b b' : Block} (hb : g.blockAt root k = .ok b)
    (hb' : g'.blockAt root k = .ok b') : EditedBlock (g.idOf root h) b b' := by
  have hk' := hl.hasInstance hk
  obtain ⟨e, he, -⟩ := hk.2
  obtain ⟨hattributes, hinst, -⟩ := blockAt_eq_ok he hb
  have hidOf := hl.idOf ((mem_firstVisits hl.acyclic).mpr hk)
  have hsame : b.inst.id ≠ g.idOf root h → b'.props = b.props ∧ b'.styles = b.styles := by
    intro hne
    have hkh : k ≠ h := by
      rintro rfl
      exact hne (by rw [hinst])
    obtain ⟨hattributes', -⟩ := blockAt_eq_ok ((hedit k hkh).trans he) hb'
    rw [hidOf, attributeRecords_congr g g', hattributes] at hattributes'
    obtain ⟨hprops, hstyles⟩ := Prod.mk.inj (Except.ok.inj hattributes')
    exact ⟨hprops.symm, hstyles.symm⟩
  exact
    { id := by rw [← instanceAt_of_blockAt hb', ← instanceAt_of_blockAt hb, instanceAt_id, instanceAt_id, hidOf]
      owned := owned_of_blockAt hk.2 hb
      owned' := owned_of_blockAt hk'.2 hb'
      props := fun hne => (hsame hne).1
      styles := fun hne => (hsame hne).2 }

variable {f f' : DocumentFragment} (hok : (normalize g root).outcome = .ok f)
  (hok' : (normalize g' root).outcome = .ok f')

include hedit hok hok' in
/-- The records are those of blocks that differ at that element only. -/
theorem exists_editedBlocks : ∃ blocks blocks', List.Forall₂ (EditedBlock (g.idOf root h)) blocks blocks' ∧
    f = { DocumentFragment.ofBlocks blocks with children := g.refsTo root (g.structural [root]) } ∧
      f' = { DocumentFragment.ofBlocks blocks' with children := g.refsTo root (g.structural [root]) } := by
  obtain ⟨blocks, hblocks, hf⟩ := normalize_eq_ok hl.acyclic hok
  obtain ⟨blocks', hblocks', hf'⟩ := normalize_eq_ok hl.acyclic' hok'
  rw [hl.refsTo_top] at hf'
  rw [hl.visits] at hblocks'
  have hinstances : ∀ k ∈ g.firstVisits root, g.HasInstance root k := fun k => (mem_firstVisits hl.acyclic).mp
  have hboth := (List.forall₂_and_left _ _).mpr ⟨hinstances, hblocks⟩
  refine ⟨blocks, blocks', ?_, hf, hf'⟩
  exact (forall₂_comp hboth.flip hblocks').imp fun b b' ⟨k, ⟨hk, hb⟩, hb'⟩ =>
    editedBlock_of_blockAt hl hedit hk hb hb'

include hs hok' in
/-- The instance of an element in the edited graph, under the ids of the graph. -/
theorem isInstanceOf_edited (hk : g.HasInstance root k) :
    IsInstanceOf g' (g.idOf root) k (g'.instanceAt root k) := by
  obtain ⟨hid, e', he', hcomponent, hlabel, hrefs⟩ := isInstanceOf_instanceAt hl.acyclic' hok' (hl.hasInstance hk)
  obtain ⟨e, he, -, hchildren⟩ := hs.symm.exists_find? he'
  have hlinked : g.structural e.children ⊆ g.firstVisits root := fun m hm =>
    (mem_firstVisits hl.acyclic).mpr (hasInstance_of_mem_structural hl.acyclic hk he hm)
  rw [← hchildren, hs.spliced, hl.referenceTo hlinked] at hrefs
  refine ⟨?_, e', he', hcomponent, hlabel, ?_⟩
  · rw [hid, hl.idOf ((mem_firstVisits hl.acyclic).mpr hk)]
  · rwa [← hchildren, hs.spliced]

include hs hok hok' in
/-- The instance of an element differs in the texts that it shows only. -/
theorem instanceAt_edited (hk : g.HasInstance root k) : g'.instanceAt root k =
    { g.instanceAt root k with
      component := (g'.instanceAt root k).component
      label := (g'.instanceAt root k).label } := by
  obtain ⟨hid, e, he, -, -, hrefs⟩ := isInstanceOf_instanceAt hl.acyclic hok hk
  obtain ⟨hid', e', he', -, -, hrefs'⟩ := isInstanceOf_edited hs hl hok' hk
  obtain ⟨e'', he'', -, hchildren⟩ := hs.exists_find? he
  obtain rfl := Option.some.inj (he'.symm.trans he'')
  rw [hchildren, hs.spliced, hrefs] at hrefs'
  have hids : (g'.instanceAt root k).id = (g.instanceAt root k).id := hid'.trans hid.symm
  have hchildrens : (g'.instanceAt root k).children = (g.instanceAt root k).children :=
    (Except.ok.inj hrefs').symm
  show g'.instanceAt root k = ⟨(g.instanceAt root k).id, (g'.instanceAt root k).component,
    (g'.instanceAt root k).label, (g.instanceAt root k).children⟩
  rw [← hids, ← hchildrens]

include hs hedit hok hok' in
/-- The records of the edited graph are the same, but for those of that element. -/
theorem editedLocally (hh : g.HasInstance root h) :
    EditedLocally g g' root h f f' (g.idOf root) (g.instanceAt root) (g'.instanceAt root) := by
  have hac := hl.acyclic
  obtain ⟨blocks, blocks', hblocks, hf, hf'⟩ := exists_editedBlocks hl hedit hok hok'
  obtain ⟨hprops, hsources, hselections, hstyles⟩ := filter_ofBlocks hblocks
  have hshows : ∀ k, g.HasInstance root k → IsInstanceOf g (g.idOf root) k (g.instanceAt root k) :=
    fun k hk => isInstanceOf_instanceAt hac hok hk
  have hshows' : ∀ k, g.HasInstance root k → IsInstanceOf g' (g.idOf root) k (g'.instanceAt root k) :=
    fun k hk => isInstanceOf_edited hs hl hok' hk
  exact
    { edited := hh
      complete := fun k => mem_firstVisits hac
      once := nodup_firstVisits root
      ids := nodup_instance_ids hac hok
      children := by rw [hf, hf']
      instances := instances_of_normalize hac hok
      instances' := by rw [← hl.visits, instances_of_normalize hl.acyclic' hok']
      shows := hshows
      shows' := hshows'
      same := fun k hk => instanceAt_edited hs hl hok hok' hk
      component := fun k hk htext => by
        rw [(hshows k hk).texts.1, (hshows' k hk).texts.1] at htext
        exact Except.ok.inj (Option.some.inj htext)
      label := fun k hk _ htext => by
        rw [(hshows k hk).texts.2, (hshows' k hk).texts.2] at htext
        exact Except.ok.inj (Option.some.inj htext)
      props := by rw [hf, hf', hprops]
      styleSources := by rw [hf, hf', hsources]
      styleSourceSelections := by rw [hf, hf', hselections]
      styles := by rw [hf, hf', hstyles] }

end Records

/-! ### Edits -/

section Edits

variable {props : List (String × Value)}

/-- Texts that name no element are the same in the edited graph. -/
theorem PlainlyNamed.texts_withAttributes (hp : PlainlyNamed g root)
    (hid : Table.find? Element.idAttribute props = Table.find? Element.idAttribute (g.attributesAt h))
    (hk : g.HasInstance root k) :
    (g.withAttributes h props).wantedId? k = g.wantedId? k ∧
      (g.withAttributes h props).componentText? k = g.componentText? k ∧
        (k ≠ h → (g.withAttributes h props).labelText? k = g.labelText? k) := by
  obtain ⟨e, he, -⟩ := hk.2
  obtain ⟨hcomponent, hplain⟩ := hp k e hk he
  have he' := find?_withAttributes g h props k
  rw [he, Option.map_some] at he'
  refine ⟨?_, ?_, fun hkh => ?_⟩
  · have hfind : Table.find? Element.idAttribute (if k = h then { e with props := props } else e).props =
        Table.find? Element.idAttribute e.props := by
      split_ifs with hkh
      · subst hkh
        simpa [attributesAt, he] using hid
      · rfl
    have hexplicit : (g.withAttributes h props).explicitId? _ = g.explicitId? e :=
      explicitId?_eq_of_isPlain hfind fun a ha hname => hplain a ha (.inl hname)
    rw [wantedId?, wantedId?, askedId?, askedId?, he, he']
    simp only [hexplicit]
  · have hsame : (if k = h then { e with props := props } else e).component = e.component := by
      split_ifs <;> rfl
    rw [componentText?, componentText?, he, he', Option.map_some, Option.map_some, hsame,
      text_eq_of_isPlain g (g.withAttributes h props) hcomponent]
  · rw [if_neg hkh] at he'
    rw [labelText?, labelText?, he, he', Option.map_some, Option.map_some,
      label?_eq_of_isPlain rfl fun a ha hname => hplain a ha (.inr hname)]

/-- **Edits.** When the attributes of an element are edited and no element below the root asks for another id,
the records are the same but for those of that element.  If no text that the elements show names an element
and the element keeps what it has for its id, then the texts are the same, but for its own label. -/
theorem edited_locally (hac : g.Acyclic root) (hh : g.HasInstance root h) (props : List (String × Value)) :
    ((∀ k, g.HasInstance root k → (g.withAttributes h props).wantedId? k = g.wantedId? k) →
      ∀ f f', (normalize g root).outcome = .ok f → (normalize (g.withAttributes h props) root).outcome = .ok f' →
        ∃ idOf made made', EditedLocally g (g.withAttributes h props) root h f f' idOf made made') ∧
      (PlainlyNamed g root →
        Table.find? Element.idAttribute props = Table.find? Element.idAttribute (g.attributesAt h) →
        ∀ k, g.HasInstance root k →
          (g.withAttributes h props).wantedId? k = g.wantedId? k ∧
            (g.withAttributes h props).componentText? k = g.componentText? k ∧
              (k ≠ h → (g.withAttributes h props).labelText? k = g.labelText? k)) := by
  refine ⟨fun hids f f' hok hok' => ?_, fun hp hid k hk => hp.texts_withAttributes hid hk⟩
  have hs := sameShape_withAttributes g h props
  exact ⟨g.idOf root, g.instanceAt root, (g.withAttributes h props).instanceAt root,
    editedLocally hs (hs.sameLinks hac hids) (fun k => find?_withAttributes_of_ne g h props) hok hok' hh⟩

end Edits

/-- Other attributes for the text of the shared graph, without a style. -/
def otherAttributes : List (String × Value) :=
  [("size", .int 1), ("ws:label", .str "shared"), ("ws:id", .str "1")]

def editedRecords : DocumentFragment :=
  { children := [.id "0"]
    instances := [⟨"0", "Box", none, [.id "1", .id "2", .text "b" none, .id "1"]⟩,
      ⟨"1", "Text", some "shared", [.text "a" none]⟩, ⟨"2", "Link", none, [.id "1"]⟩]
    props := [⟨"0:size", "0", "size", .number (.whole 2)⟩, ⟨"1:size", "1", "size", .number (.whole 1)⟩,
      ⟨"2:title", "2", "title", .string "more"⟩] }

theorem edited_locally_sharedGraph : ∃ f f', f.equals sharedRecords = true ∧ f'.equals editedRecords = true ∧
    (normalize sharedGraph sharedRoot).outcome = .ok f ∧
      (normalize (sharedGraph.withAttributes ⟨0⟩ otherAttributes) sharedRoot).outcome = .ok f' ∧
      ∃ idOf made made', EditedLocally sharedGraph (sharedGraph.withAttributes ⟨0⟩ otherAttributes) sharedRoot ⟨0⟩
        f f' idOf made made' := by
  obtain ⟨f, hok, hsame⟩ := normalize_sharedGraph
  have hh : sharedGraph.HasInstance sharedRoot ⟨0⟩ := (mem_firstVisits acyclic_sharedGraph).mp (by decide)
  obtain ⟨hlocal, htexts⟩ := edited_locally acyclic_sharedGraph hh otherAttributes
  obtain ⟨f', hok', hsame'⟩ := exists_ok_of_any (r := (normalize (sharedGraph.withAttributes ⟨0⟩ otherAttributes)
    sharedRoot).outcome) (p := (·.equals editedRecords)) (by decide +kernel)
  have hids := fun k hk => (htexts plainlyNamed_sharedGraph rfl k hk).1
  exact ⟨f, f', hsame, hsame', hok, hok', hlocal hids f f' hok hok'⟩

/-! ### A text that shows an attribute -/

/-- A box whose id is an element. The id shows the attributes of the element. -/
def namedByText : Graph := ⟨#[
  ⟨.str "Text", [], []⟩,
  ⟨.str "Box", [("ws:id", .element ⟨0⟩)], [.element ⟨0⟩]⟩]⟩

theorem not_local_of_element_id : ¬ ∀ (g : Graph) (root : Value) (h : Handle) (props : List (String × Value)),
    g.Acyclic root → g.HasInstance root h →
      Table.find? Element.idAttribute props = Table.find? Element.idAttribute (g.attributesAt h) →
      ∀ f f', (normalize g root).outcome = .ok f → (normalize (g.withAttributes h props) root).outcome = .ok f' →
        f'.instances.map (·.id) = f.instances.map (·.id) := by
  intro hall
  have hac : namedByText.Acyclic (.element ⟨1⟩) := acyclic_of_index_lt (by decide) _
  have hh : namedByText.HasInstance (.element ⟨1⟩) ⟨0⟩ := (mem_firstVisits hac).mp (by decide)
  obtain ⟨f, hok, hids⟩ := exists_ok_of_any (r := (normalize namedByText (.element ⟨1⟩)).outcome)
    (p := fun f => f.instances.map (·.id) = ["Element(component='Text', props=\x7b\x7d, children=[])", "0"])
    (by decide +kernel)
  obtain ⟨f', hok', hids'⟩ := exists_ok_of_any
    (r := (normalize (namedByText.withAttributes ⟨0⟩ [("size", .int 1)]) (.element ⟨1⟩)).outcome)
    (p := fun f => f.instances.map (·.id) = ["Element(component='Text', props=\x7b'size': 1\x7d, children=[])", "0"])
    (by decide +kernel)
  have hsame := hall namedByText (.element ⟨1⟩) ⟨0⟩ [("size", .int 1)] hac hh rfl f f' hok hok'
  rw [of_decide_eq_true hids, of_decide_eq_true hids'] at hsame
  exact absurd hsame (by decide)

end ViewGraph
