import ViewGraph.Proofs.Grammar
import ViewGraph.Proofs.Growth
import ViewGraph.Proofs.Nodes

/-!
# Documents that are built

A document can be loaded, or it can be written with the builder, node by node.  The builder takes up the
children that a node gives as an attribute, and the loader does not.  Apart from that the records are the same.

* `Builder.build`: what stands for a document that is written with the builder.
* `Document.attributeReferences`: the references to the children that a node gives as an attribute.
* `exists_build`: the elements that are built are those that are loaded, with these children, unless a number among
  the children of an attribute has too many digits.
* `built_restores`: the records of what is built are those of what is loaded, with these references, and they
  are the same exactly if there are none.
-/

namespace ViewGraph

open ViewGraph.Graph ViewGraph.Document

/-! ### Definitions -/

namespace Builder

/-- What is built, if it stands for children. -/
def shown {α : Type} (r : Shown α) : Loading α := r.mapError fun _ => .tooManyDigits

mutual

/-- What stands for a part of a document that is written with the builder.  A node becomes a new element, once
its children were built, a typed value is loaded, and anything else is passed as it is. -/
def build : Value → Graph → Loading (Graph × Value)
  | .list items, g => do
    let (g, children) ← buildAll items g
    let (g, h) := g.push (← shown (fragment children))
    return (g, .element h)
  | .dict members, g =>
    match tagged? (.dict members) with
    | some (tag, payload) => do return (g, ← loadPayload tag payload)
    | none => do
      let some component := Table.find? "component" members | fail .componentMissing
      let name ← text component
      let props ← loadProps (← Document.propsOf members)
      let (g, children) ← buildMember members g
      let (g, h) := g.push (← shown (element (Document.componentOf name) props children))
      return (g, .element h)
  | v, g => .ok (g, v)

/-- The children in the list that a table of a node holds under their name. -/
def buildMember : List (String × Value) → Graph → Loading (Graph × List Value)
  | [], g => .ok (g, [])
  | (name, v) :: rest, g =>
    if name = "children" then
      match v with
      | .list items => buildAll items g
      | _ => .ok (g, [])
    else buildMember rest g

/-- The children in a list, from left to right. -/
def buildAll : List Value → Graph → Loading (Graph × List Value)
  | [], g => .ok (g, [])
  | v :: rest, g => do
    let (g, child) ← build v g
    let (g, children) ← buildAll rest g
    return (g, child :: children)

end

/-- What was built is what was planted, but that the attribute `children` of each element became children. -/
def BuiltAs (built : Loading (Graph × Value)) (planted : Graph × Value) : Prop :=
  ∃ g v, built = .ok (g, v) ∧ planted.1.GrownTo g ∧ flattenOne v = .ok [planted.2] ∧
    (planted.2.isLeaf = false → v = planted.2)

/-- Nothing was built, since the attribute `children` of an element that was planted has a number with too many
digits. -/
structure RefusedAs {α : Type} (number : Number → Bool) (built : Loading α) (planted : Graph) : Prop where
  error : built = .error .tooManyDigits
  element : ∃ h e, planted.find? h = some e ∧ SoundProps number e.props ∧
    attributeChildren e.props = .error ⟨⟩

end Builder

/-- The references to the children that a node gives as an attribute. -/
def Document.attributeReferences (members : List (String × Value)) : List Child :=
  match loadProps (givenProps members) with
  | .ok props => Builder.attributeReferences props
  | .error _ => []

/-! ### Elements -/

namespace Builder

variable {number : Number → Bool}

theorem RefusedAs.extend {α : Type} {built : Loading α} {g g' : Graph} (h : RefusedAs number built g)
    (hext : g.ExtendedBy g') : RefusedAs number built g' := by
  obtain ⟨herror, k, e, he, hprops⟩ := h
  exact ⟨herror, k, e, hext.find? he, hprops⟩

/-- If the children of an element are refused, so is the element. -/
theorem RefusedAs.push {α β : Type} {built : Loading α} {g : Graph} (h : RefusedAs number built g) (e : Element)
    {before : Loading β} (hbefore : before = .error .tooManyDigits) {f : β → Loading (Graph × Value)} :
    RefusedAs number (before >>= f) (g.push e).1 :=
  ⟨Logged.bind_eq_error.mpr (.inl hbefore), (h.extend (extendedBy_push g e)).element⟩

/-- A node is built with the children of its attribute after the others, if these are there. -/
theorem element_eq {component : Value} {props : List (String × Value)} {raw children : List Value}
    (hchildren : flatten raw = .ok children) : element component props raw = do
      let more ← attributeChildren props
      return ⟨componentOf component, props.filter fun (name, _) => name ≠ Element.childrenAttribute,
        children ++ more⟩ := by
  unfold element attributeChildren
  generalize (Table.find? Element.childrenAttribute props).getD .null = v
  cases v with
  | null =>
    dsimp only
    rw [List.append_nil, hchildren, flattenOne]
    simp [bind, Except.bind, pure, Except.pure]
  | _ =>
    dsimp only
    rw [flatten_append, hchildren, flatten_singleton]
    generalize flattenOne _ = more
    cases more <;> rfl

theorem element_grownTo {component : Value} {props : List (String × Value)} {raw children more : List Value}
    (hcomponent : componentOf component = component) (hchildren : flatten raw = .ok children)
    (hmore : attributeChildren props = .ok more) (hdetached : ∀ v ∈ more, v.Detached) :
    ∃ e, element component props raw = .ok e ∧ Element.GrownTo ⟨component, props, children⟩ e := by
  refine ⟨_, by rw [element_eq hchildren, hmore]; rfl, ?_⟩
  exact ⟨hcomponent, rfl, more, hmore, rfl, hdetached⟩

theorem grownTo_push {g g' : Graph} {e e' : Element} (hg : g.GrownTo g') (he : e.GrownTo e') :
    (g.push e).1.GrownTo (g'.push e').1 where
  size := by rw [size_push, size_push, hg.size]
  find? := fun h => by
    have hfind := hg.find? h
    unfold Graph.find? at hfind ⊢
    simp only [push, Array.getElem?_push, hg.size]
    split_ifs with hlast
    · exact .some he
    · exact hfind

/-! ### Parts of a document -/

/-- A leaf is passed as it is, and stands for the child that is loaded of it. -/
theorem exists_build_leaf {v w : Value} (h : loadLeaf? v = some (.ok w)) (g : Graph) :
    ∃ raw, build v g = .ok (g, raw) ∧ flattenOne raw = .ok [w] := by
  cases v with
  | str s =>
    obtain rfl := Except.ok.inj (Option.some.inj h)
    exact ⟨_, rfl, rfl⟩
  | int n =>
    obtain ⟨text, htext, rfl⟩ := loadWhole_eq_ok.mp (Option.some.inj h)
    exact ⟨_, rfl, by rw [flattenOne, htext]; rfl⟩
  | float x =>
    obtain rfl := Except.ok.inj (Option.some.inj h)
    exact ⟨_, rfl, rfl⟩
  | dict members =>
    have hw := isLeafValue_of_loadLeaf? h
    obtain ⟨⟨tag, payload⟩, htagged, h⟩ := Option.map_eq_some_iff.mp h
    obtain ⟨value, hvalue, h⟩ := Logged.bind_eq_ok.mp h
    have hsame : value = w := by
      split at h
      · exact Except.ok.inj h
      · exact Except.ok.inj h
      · simp at h
    subst hsame
    refine ⟨value, ?_, by cases hw <;> rfl⟩
    rw [build, htagged]
    simp only [hvalue]
    rfl
  | _ => simp [loadLeaf?, tagged?] at h

theorem buildMember_eq (members : List (String × Value)) (g : Graph) :
    buildMember members g = buildAll (childItems members) g := by
  induction members with
  | nil => rfl
  | cons a rest ih =>
    obtain ⟨name, v⟩ := a
    unfold childItems
    rw [Table.find?_cons]
    by_cases hname : name = "children"
    · subst hname
      rw [if_pos rfl]
      cases v <;> simp [buildMember, buildAll]
    · rw [if_neg fun heq => hname heq.symm, ← childItems, ← ih]
      cases v <;> simp [buildMember, hname]

/-- A null is passed on, and stands for no child. -/
theorem exists_buildAll_of_present {items raw : List Value} {g g' : Graph}
    (h : buildAll (present items) g = .ok (g', raw)) :
    ∃ raw', buildAll items g = .ok (g', raw') ∧ flatten raw' = flatten raw := by
  induction items generalizing raw g with
  | nil => exact ⟨raw, h, rfl⟩
  | cons v rest ih =>
    rw [present_cons] at h
    split_ifs at h with hnull
    · obtain ⟨raw', hraw', hflatten⟩ := ih h
      cases v with
      | null =>
        refine ⟨.null :: raw', ?_, ?_⟩
        · rw [buildAll]
          exact Logged.bind_eq_ok.mpr ⟨(g, .null), rfl, Logged.bind_eq_ok.mpr ⟨_, hraw', rfl⟩⟩
        · rw [flatten, flattenOne, hflatten]
          cases flatten raw <;> rfl
      | _ => simp [Value.isNull] at hnull
    · rw [buildAll] at h ⊢
      obtain ⟨⟨g₁, child⟩, hchild, h⟩ := Logged.bind_eq_ok.mp h
      obtain ⟨⟨g₂, children⟩, hchildren, h⟩ := Logged.bind_eq_ok.mp h
      obtain ⟨rfl, rfl⟩ := Prod.mk.inj (Except.ok.inj h)
      obtain ⟨raw', hraw', hflatten⟩ := ih hchildren
      refine ⟨child :: raw', ?_, ?_⟩
      · exact Logged.bind_eq_ok.mpr ⟨_, hchild, Logged.bind_eq_ok.mpr ⟨_, hraw', rfl⟩⟩
      · rw [flatten, hflatten, flatten]

theorem buildAll_eq_error_of_present {items : List Value} {g : Graph} {e : LoadError}
    (h : buildAll (present items) g = .error e) : buildAll items g = .error e := by
  induction items generalizing g with
  | nil => exact h
  | cons v rest ih =>
    rw [present_cons] at h
    split_ifs at h with hnull
    · cases v with
      | null =>
        rw [buildAll]
        exact Logged.bind_eq_error.mpr (.inr ⟨(g, .null), rfl, Logged.bind_eq_error.mpr (.inl (ih h))⟩)
      | _ => simp [Value.isNull] at hnull
    · rw [buildAll] at h ⊢
      rcases Logged.bind_eq_error.mp h with h | ⟨built, hbuilt, h⟩
      · exact Logged.bind_eq_error.mpr (.inl h)
      · rcases Logged.bind_eq_error.mp h with h | ⟨_, -, h⟩
        · exact Logged.bind_eq_error.mpr (.inr ⟨built, hbuilt, Logged.bind_eq_error.mpr (.inl (ih h))⟩)
        · cases h

/-- A node that has all its parts is built once its children are. -/
theorem build_node {members given props : List (String × Value)} {name : String}
    (hname : Table.find? "component" members = some (.str name))
    (hgiven : Document.propsOf members = .ok given) (hprops : loadProps given = .ok props) (g : Graph) :
    build (.dict members) g = do
      let (g, children) ← buildMember members g
      let (g, h) := g.push (← shown (element (Document.componentOf name) props children))
      return (g, .element h) := by
  have hnone : tagged? (.dict members) = none := by
    refine Option.eq_none_iff_forall_ne_some.mpr fun t ht => ?_
    rw [find?_of_tagged? ht (by decide +kernel)] at hname
    simp at hname
  rw [build, hnone]
  simp only [hname, hgiven]
  show (loadProps given >>= _) = _
  rw [hprops]
  rfl

theorem componentOf_componentOf (name : String) :
    componentOf (Document.componentOf name) = Document.componentOf name := by
  unfold Document.componentOf
  split_ifs <;> rfl

/-- Once its children are built, an element is built if the children of its attribute are there. -/
theorem builtAs_element {props : List (String × Value)} {component : Value} {raw children : List Value} {g g' : Graph}
    (hprops : SoundProps number props) (hcomponent : componentOf component = component) (hgrown : g.GrownTo g')
    (hchildren : flatten raw = .ok children) :
    BuiltAs (do
      let (g, h) := g'.push (← shown (element component props raw))
      return (g, .element h)) ((g.push ⟨component, props, children⟩).1, .element ⟨g.nodes.size⟩) ∨
    RefusedAs number (do
      let (g, h) := g'.push (← shown (element component props raw))
      return (g, Value.element h)) (g.push ⟨component, props, children⟩).1 := by
  cases hmore : attributeChildren props with
  | ok more =>
    obtain ⟨e, he, hgrowth⟩ :=
      element_grownTo hcomponent hchildren hmore (detached_of_soundProps hprops hmore)
    refine .inl ⟨(g'.push e).1, _, ?_, grownTo_push hgrown hgrowth, rfl, fun _ => rfl⟩
    rw [he, ← hgrown.size]
    rfl
  | error d =>
    refine .inr ⟨?_, _, _, find?_push g ⟨component, props, children⟩, hprops, hmore⟩
    rw [element_eq hchildren, hmore]
    rfl

end Builder

/-! ### From the document to the elements -/

section Build

variable {number : Number → Bool}

open Builder ViewGraph.Tree

mutual

/-- **Building.** What is built of a document is what is planted of it, unless the attribute of a node has a number
with too many digits. -/
theorem exists_build : ∀ (t : Tree) {v : Value} {g g' : Graph}, Loads v t → t.Sound number → g.GrownTo g' →
    BuiltAs (build v g') (t.plant g) ∨ RefusedAs number (build v g') (t.plant g).1
  | .leaf w, v, g, g', hloads, _, hg => by
    cases hloads with
    | leaf hleaf =>
      obtain ⟨raw, hraw, hflatten⟩ := exists_build_leaf hleaf g'
      have hw := isLeaf_of_isLeafValue (isLeafValue_of_loadLeaf? hleaf)
      exact .inl ⟨g', raw, hraw, hg, hflatten, fun h => absurd hw (by simp [plant_leaf] at h; simp [h])⟩
  | .node component props ts, v, g, g', hloads, hsound, hg => by
    cases hsound with
    | node hcomponent hprops hts =>
      rw [plant_node]
      cases hloads with
      | @fragment items _ hitems =>
        rw [build]
        rcases exists_buildAll ts hitems hts hg with ⟨g'', raw, hraw, hgrown, hflatten⟩ | hrefused
        · obtain ⟨raw', hraw', hflatten'⟩ := exists_buildAll_of_present hraw
          rw [hraw']
          exact builtAs_element hprops rfl hgrown (hflatten'.trans hflatten)
        · exact .inr (hrefused.push _ (buildAll_eq_error_of_present hrefused.error))
      | @node members given _ name _ hname hgiven hchecked hloaded hitems =>
        rw [build_node hname hgiven hloaded, buildMember_eq]
        rcases exists_buildAll ts hitems hts hg with ⟨g'', raw, hraw, hgrown, hflatten⟩ | hrefused
        · obtain ⟨raw', hraw', hflatten'⟩ := exists_buildAll_of_present hraw
          rw [hraw']
          exact builtAs_element hprops (componentOf_componentOf name) hgrown (hflatten'.trans hflatten)
        · exact .inr (hrefused.push _ (buildAll_eq_error_of_present hrefused.error))

theorem exists_buildAll : ∀ (ts : List Tree) {items : List Value} {g g' : Graph}, List.Forall₂ Loads items ts →
    (∀ t ∈ ts, t.Sound number) → g.GrownTo g' →
    (∃ g'' raw, buildAll items g' = .ok (g'', raw) ∧ (plantAll ts g).1.GrownTo g'' ∧
      Builder.flatten raw = .ok (plantAll ts g).2) ∨ RefusedAs number (buildAll items g') (plantAll ts g).1
  | [], _, _, g', hloads, _, hg => by
    cases hloads
    exact .inl ⟨g', [], rfl, hg, rfl⟩
  | t :: ts, _, g, g', hloads, hsound, hg => by
    cases hloads with
    | cons hv hvs =>
      obtain ⟨ht, hts⟩ := List.forall_mem_cons.mp hsound
      rw [buildAll, plantAll_cons]
      rcases exists_build t hv ht hg with ⟨g₁, child, hchild, hg₁, hflatten, -⟩ | hrefused
      · rw [hchild]
        rcases exists_buildAll ts hvs hts hg₁ with ⟨g₂, children, hchildren, hg₂, hflattens⟩ | hrefused
        · refine .inl ⟨g₂, child :: children, ?_, hg₂, ?_⟩
          · exact Logged.bind_eq_ok.mpr ⟨_, rfl, Logged.bind_eq_ok.mpr ⟨_, hchildren, rfl⟩⟩
          rw [Builder.flatten, hflatten, hflattens]
          rfl
        · refine .inr ⟨Logged.bind_eq_error.mpr (.inr ⟨_, rfl, ?_⟩), hrefused.element⟩
          exact Logged.bind_eq_error.mpr (.inl hrefused.error)
      · exact .inr ⟨Logged.bind_eq_error.mpr (.inl hrefused.error),
          (hrefused.extend (extendedBy_plantAll ts _)).element⟩

end

/-! ### The records -/

variable {g : Graph} {root doc : Value}

mutual

theorem isPlain_of_isJson : ∀ v : Value, v.isJson number = true → v.isPlain = true
  | .null, _ => rfl
  | .bool _, _ => rfl
  | .int _, _ => rfl
  | .float _, _ => rfl
  | .str _, _ => rfl
  | .list items, h => allPlain_of_allJson items (by simpa [Value.isJson] using h)
  | .dict members, h => by
    have hmembers : Value.allMembersJson number members = true := by
      simp only [Value.isJson, Bool.and_eq_true] at h
      exact h.2
    exact allMembersPlain_of_allMembersJson members hmembers
  | .tuple _, h => by simp [Value.isJson] at h
  | .wrapped _ _, h => by simp [Value.isJson] at h
  | .action _ _, h => by simp [Value.isJson] at h
  | .page _ _, h => by simp [Value.isJson] at h
  | .style _ _ _, h => by simp [Value.isJson] at h
  | .fragment, h => by simp [Value.isJson] at h
  | .component _, h => by simp [Value.isJson] at h
  | .element _, h => by simp [Value.isJson] at h

theorem allPlain_of_allJson : ∀ vs : List Value, Value.allJson number vs = true → Value.allPlain vs = true
  | [], _ => rfl
  | v :: rest, h => by
    obtain ⟨hv, hrest⟩ : v.isJson number = true ∧ Value.allJson number rest = true := by
      simpa [Value.allJson] using h
    rw [Value.allPlain, isPlain_of_isJson v hv, allPlain_of_allJson rest hrest]
    rfl

theorem allMembersPlain_of_allMembersJson : ∀ ms : List (String × Value),
    Value.allMembersJson number ms = true → Value.allMembersPlain ms = true
  | [], _ => rfl
  | (name, v) :: rest, h => by
    obtain ⟨hv, hrest⟩ : v.isJson number = true ∧ Value.allMembersJson number rest = true := by
      simpa [Value.allMembersJson] using h
    rw [Value.allMembersPlain, isPlain_of_isJson v hv, allMembersPlain_of_allMembersJson rest hrest]
    rfl

end

theorem isPlain_of_isTyped {v : Value} (hv : v.IsTyped) : v.isPlain = true := by
  cases hv with
  | action args code =>
    have hargs : Value.allPlain (args.map .str) = true := by
      induction args with
      | nil => rfl
      | cons a args ih => exact ih
    simp [Value.isPlain, hargs]
  | _ => rfl

/-- The texts that the elements of a document show name no element. -/
theorem plainlyNamed_of_loadInto {g₀ : Graph} (hdoc : doc.isJson number = true)
    (hload : Document.loadInto g₀ doc = .ok (g, root)) : PlainlyNamed g root := by
  obtain ⟨t, hloads, ht, hplant⟩ := exists_sound_of_loadInto hdoc hload
  obtain ⟨hs, hac⟩ := stands_of_plant ht hplant
  have hmade := madeOf_of_loads t hloads hdoc hs hac.grounded
  rw [← firstVisits_eq_listing ht hplant] at hmade
  intro h e hh he
  obtain ⟨members, -, hmember⟩ := exists_of_mem_forall₂ hmade ((mem_firstVisits hac).mpr hh)
  obtain ⟨e', name, he', hname, -⟩ := hmember.component
  obtain rfl := Option.some.inj (he'.symm.trans he)
  refine ⟨by rw [hname]; rfl, fun a ha _ => ?_⟩
  rcases (sound_of_reaches t hs ht hh.1 he).props.values a ha with hv | hv
  · exact isPlain_of_isJson a.2 hv
  · exact isPlain_of_isTyped hv

/-- The elements give what the nodes of a document give as children in their attributes. -/
theorem attributeReferences_of_loadInto {g₀ : Graph} (hdoc : doc.isJson number = true)
    (hload : Document.loadInto g₀ doc = .ok (g, root)) :
    (g.firstVisits root).map (fun h => Builder.attributeReferences (g.attributesAt h)) =
      (nodes doc).map Document.attributeReferences := by
  obtain ⟨t, hloads, ht, hplant⟩ := exists_sound_of_loadInto hdoc hload
  obtain ⟨hs, hac⟩ := stands_of_plant ht hplant
  have hmade := madeOf_of_loads t hloads hdoc hs hac.grounded
  rw [← firstVisits_eq_listing ht hplant] at hmade
  generalize nodes doc = members, g.firstVisits root = visits at hmade ⊢
  induction hmade with
  | nil => rfl
  | cons hmember _ ih =>
    rw [List.map_cons, List.map_cons, ih, Document.attributeReferences, hmember.props]

/-- **Builder and loader.**  A document that is accepted can be built, unless a number among the children that a node
gives in its attributes has too many digits.  What is built has the records of what is loaded, but each instance
refers to the leaves that its node gives as children in its attributes, too.  So the outcomes are the same exactly if
there is none of these, or if there are no records at all, since two nodes ask for the same id or an id has a number
with too many digits. -/
theorem built_restores (hdoc : doc.isDocument = true) (hload : Document.loadInto .empty doc = .ok (g, root)) :
    ((∀ h e, g.find? h = some e → ∃ more, attributeChildren e.props = .ok more) ∧
      ∃ g', build doc .empty = .ok (g', root) ∧
        (normalize g' root).outcome =
          (normalize g root).outcome.map (·.withMore ((nodes doc).map Document.attributeReferences)) ∧
        ((normalize g' root).outcome = (normalize g root).outcome ↔
          (∃ failure, (normalize g root).outcome = .error failure) ∨
            ∀ members ∈ nodes doc, Document.attributeReferences members = [])) ∨
    build doc .empty = .error .tooManyDigits ∧ doc.isShortDocument = false ∧
      ∃ h e, g.find? h = some e ∧ attributeChildren e.props = .error ⟨⟩ := by
  obtain ⟨t, hloads, ht, hplant⟩ := exists_sound_of_loadInto hdoc hload
  obtain ⟨-, hac⟩ := stands_of_plant ht hplant
  have hempty : Graph.GrownTo .empty .empty := ⟨rfl, fun h => by simp [Graph.find?, Graph.empty]⟩
  rcases exists_build t hloads ht hempty with hbuilt | ⟨herror, h, e, he, -, hmore⟩
  · obtain ⟨g', v, hbuilt, hgrown, -, hsame⟩ := hbuilt
    rw [hplant] at hgrown hsame
    refine .inl ⟨fun h e he => ?_, ?_⟩
    · obtain ⟨e', -, hgrowth⟩ := hgrown.exists_find? he
      obtain ⟨more, hmore, -⟩ := hgrowth.children
      exact ⟨more, hmore⟩
    have hrefs := attributeReferences_of_loadInto hdoc hload
    obtain ⟨k, -, hk, -⟩ := exists_element_of_loadInto hload
    have hroot : v = root := hsame (by rw [hk]; rfl)
    have houtcome := hgrown.outcome_normalize hac (plainlyNamed_of_loadInto hdoc hload)
    rw [hrefs] at houtcome
    refine ⟨g', hroot ▸ hbuilt, houtcome, ?_⟩
    rw [houtcome]
    cases hok : (normalize g root).outcome with
    | error failure => simp [Except.map]
    | ok f =>
      have hlength : f.instances.length = ((nodes doc).map Document.attributeReferences).length := by
        rw [instances_of_normalize hac hok, ← hrefs, List.length_map, List.length_map]
      simp [Except.map, DocumentFragment.withMore_eq_self hlength]
  · rw [hplant] at he
    refine .inr ⟨herror, ?_, h, e, he, hmore⟩
    by_contra hshort
    have hshort : doc.isShortDocument = true := by simpa using hshort
    obtain ⟨t, hloads, ht, -⟩ := exists_sound_of_loadInto hshort hload
    rcases exists_build t hloads ht hempty with ⟨g', v, hbuilt, -⟩ | ⟨-, h, e, -, hprops, hnone⟩
    · cases hbuilt.symm.trans herror
    · obtain ⟨more, hmore⟩ := exists_attributeChildren hprops
      cases hmore.symm.trans hnone

end Build

/-- A box that gives its text as an attribute. -/
def boxWithChildrenAttribute : Value := .dict
  [("component", .str "Box"), ("props", .dict [("children", .str "x")])]

/-- The text of the box is in the records of what is built, and not in those of what is loaded. -/
theorem built_restores_boxWithChildrenAttribute : boxWithChildrenAttribute.isDocument = true ∧ ∃ g root g' f,
    Document.loadInto .empty boxWithChildrenAttribute = .ok (g, root) ∧
      Builder.build boxWithChildrenAttribute .empty = .ok (g', root) ∧ (normalize g root).outcome = .ok f ∧
        (normalize g' root).outcome = .ok (f.withMore [[.text "x" none]]) ∧
          (normalize g' root).outcome ≠ (normalize g root).outcome := by
  have hdoc : boxWithChildrenAttribute.isDocument = true := by decide +kernel
  obtain ⟨g, root, f, hload, hok⟩ := exists_rendered boxWithChildrenAttribute (by decide +kernel)
  rcases built_restores hdoc hload with ⟨-, g', hbuilt, houtcome, hsame⟩ | ⟨-, hlong, -⟩
  swap
  · exact absurd hlong (by decide +kernel)
  have hrefs : (nodes boxWithChildrenAttribute).map Document.attributeReferences = [[.text "x" none]] := rfl
  rw [hrefs, hok] at houtcome
  refine ⟨hdoc, g, root, g', f, hload, hbuilt, hok, houtcome, fun heq => ?_⟩
  rcases hsame.mp heq with ⟨d, herror⟩ | hnone
  · simp [hok] at herror
  · have hmem : [Child.text "x" none] ∈ (nodes boxWithChildrenAttribute).map Document.attributeReferences := by
      simp [hrefs]
    obtain ⟨members, hmembers, hx⟩ := List.mem_map.mp hmem
    simp [hnone members hmembers] at hx

/-- So builder and loader do not agree on every document that is accepted. -/
theorem not_built_eq_loaded : ¬ ∀ (doc : Value) (g : Graph) (root : Value), doc.isDocument = true →
    Document.loadInto .empty doc = .ok (g, root) → ∃ g' root', Builder.build doc .empty = .ok (g', root') ∧
      (normalize g' root').outcome = (normalize g root).outcome := by
  intro h
  have hload : Document.loadInto .empty boxWithChildrenAttribute =
      .ok (⟨#[⟨.str "Box", [("children", .str "x")], []⟩]⟩, .element ⟨0⟩) := rfl
  have hbuild : Builder.build boxWithChildrenAttribute .empty =
      .ok (⟨#[⟨.str "Box", [], [.str "x"]⟩]⟩, .element ⟨0⟩) := rfl
  obtain ⟨g', root', hbuilt, hsame⟩ := h _ _ _ (by decide +kernel) hload
  obtain ⟨rfl, rfl⟩ := Prod.mk.inj (Except.ok.inj (hbuild.symm.trans hbuilt))
  have hchildren := congrArg (fun r => r.toOption.map fun f => f.instances.map (·.children.length)) hsame
  revert hchildren
  decide +kernel

end ViewGraph
