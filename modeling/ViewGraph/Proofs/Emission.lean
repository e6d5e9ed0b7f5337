import ViewGraph.Proofs.Run

/-!
# The order of the records

Every collection of the records is the concatenation of what the elements below the root contribute,
in the order of their first visits.

* `IsInstanceOf`, `propsOf`, `sourcesOf`, `selectionsOf`, `stylesOf`: what one element contributes, once
  the id of every element is known.
* `Emitted root f idOf`: each collection of `f` is made of these contributions.
* `contributes_of_normalize`: the records are those of blocks, one for each element, and a block is what its
  element contributes.
* `exists_emitted`: this is so for the records of every graph that has records.
-/

namespace ViewGraph

open ViewGraph.Graph

/-! ### Definitions -/

section Defs

variable (g : Graph) (idOf : Handle → String) (h : Handle)

/-- The attributes of the element at a handle. -/
def Graph.attributesAt : List (String × Value) := (g.find? h).elim [] (·.props)

/-- The attributes with records of their own, in the order in which they were written. -/
def Graph.plainAttributes : List (String × Value) :=
  (g.attributesAt h).filter fun a => !isReserved a.1 && a.1 ≠ Element.styleAttribute

/-- The values of the style attribute: none or one. -/
def Graph.styleAttributes : List Value :=
  ((g.attributesAt h).filter fun a => a.1 = Element.styleAttribute).map (·.2)

/-- `i` is the instance of the element: it has its id, shows it, and refers to its spliced children. -/
def IsInstanceOf (i : Instance) : Prop :=
  i.id = idOf h ∧ ∃ e, g.find? h = some e ∧ g.text e.component = .ok i.component ∧
    g.label? e = .ok i.label ∧ (g.spliced e.children).mapM (referenceTo idOf) = .ok i.children

/-- The records of the attributes of an element. -/
def propsOf : Except Failure (List PropRecord) :=
  (g.plainAttributes h).mapM fun a => (createProp g.text (.str (idOf h)) (.str a.1) a.2).outcome

/-- The style source of an element, if it has a style attribute. -/
def sourcesOf : List StyleSource := (g.styleAttributes h).map fun _ => ⟨styleSourceId (idOf h)⟩

/-- The selection of the style source of an element, if it has a style attribute. -/
def selectionsOf : List StyleSourceSelection :=
  (g.styleAttributes h).map fun _ => ⟨idOf h, [styleSourceId (idOf h)]⟩

/-- The declarations in the style attribute of an element. -/
def stylesOf : Except Failure (List StyleDecl) := do
  let dss ← (g.styleAttributes h).mapM declarations
  return dss.flatten.map (·.toStyle (styleSourceId (idOf h)))

end Defs

/-- Some records are made of what the elements below a root contribute, in the order of their first
visits. Each of these elements contributes once. -/
structure Emitted (g : Graph) (root : Value) (f : DocumentFragment) (idOf : Handle → String) : Prop where
  complete : ∀ h, h ∈ g.firstVisits root ↔ g.HasInstance root h
  once : (g.firstVisits root).Nodup
  instances : List.Forall₂ (IsInstanceOf g idOf) (g.firstVisits root) f.instances
  props : ((g.firstVisits root).mapM (propsOf g idOf)).map List.flatten = .ok f.props
  styleSources : f.styleSources = (g.firstVisits root).flatMap (sourcesOf g idOf)
  styleSourceSelections : f.styleSourceSelections = (g.firstVisits root).flatMap (selectionsOf g idOf)
  styles : ((g.firstVisits root).mapM (stylesOf g idOf)).map List.flatten = .ok f.styles

/-! ### What one element contributes -/

theorem ne_style_of_isReserved {name : String} (h : isReserved name = true) :
    name ≠ Element.styleAttribute := by
  rintro rfl
  revert h
  decide

/-- The style attribute is one at most. -/
theorem styleAttributes_eq {props : List (String × Value)} (hnd : (props.map (·.1)).Nodup) :
    (props.filter fun a => a.1 = Element.styleAttribute).map (·.2) =
      (Table.find? Element.styleAttribute props).toList := by
  induction props with
  | nil => rfl
  | cons a rest ih =>
    obtain ⟨name, v⟩ := a
    obtain ⟨hname, hrest⟩ := List.nodup_cons.mp hnd
    rw [Table.find?_cons]
    by_cases h : Element.styleAttribute = name
    · subst h
      have hnone : Table.find? Element.styleAttribute rest = none := Table.find?_eq_none_iff.mpr hname
      rw [hnone, List.filter_cons_of_pos (by simp), List.map_cons, ih hrest, hnone, if_pos rfl]
      rfl
    · have h' : ¬ name = Element.styleAttribute := fun heq => h heq.symm
      rw [if_neg h, List.filter_cons_of_neg (by simpa using h'), ih hrest]

theorem attributeRecords_eq_ok {g : Graph} {id : String} {attributes : List (String × Value)}
    {props : List PropRecord} {styles : List (List Declaration)}
    (h : attributeRecords g id attributes = .ok (props, styles)) :
    (attributes.filter fun a => !isReserved a.1 && a.1 ≠ Element.styleAttribute).mapM
        (fun a => (createProp g.text (.str id) (.str a.1) a.2).outcome) = .ok props ∧
      ((attributes.filter fun a => a.1 = Element.styleAttribute).map (·.2)).mapM declarations =
        .ok styles := by
  induction attributes generalizing props styles with
  | nil =>
    obtain ⟨rfl, rfl⟩ := Prod.mk.inj (Except.ok.inj h)
    exact ⟨rfl, rfl⟩
  | cons a rest ih =>
    obtain ⟨name, v⟩ := a
    unfold attributeRecords at h
    split_ifs at h with hr hs
    · have hne := ne_style_of_isReserved hr
      simpa [hr, hne] using ih h
    · obtain ⟨ds, hds, h⟩ := Logged.bind_eq_ok.mp h
      obtain ⟨⟨ps, dss⟩, hrest, h⟩ := Logged.bind_eq_ok.mp h
      obtain ⟨rfl, rfl⟩ := Prod.mk.inj (Except.ok.inj h)
      obtain ⟨hprops, hstyles⟩ := ih hrest
      refine ⟨by simpa [hs] using hprops, ?_⟩
      rw [List.filter_cons_of_pos (by simp [hs]), List.map_cons, List.mapM_cons, hds, hstyles]
      rfl
    · obtain ⟨p, hp, h⟩ := Logged.bind_eq_ok.mp h
      obtain ⟨⟨ps, dss⟩, hrest, h⟩ := Logged.bind_eq_ok.mp h
      obtain ⟨rfl, rfl⟩ := Prod.mk.inj (Except.ok.inj h)
      obtain ⟨hprops, hstyles⟩ := ih hrest
      refine ⟨?_, by simpa [hs] using hstyles⟩
      rw [List.filter_cons_of_pos (by simp [hr, hs]), List.mapM_cons, hp, hprops]
      rfl

variable {g : Graph} {root : Value}

variable (g root) in
/-- A block is what an element contributes. -/
structure Contributes (h : Handle) (b : Block) : Prop where
  inst : IsInstanceOf g (g.idOf root) h b.inst
  id : b.inst.id = g.idOf root h
  props : propsOf g (g.idOf root) h = .ok b.props
  styles : (g.styleAttributes h).mapM declarations = .ok b.styles

theorem contributes_of_blockAt {h : Handle} {b : Block} (hc : g.Concrete h)
    (hb : g.blockAt root h = .ok b) : Contributes g root h b := by
  obtain ⟨e, he, -⟩ := hc
  obtain ⟨hattributes, hid, hinst⟩ := blockAt_eq_ok he hb
  obtain ⟨hprops, hstyles⟩ := attributeRecords_eq_ok hattributes
  have hat : g.attributesAt h = e.props := by simp [attributesAt, he]
  refine ⟨⟨hid, e, he, hinst⟩, hid, ?_, ?_⟩
  · rw [propsOf, plainAttributes, hat]
    exact hprops
  · rw [styleAttributes, hat]
    exact hstyles

/-- What is said once for each style attribute is said once for each block of declarations. -/
theorem map_const_of_mapM {α β γ ε : Type} {F : α → Except ε β} {l : List α} {bs : List β}
    (h : l.mapM F = .ok bs) (c : γ) : (l.map fun _ => c) = bs.map fun _ => c := by
  rw [List.map_const', List.map_const', (mapM_eq_ok.mp h).length_eq]

namespace Contributes

variable {h : Handle} {b : Block} (hc : Contributes g root h b)

include hc

theorem sources : sourcesOf g (g.idOf root) h = b.styles.map fun _ => ⟨styleSourceId b.inst.id⟩ := by
  rw [sourcesOf, map_const_of_mapM hc.styles, hc.id]

theorem selections : selectionsOf g (g.idOf root) h =
    b.styles.map fun _ => ⟨b.inst.id, [styleSourceId b.inst.id]⟩ := by
  rw [selectionsOf, map_const_of_mapM hc.styles, hc.id]

theorem decls : stylesOf g (g.idOf root) h =
    .ok (b.styles.flatMap fun ds => ds.map (·.toStyle (styleSourceId b.inst.id))) := by
  rw [stylesOf, hc.styles, hc.id, List.flatMap_def, ← List.map_flatten]
  rfl

end Contributes

/-! ### What all of them contribute -/

theorem flatten_mapM_of_forall₂ {α β γ ε : Type} {F : α → Except ε (List γ)} {G : β → List γ} {l : List α}
    {bs : List β} (h : List.Forall₂ (fun a b => F a = .ok (G b)) l bs) :
    (l.mapM F).map List.flatten = .ok (bs.flatMap G) := by
  have hok : l.mapM F = .ok (bs.map G) := mapM_eq_ok.mpr (List.forall₂_map_right_iff.mpr h)
  rw [hok]
  rfl

theorem flatMap_eq_of_forall₂ {α β γ : Type} {F : α → List γ} {G : β → List γ} {l : List α} {bs : List β}
    (h : List.Forall₂ (fun a b => F a = G b) l bs) : l.flatMap F = bs.flatMap G := by
  induction h with
  | nil => rfl
  | cons hab _ ih => rw [List.flatMap_cons, List.flatMap_cons, hab, ih]

/-- What stands on the right is related to something on the left. -/
theorem exists_of_mem_forall₂ {α β : Type} {R : α → β → Prop} {l : List α} {bs : List β}
    (h : List.Forall₂ R l bs) {b : β} (hb : b ∈ bs) : ∃ a ∈ l, R a b := by
  induction h with
  | nil => exact absurd hb List.not_mem_nil
  | @cons a b' l bs hab _ ih =>
    rcases List.mem_cons.mp hb with rfl | hb
    · exact ⟨a, by simp, hab⟩
    · obtain ⟨a', ha', hab'⟩ := ih hb
      exact ⟨a', List.mem_cons_of_mem _ ha', hab'⟩

theorem forall₂_comp {α β γ : Type} {R : α → β → Prop} {S : β → γ → Prop} {l : List α} {m : List β}
    {n : List γ} (hR : List.Forall₂ R l m) (hS : List.Forall₂ S m n) :
    List.Forall₂ (Relation.Comp R S) l n := by
  induction hR generalizing n with
  | nil =>
    cases hS
    exact .nil
  | cons hab _ ih =>
    cases hS with
    | cons hbc hS => exact .cons ⟨_, hab, hbc⟩ (ih hS)

/-- The records are those of the blocks that the elements below the root contribute. -/
theorem contributes_of_normalize {f : DocumentFragment} (hac : g.Acyclic root)
    (hok : (normalize g root).outcome = .ok f) :
    ∃ blocks, List.Forall₂ (Contributes g root) (g.firstVisits root) blocks ∧
      f = { DocumentFragment.ofBlocks blocks with
        children := g.refsTo root (g.structural [root]) } := by
  obtain ⟨blocks, hblocks, hf⟩ := normalize_eq_ok hac hok
  have hconcrete : ∀ h ∈ g.firstVisits root, g.Concrete h := fun h hh => ((mem_firstVisits hac).mp hh).2
  have hboth := (List.forall₂_and_left _ _).mpr ⟨hconcrete, hblocks⟩
  exact ⟨blocks, hboth.imp fun h b hhb => contributes_of_blockAt hhb.1 hhb.2, hf⟩

/-- **Emission.** If there are records, then each collection of them is the concatenation of what the
elements below the root contribute, in the order of their first visits. -/
theorem exists_emitted {f : DocumentFragment} (hac : g.Acyclic root)
    (hok : (normalize g root).outcome = .ok f) : ∃ idOf, Emitted g root f idOf := by
  obtain ⟨blocks, hblocks, rfl⟩ := normalize_eq_ok hac hok
  have hall : List.Forall₂ (Contributes g root) (g.firstVisits root) blocks := by
    have hconcrete : ∀ h ∈ g.firstVisits root, g.Concrete h :=
      fun h hh => ((mem_firstVisits hac).mp hh).2
    have hboth := (List.forall₂_and_left _ _).mpr ⟨hconcrete, hblocks⟩
    exact hboth.imp fun h b hhb => contributes_of_blockAt hhb.1 hhb.2
  exact ⟨g.idOf root,
    { complete := fun h => mem_firstVisits hac
      once := nodup_firstVisits root
      instances := List.forall₂_map_right_iff.mpr (hall.imp fun h b hc => hc.inst)
      props := flatten_mapM_of_forall₂ (hall.imp fun h b hc => hc.props)
      styleSources := by
        rw [flatMap_eq_of_forall₂ (hall.imp fun h b hc => hc.sources)]
        simp only [DocumentFragment.ofBlocks, DocumentFragment.ofParts, List.map_flatMap, List.map_map]
        rfl
      styleSourceSelections := by
        rw [flatMap_eq_of_forall₂ (hall.imp fun h b hc => hc.selections)]
        simp only [DocumentFragment.ofBlocks, DocumentFragment.ofParts, List.map_flatMap, List.map_map]
        rfl
      styles := by
        rw [flatten_mapM_of_forall₂ (hall.imp fun h b hc => hc.decls)]
        simp only [DocumentFragment.ofBlocks, DocumentFragment.ofParts, List.flatMap_assoc,
          List.flatMap_map] }⟩

theorem exists_emitted_sharedGraph : ∃ f, sharedGraph.Acyclic sharedRoot ∧
    (normalize sharedGraph sharedRoot).outcome = .ok f ∧ f.equals sharedRecords = true ∧
      ∃ idOf, Emitted sharedGraph sharedRoot f idOf := by
  obtain ⟨f, hok, hsame⟩ := normalize_sharedGraph
  exact ⟨f, acyclic_sharedGraph, hok, hsame, exists_emitted acyclic_sharedGraph hok⟩

end ViewGraph
