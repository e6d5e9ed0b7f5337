import ViewGraph.Proofs.Run

/-!
# What the records depend on

The records of a graph depend on little of it: on the elements below the root that are no fragments, in
the order of their first visits, and on their attributes, their spliced children and the texts that they
show.

* `SameTexts g g' root`: the elements below the root show the same texts in both graphs.
* `Graph.SameShape g g'`: the graphs are the same but for the attributes.
* `SameLinks g g' root`: the same elements are met in both graphs, linked to each other, and ask for the same
  ids.  `SameLinks.idOf`: then they have the same ids.  `SameShape.sameLinks`: so it is in graphs of the same
  shape.
* `SameWalk g g' root`: they show the same texts too.
* `Agree g g' root`: two graphs agree on all that matters.
* `Agree.outcome_normalize`: then the outcomes are the same.
-/

namespace ViewGraph

open ViewGraph.Graph

/-! ### Definitions -/

/-- The elements below a root ask for the same ids in two graphs, give themselves the same labels, and
show the same component. What has no text in one graph has none in the other. -/
def SameTexts (g g' : Graph) (root : Value) : Prop :=
  ∀ h e e', g.HasInstance root h → g.find? h = some e → g'.find? h = some e' →
    g'.explicitId? e' = g.explicitId? e ∧ g'.label? e' = g.label? e ∧
      g'.text e'.component = g.text e.component

/-- What an element is without its attributes. -/
def Element.shape (e : Element) : Value × List Value := (e.component, e.children)

/-- Two graphs have the same elements, but for their attributes. -/
structure Graph.SameShape (g g' : Graph) : Prop where
  size : g'.nodes.size = g.nodes.size
  shape : ∀ h, (g'.find? h).map Element.shape = (g.find? h).map Element.shape

/-- The walks below a root meet the same elements in two graphs, which are linked in the same way and ask for
the same ids. -/
structure SameLinks (g g' : Graph) (root : Value) : Prop where
  acyclic : g.Acyclic root
  acyclic' : g'.Acyclic root
  top : g'.structural [root] = g.structural [root]
  visits : g'.firstVisits root = g.firstVisits root
  linked : ∀ h, g.HasInstance root h → g'.linked h = g.linked h
  wantedId? : ∀ h, g.HasInstance root h → g'.wantedId? h = g.wantedId? h

/-- The walks below a root meet the same elements in two graphs, which are linked in the same way and show the
same texts. -/
structure SameWalk (g g' : Graph) (root : Value) : Prop where
  acyclic : g.Acyclic root
  acyclic' : g'.Acyclic root
  top : g'.structural [root] = g.structural [root]
  visits : g'.firstVisits root = g.firstVisits root
  find? : ∀ h e, g.HasInstance root h → g.find? h = some e →
    ∃ e', g'.find? h = some e' ∧ g'.structural e'.children = g.structural e.children
  texts : SameTexts g g' root

/-- Two graphs agree on all below a root that matters for its records. -/
structure Agree (g g' : Graph) (root : Value) : Prop where
  acyclic : g.Acyclic root
  acyclic' : g'.Acyclic root
  top : g'.structural [root] = g.structural [root]
  visits : g'.firstVisits root = g.firstVisits root
  find? : ∀ h e, g.HasInstance root h → g.find? h = some e →
    ∃ e', g'.find? h = some e' ∧ e'.props = e.props ∧ g'.spliced e'.children = g.spliced e.children
  texts : SameTexts g g' root

/-! ### Lists of computations on the same items -/

theorem mapM_congr {α β ε : Type} {F G : α → Except ε β} {l : List α} (h : ∀ a ∈ l, F a = G a) :
    l.mapM F = l.mapM G := by
  induction l with
  | nil => rfl
  | cons a l ih =>
    rw [List.mapM_cons, List.mapM_cons, h a (by simp), ih fun b hb => h b (List.mem_cons_of_mem _ hb)]

/-- The record of an attribute shows no text but those of its id and its name. -/
theorem createProp_congr {text text' : Value → Shown String} {instanceId name : Value}
    (hid : text' instanceId = text instanceId) (hname : text' name = text name) (v : Value) :
    (createProp text' instanceId name v).outcome = (createProp text instanceId name v).outcome := by
  unfold createProp
  simp only [Logged.outcome_bind, Logged.outcome_tell, hid, hname]

/-- The records of attributes do not depend on the graph. -/
theorem attributeRecords_congr (g g' : Graph) (id : String) (attributes : List (String × Value)) :
    attributeRecords g' id attributes = attributeRecords g id attributes := by
  have htext : ∀ s, g'.text (.str s) = g.text (.str s) :=
    fun s => (text_str g' s).trans (text_str g s).symm
  induction attributes with
  | nil => rfl
  | cons a rest ih =>
    obtain ⟨name, v⟩ := a
    unfold attributeRecords
    rw [ih, createProp_congr (htext id) (htext name)]

/-! ### Graphs of the same shape -/

namespace Graph.SameShape

variable {g g' : Graph}

theorem symm (hs : g.SameShape g') : g'.SameShape g := ⟨hs.size.symm, fun h => (hs.shape h).symm⟩

variable (hs : g.SameShape g')

include hs

theorem exists_find? {h : Handle} {e : Element} (he : g.find? h = some e) :
    ∃ e', g'.find? h = some e' ∧ e'.component = e.component ∧ e'.children = e.children := by
  have hshape := hs.shape h
  rw [he, Option.map_some, Option.map_eq_some_iff] at hshape
  obtain ⟨e', he', heq⟩ := hshape
  exact ⟨e', he', Prod.mk.inj heq⟩

theorem depth : g'.depth = g.depth := by
  rw [Graph.depth, Graph.depth, hs.size]

theorem roleOf_concrete {v : Value} {h : Handle} {e : Element} (hr : g.roleOf v = .concrete h e) :
    ∃ e', g'.roleOf v = .concrete h e' ∧ e'.children = e.children := by
  obtain ⟨rfl, he, hf⟩ := roleOf_eq_concrete.mp hr
  obtain ⟨e', he', hcomponent, hchildren⟩ := hs.exists_find? he
  refine ⟨e', roleOf_eq_concrete.mpr ⟨rfl, he', ?_⟩, hchildren⟩
  rwa [Element.isFragment, hcomponent]

theorem roleOf_fragment {v : Value} {cs : List Value} (hr : g.roleOf v = .fragment cs) :
    g'.roleOf v = .fragment cs := by
  obtain ⟨h, e, rfl, he, hf, rfl⟩ := roleOf_eq_fragment hr
  obtain ⟨e', he', hcomponent, hchildren⟩ := hs.exists_find? he
  have hf' : e'.isFragment = true := by rwa [Element.isFragment, hcomponent]
  rw [roleOf_element he', if_pos hf', hchildren]

theorem roleOf_unsupported {v : Value} (hr : g.roleOf v = .unsupported) : g'.roleOf v = .unsupported := by
  cases hr' : g'.roleOf v with
  | leaf l => simp [roleOf_eq_leaf.mpr (roleOf_eq_leaf.mp hr')] at hr
  | fragment cs => simp [hs.symm.roleOf_fragment hr'] at hr
  | concrete h e =>
    obtain ⟨e', he', -⟩ := hs.symm.roleOf_concrete hr'
    simp [he'] at hr
  | unsupported => rfl

theorem splicedUpTo (n : ℕ) (vs : List Value) : g'.splicedUpTo n vs = g.splicedUpTo n vs := by
  induction n generalizing vs with
  | zero => rfl
  | succ n ih =>
    refine List.flatMap_congr fun v _ => ?_
    cases hr : g.roleOf v with
    | leaf l => simp only [roleOf_eq_leaf.mpr (roleOf_eq_leaf.mp hr)]
    | fragment cs => simp only [hs.roleOf_fragment hr, ih]
    | concrete h e =>
      obtain ⟨e', hr', -⟩ := hs.roleOf_concrete hr
      simp only [hr']
    | unsupported => simp only [hs.roleOf_unsupported hr]

theorem listingUpTo (n : ℕ) (vs : List Value) : g'.listingUpTo n vs = g.listingUpTo n vs := by
  induction n generalizing vs with
  | zero => rfl
  | succ n ih =>
    refine List.flatMap_congr fun v _ => ?_
    cases hr : g.roleOf v with
    | leaf l => simp only [roleOf_eq_leaf.mpr (roleOf_eq_leaf.mp hr)]
    | fragment cs => simp only [hs.roleOf_fragment hr, ih]
    | concrete h e =>
      obtain ⟨e', hr', hchildren⟩ := hs.roleOf_concrete hr
      simp only [hr', hchildren, ih]
    | unsupported => simp only [hs.roleOf_unsupported hr]

theorem spliced (vs : List Value) : g'.spliced vs = g.spliced vs := by
  rw [Graph.spliced, Graph.spliced, hs.depth, hs.splicedUpTo]

theorem structural (vs : List Value) : g'.structural vs = g.structural vs := by
  rw [Graph.structural, Graph.structural, hs.spliced]

theorem firstVisits (root : Value) : g'.firstVisits root = g.firstVisits root := by
  rw [Graph.firstVisits, Graph.firstVisits, listing, listing, hs.depth, hs.listingUpTo]

theorem nested {n : ℕ} {vs : List Value} (hn : g.Nested n vs) : g'.Nested n vs := by
  induction n generalizing vs with
  | zero => exact hn.elim
  | succ n ih =>
    intro k e' hk he'
    obtain ⟨e, he, -, hchildren⟩ := hs.symm.exists_find? he'
    rw [← hchildren]
    exact ih (hn k e hk he)

theorem acyclic {root : Value} (hac : g.Acyclic root) : g'.Acyclic root :=
  acyclic_of_nested (hs.nested hac.grounded)

/-- The same elements are met and linked in both graphs. -/
theorem sameLinks {root : Value} (hac : g.Acyclic root)
    (hids : ∀ h, g.HasInstance root h → g'.wantedId? h = g.wantedId? h) : SameLinks g g' root where
  acyclic := hac
  acyclic' := hs.acyclic hac
  top := hs.structural [root]
  visits := hs.firstVisits root
  linked := fun h hh => by
    obtain ⟨e, he, -⟩ := hh.2
    obtain ⟨e', he', -, hchildren⟩ := hs.exists_find? he
    rw [linked_of_find? he, linked_of_find? he', hchildren, hs.structural]
  wantedId? := hids

end Graph.SameShape

/-! ### The ids of the elements -/

namespace SameLinks

variable {g g' : Graph} {root : Value} (hl : SameLinks g g' root)

include hl

theorem hasInstance {h : Handle} (hh : g.HasInstance root h) : g'.HasInstance root h := by
  rw [← mem_firstVisits hl.acyclic', hl.visits]
  exact (mem_firstVisits hl.acyclic).mpr hh

theorem claimedIds : g'.claimedIds root = g.claimedIds root := by
  rw [Graph.claimedIds, Graph.claimedIds, hl.visits]
  exact List.filterMap_congr fun h hh => hl.wantedId? h ((mem_firstVisits hl.acyclic).mp hh)

theorem resolutions : g'.resolutions (g'.firstVisits root) = g.resolutions (g.firstVisits root) := by
  rw [hl.visits]
  refine List.flatMap_congr fun h hh => ?_
  rw [hl.linked h ((mem_firstVisits hl.acyclic).mp hh)]

theorem idOf {h : Handle} (hh : h ∈ g.firstVisits root) : g'.idOf root h = g.idOf root h := by
  have hunnamed : Allocator.unnamed g'.wantedId? (g.resolutions (g.firstVisits root)) =
      Allocator.unnamed g.wantedId? (g.resolutions (g.firstVisits root)) := by
    refine List.filter_congr fun k hk => ?_
    have hk := mem_firstVisits_of_mem_resolutions hl.acyclic (List.mem_eraseDups.mp hk)
    rw [hl.wantedId? k ((mem_firstVisits hl.acyclic).mp hk)]
  have hwanted := hl.wantedId? h ((mem_firstVisits hl.acyclic).mp hh)
  simp only [Graph.idOf, Allocator.idIn, hl.claimedIds, hl.resolutions, hwanted, hunnamed]

theorem referenceTo {vs : List Value} (hvs : g.structural vs ⊆ g.firstVisits root) :
    (g.spliced vs).mapM (ViewGraph.referenceTo (g'.idOf root)) =
      (g.spliced vs).mapM (ViewGraph.referenceTo (g.idOf root)) := by
  refine mapM_congr fun v hv => ?_
  unfold ViewGraph.referenceTo
  rcases role_of_mem_spliced hv with hleaf | ⟨h, e, hr⟩
  · obtain ⟨l, hleaf⟩ := Option.isSome_iff_exists.mp hleaf
    rw [hleaf]
  · obtain ⟨rfl, -, -⟩ := roleOf_eq_concrete.mp hr
    have hh : h ∈ g.firstVisits root := hvs (List.mem_filterMap.mpr ⟨.element h, hv, rfl⟩)
    show Except.ok (Child.id (g'.idOf root h)) = Except.ok (Child.id (g.idOf root h))
    rw [hl.idOf hh]

theorem refsTo_top :
    g'.refsTo root (g'.structural [root]) = g.refsTo root (g.structural [root]) := by
  rw [hl.top]
  refine List.map_congr_left fun h hh => ?_
  have hi := (mem_listing hl.acyclic.grounded).mp (structural_subset_listing hl.acyclic.grounded hh)
  rw [hl.idOf ((mem_firstVisits hl.acyclic).mpr hi)]

end SameLinks

/-! ### Claims -/

namespace SameWalk

variable {g g' : Graph} {root : Value} (hw : SameWalk g g' root)

include hw

theorem askedId? {h : Handle} (hh : g.HasInstance root h) : g'.askedId? h = g.askedId? h := by
  obtain ⟨e, he, -⟩ := hh.2
  obtain ⟨e', he', -⟩ := hw.find? h e hh he
  simp only [Graph.askedId?, he, he', (hw.texts h e e' hh he he').1]

theorem sameLinks : SameLinks g g' root where
  acyclic := hw.acyclic
  acyclic' := hw.acyclic'
  top := hw.top
  visits := hw.visits
  linked := fun h hh => by
    obtain ⟨e, he, -⟩ := hh.2
    obtain ⟨e', he', hstructural⟩ := hw.find? h e hh he
    simp only [Graph.linked, he, he', hstructural]
  wantedId? := fun h hh => by rw [Graph.wantedId?, Graph.wantedId?, hw.askedId? hh]

theorem noteAll {l : List Handle} (hsub : l ⊆ g.firstVisits root) (claims : List (String × Handle)) :
    g'.noteAll claims l = g.noteAll claims l := by
  induction l generalizing claims with
  | nil => rw [noteAll_nil, noteAll_nil]
  | cons h l ih =>
    obtain ⟨hh, hsub⟩ := List.cons_subset.mp hsub
    have hsame : g'.noteWanted claims h = g.noteWanted claims h := by
      unfold noteWanted
      rw [hw.askedId? ((mem_firstVisits hw.acyclic).mp hh)]
    rw [noteAll_cons, noteAll_cons, hsame]
    congr 1
    funext claims
    exact ih hsub claims

end SameWalk

/-! ### Agreement -/

namespace Agree

variable {g g' : Graph} {root : Value} (ha : Agree g g' root)

include ha

theorem sameWalk : SameWalk g g' root where
  acyclic := ha.acyclic
  acyclic' := ha.acyclic'
  top := ha.top
  visits := ha.visits
  find? := fun h e hh he => by
    obtain ⟨e', he', -, hspliced⟩ := ha.find? h e hh he
    exact ⟨e', he', by rw [structural, structural, hspliced]⟩
  texts := ha.texts

theorem blockAt {h : Handle} (hh : h ∈ g.firstVisits root) : g'.blockAt root h = g.blockAt root h := by
  have hi := (mem_firstVisits ha.acyclic).mp hh
  obtain ⟨e, he, -⟩ := hi.2
  obtain ⟨e', he', hprops, hspliced⟩ := ha.find? h e hi he
  obtain ⟨-, hlabel, hcomponent⟩ := ha.texts h e e' hi he he'
  have hstructural : g.structural e.children ⊆ g.firstVisits root := fun k hk =>
    (mem_firstVisits ha.acyclic).mpr (hasInstance_of_mem_structural ha.acyclic hi he hk)
  have hl := ha.sameWalk.sameLinks
  simp only [Graph.blockAt, he, he', blockOf, hprops, hspliced, hl.idOf hh, hlabel, hcomponent,
    hl.referenceTo hstructural, attributeRecords_congr g g']

/-- **Agreement.** Where two graphs agree on all that matters, the outcomes are the same. -/
theorem outcome_normalize : (normalize g' root).outcome = (normalize g root).outcome := by
  have hl := ha.sameWalk.sameLinks
  rw [ViewGraph.outcome_normalize ha.acyclic, ViewGraph.outcome_normalize ha.acyclic', ha.visits,
    ha.sameWalk.noteAll (List.Subset.refl _), mapM_congr fun h hh => ha.blockAt hh, hl.refsTo_top]

end Agree

end ViewGraph
