import ViewGraph.Document.Text
import ViewGraph.Proofs.Emission
import ViewGraph.Proofs.Loading

/-!
# What is planted

A tree that is planted in a graph is there from then on, and its elements are its own.

* `ExtendedBy g g'`: `g'` has the elements of `g` at their places, and perhaps more.
* `Stands v t`: the value `v` stands for the tree `t`, with an element for each of its nodes.
* `stands_plant`: so does what planting gives, in every graph that extends the one that was planted in.
* `nested_of_stands`, `sound_of_reaches`: below what stands for a sound tree nothing is in itself, and
  every element is sound.
* `attributes_of_firstVisits`: the walk meets the nodes that are no fragments in pre-order, once each.
-/

namespace ViewGraph

open ViewGraph.Graph

/-! ### Definitions -/

/-- A graph with the elements of another one at their places, and perhaps more. -/
def Graph.ExtendedBy (g g' : Graph) : Prop := g.nodes.toList <+: g'.nodes.toList

/-- A value stands for a tree: it is its leaf, or an element with the attributes of its node and with
children that stand for those of the node. -/
inductive Graph.Stands (g : Graph) : Value → Tree → Prop
  | leaf (v : Value) : Stands g v (.leaf v)
  | node {h : Handle} {component : Value} {props : List (String × Value)} {vs : List Value} {ts : List Tree}
      (he : g.find? h = some ⟨component, props, vs⟩) (hvs : List.Forall₂ (Stands g) vs ts) :
      Stands g (.element h) (.node component props ts)

namespace Tree

mutual

/-- The attributes of the nodes of a tree that are no fragments, in pre-order. -/
def attributes : Tree → List (List (String × Value))
  | leaf _ => []
  | node component props ts =>
    if (Element.mk component props []).isFragment then allAttributes ts else props :: allAttributes ts

def allAttributes : List Tree → List (List (String × Value))
  | [] => []
  | t :: ts => attributes t ++ allAttributes ts

end

/-! ### Planting -/

theorem plant_node (component : Value) (props : List (String × Value)) (ts : List Tree) (g : Graph) :
    plant (node component props ts) g =
      (((plantAll ts g).1.push ⟨component, props, (plantAll ts g).2⟩).1,
        .element ⟨(plantAll ts g).1.nodes.size⟩) := rfl

theorem plantAll_cons (t : Tree) (ts : List Tree) (g : Graph) :
    plantAll (t :: ts) g =
      ((plantAll ts (plant t g).1).1, (plant t g).2 :: (plantAll ts (plant t g).1).2) := rfl

end Tree

namespace Graph

variable {g g' g'' : Graph}

theorem ExtendedBy.refl (g : Graph) : g.ExtendedBy g := List.prefix_rfl

theorem ExtendedBy.trans (h : g.ExtendedBy g') (h' : g'.ExtendedBy g'') : g.ExtendedBy g'' :=
  List.IsPrefix.trans h h'

theorem extendedBy_push (g : Graph) (e : Element) : g.ExtendedBy (g.push e).1 := by
  simp [ExtendedBy, push]

theorem ExtendedBy.size_le (h : g.ExtendedBy g') : g.nodes.size ≤ g'.nodes.size := by
  simpa using h.length_le

theorem ExtendedBy.find? (hext : g.ExtendedBy g') {h : Handle} {e : Element} (he : g.find? h = some e) :
    g'.find? h = some e := by
  rw [Graph.find?, ← Array.getElem?_toList] at he ⊢
  obtain ⟨more, hmore⟩ := hext
  have hlt := (List.getElem?_eq_some_iff.mp he).1
  rw [← hmore, List.getElem?_append_left hlt, he]

theorem size_push (g : Graph) (e : Element) : (g.push e).1.nodes.size = g.nodes.size + 1 := by
  simp [push]

end Graph

open ViewGraph.Tree

mutual

/-- **Growth.** Planting adds elements and leaves the others alone. -/
theorem extendedBy_plant : ∀ (t : Tree) (g : Graph), g.ExtendedBy (t.plant g).1
  | .leaf _, g => .refl g
  | .node component props ts, g => by
    rw [plant_node]
    exact (extendedBy_plantAll ts g).trans (extendedBy_push _ _)

theorem extendedBy_plantAll : ∀ (ts : List Tree) (g : Graph), g.ExtendedBy (plantAll ts g).1
  | [], g => .refl g
  | t :: ts, g => by
    rw [plantAll_cons]
    exact (extendedBy_plant t g).trans (extendedBy_plantAll ts _)

end

mutual

/-- **Standing.** What planting gives stands for the tree from then on. -/
theorem stands_plant : ∀ (t : Tree) {g g' : Graph}, (t.plant g).1.ExtendedBy g' →
    g'.Stands (t.plant g).2 t
  | .leaf v, _, _, _ => .leaf v
  | .node component props ts, g, g', hext => by
    rw [plant_node] at hext ⊢
    refine .node (hext.find? ?_) (stands_plantAll ts ((extendedBy_push _ _).trans hext))
    exact find?_push (plantAll ts g).1 ⟨component, props, (plantAll ts g).2⟩

theorem stands_plantAll : ∀ (ts : List Tree) {g g' : Graph}, (plantAll ts g).1.ExtendedBy g' →
    List.Forall₂ g'.Stands (plantAll ts g).2 ts
  | [], _, _, _ => .nil
  | t :: ts, g, g', hext => by
    rw [plantAll_cons] at hext ⊢
    exact .cons (stands_plant t ((extendedBy_plantAll ts _).trans hext)) (stands_plantAll ts hext)

end

/-! ### Below what stands for a sound tree -/

variable {number : Number → Bool} {g : Graph}

theorem isLeaf_of_isLeafValue {v : Value} (hv : v.IsLeafValue) : v.isLeaf = true := by
  cases hv <;> rfl

theorem roleOf_of_isLeafValue {v : Value} (hv : v.IsLeafValue) : ∃ l, g.roleOf v = .leaf l := by
  obtain ⟨l, hl⟩ := Option.isSome_iff_exists.mp (isLeaf_of_isLeafValue hv)
  exact ⟨l, roleOf_eq_leaf.mpr hl⟩

variable (g) in
/-- A fragment or a named component with sound attributes and with children that are leaves or elements. -/
structure Graph.SoundElement (number : Number → Bool) (e : Element) : Prop where
  component : e.component = .fragment ∨ ∃ name, e.component = .str name
  props : SoundProps number e.props
  children : ∀ v ∈ e.children, v.IsLeafValue ∨ ∃ k, v = .element k ∧ (g.find? k).isSome

theorem Graph.Nested.cons {n : ℕ} {v : Value} {vs : List Value} (hv : g.Nested n [v])
    (hvs : g.Nested n vs) : g.Nested n (v :: vs) := by
  cases n with
  | zero => exact hv.elim
  | succ n =>
    intro h e hmem he
    rcases List.mem_cons.mp hmem with rfl | hmem
    · exact hv h e (by simp) he
    · exact hvs h e hmem he

mutual

/-- What stands for a sound tree is only so deep. -/
theorem nested_of_stands : ∀ (t : Tree) {v : Value}, g.Stands v t → t.Sound number →
    ∃ n, g.Nested n [v]
  | .leaf v, _, hs, ht => by
    cases hs
    cases ht with
    | leaf hv =>
      refine ⟨1, fun h e hmem _ => ?_⟩
      obtain rfl := List.mem_singleton.mp hmem
      cases hv
  | .node component props ts, _, hs, ht => by
    cases hs with
    | @node h _ _ vs _ he hvs =>
      cases ht with
      | node _ _ hts =>
        obtain ⟨n, hn⟩ := nested_of_standsAll ts hvs hts
        refine ⟨n + 1, fun k e hmem hk => ?_⟩
        obtain rfl : k = h := by simpa using hmem
        obtain rfl := Option.some.inj (he.symm.trans hk)
        exact hn

theorem nested_of_standsAll : ∀ (ts : List Tree) {vs : List Value}, List.Forall₂ g.Stands vs ts →
    (∀ t ∈ ts, t.Sound number) → ∃ n, g.Nested n vs
  | [], _, hs, _ => by
    cases hs
    exact ⟨1, fun _ _ hmem => absurd hmem List.not_mem_nil⟩
  | t :: ts, _, hs, hsound => by
    cases hs with
    | cons ht hts =>
      obtain ⟨hst, hsts⟩ := List.forall_mem_cons.mp hsound
      obtain ⟨n, hn⟩ := nested_of_stands t ht hst
      obtain ⟨m, hm⟩ := nested_of_standsAll ts hts hsts
      exact ⟨max n m, (hn.mono (le_max_left n m)).cons (hm.mono (le_max_right n m))⟩

end

theorem acyclic_of_stands {t : Tree} {v : Value} (hs : g.Stands v t) (ht : t.Sound number) :
    g.Acyclic v := by
  obtain ⟨n, hn⟩ := nested_of_stands t hs ht
  exact acyclic_of_nested hn

/-- What stands for a sound tree is a leaf or an element. -/
theorem leaf_or_element_of_stands {t : Tree} {v : Value} (hs : g.Stands v t) (ht : t.Sound number) :
    v.IsLeafValue ∨ ∃ k, v = .element k ∧ (g.find? k).isSome := by
  cases hs with
  | leaf v =>
    cases ht with
    | leaf hv => exact .inl hv
  | node he _ => exact .inr ⟨_, rfl, by simp [he]⟩

theorem leaf_or_element_of_standsAll {ts : List Tree} {vs : List Value}
    (hs : List.Forall₂ g.Stands vs ts) (hsound : ∀ t ∈ ts, t.Sound number) :
    ∀ v ∈ vs, v.IsLeafValue ∨ ∃ k, v = .element k ∧ (g.find? k).isSome := by
  induction hs with
  | nil => simp
  | cons ht _ ih =>
    obtain ⟨hst, hsts⟩ := List.forall_mem_cons.mp hsound
    exact List.forall_mem_cons.mpr ⟨leaf_or_element_of_stands ht hst, ih hsts⟩

mutual

/-- Every element at or below what stands for a sound tree is sound. -/
theorem sound_of_reaches : ∀ (t : Tree) {v : Value}, g.Stands v t → t.Sound number →
    ∀ {h : Handle} {e : Element}, g.ReachesFrom [v] h → g.find? h = some e → g.SoundElement number e
  | .leaf v, _, hs, ht, h, e, hr, he => by
    cases hs
    cases ht with
    | leaf hv =>
      obtain ⟨k, hk, -⟩ := hr
      obtain rfl := List.mem_singleton.mp hk
      cases hv
  | .node component props ts, _, hs, ht, h, e, hr, he => by
    cases hs with
    | @node k _ _ vs _ hk hvs =>
      cases ht with
      | node hcomponent hprops hts =>
        rcases (reachesFrom_element hk).mp hr with rfl | hr
        · obtain rfl := Option.some.inj (hk.symm.trans he)
          exact ⟨hcomponent, hprops, leaf_or_element_of_standsAll hvs hts⟩
        · exact sound_of_reachesAll ts hvs hts hr he

theorem sound_of_reachesAll : ∀ (ts : List Tree) {vs : List Value}, List.Forall₂ g.Stands vs ts →
    (∀ t ∈ ts, t.Sound number) →
    ∀ {h : Handle} {e : Element}, g.ReachesFrom vs h → g.find? h = some e → g.SoundElement number e
  | [], _, hs, _, _, _, hr, _ => by
    cases hs
    obtain ⟨k, hk, -⟩ := hr
    exact absurd hk List.not_mem_nil
  | t :: ts, _, hs, hsound, _, _, hr, he => by
    cases hs with
    | cons ht hts =>
      obtain ⟨hst, hsts⟩ := List.forall_mem_cons.mp hsound
      obtain ⟨w, hw, hrw⟩ := reachesFrom_iff_exists.mp hr
      rcases List.mem_cons.mp hw with rfl | hw
      · exact sound_of_reaches t ht hst hrw he
      · exact sound_of_reachesAll ts hts hsts (reachesFrom_iff_exists.mpr ⟨w, hw, hrw⟩) he

end

/-! ### The walk over what is planted -/

mutual

/-- The walk meets the nodes that are no fragments in pre-order. -/
theorem attributes_of_listing : ∀ (t : Tree) {v : Value}, g.Stands v t → t.Sound number →
    g.Grounded [v] → (g.listing [v]).map g.attributesAt = t.attributes
  | .leaf v, _, hs, ht, _ => by
    cases hs
    cases ht with
    | leaf hv =>
      obtain ⟨l, hl⟩ := roleOf_of_isLeafValue (g := g) hv
      rw [listing_leaf hl]
      rfl
  | .node component props ts, _, hs, ht, hg => by
    cases hs with
    | @node h _ _ vs _ he hvs =>
      cases ht with
      | node _ _ hts =>
        have ih := attributes_of_listingAll ts hvs hts (hg.children (by simp) he)
        have hr := roleOf_element he
        by_cases hf : (Element.mk component props []).isFragment
        · have hf' : (Element.mk component props vs).isFragment := hf
          rw [if_pos hf'] at hr
          rw [listing_fragment hg hr, Tree.attributes, if_pos hf, ih]
        · have hf' : ¬ (Element.mk component props vs).isFragment := hf
          rw [if_neg hf'] at hr
          have hat : g.attributesAt h = props := by simp [attributesAt, he]
          rw [listing_concrete hg hr, Tree.attributes, if_neg hf, List.map_cons, ih, hat]

theorem attributes_of_listingAll : ∀ (ts : List Tree) {vs : List Value}, List.Forall₂ g.Stands vs ts →
    (∀ t ∈ ts, t.Sound number) → g.Grounded vs →
    (g.listing vs).map g.attributesAt = Tree.allAttributes ts
  | [], _, hs, _, _ => by
    cases hs
    rfl
  | t :: ts, _, hs, hsound, hg => by
    cases hs with
    | @cons v _ vs _ ht hts =>
      obtain ⟨hst, hsts⟩ := List.forall_mem_cons.mp hsound
      rw [listing_cons, List.map_append, attributes_of_listing t ht hst hg.head,
        attributes_of_listingAll ts hts hsts hg.tail, Tree.allAttributes]

end

mutual

/-- The elements that the walk meets are those that were planted, each of them once. -/
theorem listing_plant : ∀ (t : Tree) {g g' : Graph}, (t.plant g).1.ExtendedBy g' → t.Sound number →
    g'.Grounded [(t.plant g).2] →
    (g'.listing [(t.plant g).2]).Nodup ∧
      ∀ h ∈ g'.listing [(t.plant g).2], g.nodes.size ≤ h.index ∧ h.index < (t.plant g).1.nodes.size
  | .leaf v, _, g', _, ht, _ => by
    cases ht with
    | leaf hv =>
      obtain ⟨l, hl⟩ := roleOf_of_isLeafValue (g := g') hv
      rw [plant_leaf, listing_leaf hl]
      simp
  | .node component props ts, g, g', hext, ht, hg => by
    cases ht with
    | node _ _ hts =>
      rw [plant_node] at hext hg ⊢
      have hgrow := (extendedBy_plantAll ts g).size_le
      have he := hext.find? (find?_push (plantAll ts g).1 ⟨component, props, (plantAll ts g).2⟩)
      have hvs := hg.children (by simp [push]) he
      obtain ⟨hnd, hin⟩ := listing_plantAll ts ((extendedBy_push _ _).trans hext) hts hvs
      have hr := roleOf_element he
      simp only [size_push]
      split_ifs at hr with hf
      · rw [listing_fragment hg hr]
        exact ⟨hnd, fun h hh => ⟨(hin h hh).1, (hin h hh).2.trans (Nat.lt_succ_self _)⟩⟩
      · rw [listing_concrete hg hr]
        constructor
        · refine List.nodup_cons.mpr ⟨fun hmem => ?_, hnd⟩
          exact absurd (hin _ hmem).2 (lt_irrefl _)
        · intro h hh
          rcases List.mem_cons.mp hh with rfl | hh
          · exact ⟨hgrow, Nat.lt_succ_self _⟩
          · exact ⟨(hin h hh).1, (hin h hh).2.trans (Nat.lt_succ_self _)⟩

theorem listing_plantAll : ∀ (ts : List Tree) {g g' : Graph}, (plantAll ts g).1.ExtendedBy g' →
    (∀ t ∈ ts, t.Sound number) → g'.Grounded (plantAll ts g).2 →
    (g'.listing (plantAll ts g).2).Nodup ∧
      ∀ h ∈ g'.listing (plantAll ts g).2, g.nodes.size ≤ h.index ∧ h.index < (plantAll ts g).1.nodes.size
  | [], _, _, _, _, _ => by simp [plantAll]
  | t :: ts, g, g', hext, hsound, hg => by
    obtain ⟨hst, hsts⟩ := List.forall_mem_cons.mp hsound
    rw [plantAll_cons] at hext hg ⊢
    have hgrow := (extendedBy_plant t g).size_le
    have hgrow' := (extendedBy_plantAll ts (t.plant g).1).size_le
    obtain ⟨hnd, hin⟩ := listing_plant t ((extendedBy_plantAll ts _).trans hext) hst hg.head
    obtain ⟨hnds, hins⟩ := listing_plantAll ts hext hsts hg.tail
    rw [listing_cons]
    constructor
    · refine List.nodup_append.mpr ⟨hnd, hnds, fun h hh k hk heq => ?_⟩
      subst heq
      exact absurd (hins h hk).1 (not_le.mpr (hin h hh).2)
    · intro h hh
      rcases List.mem_append.mp hh with hh | hh
      · exact ⟨(hin h hh).1, (hin h hh).2.trans_le hgrow'⟩
      · exact ⟨hgrow.trans (hins h hh).1, (hins h hh).2⟩

end

theorem eraseDups_of_nodup {α : Type} [DecidableEq α] {l : List α} (hl : l.Nodup) : l.eraseDups = l := by
  induction l using List.reverseRecOn with
  | nil => rfl
  | append_singleton l a ih =>
    have hcons : (a :: l).Nodup := List.nodup_append_comm.mp hl
    obtain ⟨ha, hl⟩ := List.nodup_cons.mp hcons
    rw [Allocator.eraseDups_concat, if_neg ha, ih hl]

section Planted

variable {t : Tree} {g₀ : Graph} {root : Value} (ht : t.Sound number) (hplant : t.plant g₀ = (g, root))

include ht hplant

theorem stands_of_plant : g.Stands root t ∧ g.Acyclic root := by
  have hs := stands_plant t (.refl (t.plant g₀).1)
  rw [hplant] at hs
  exact ⟨hs, acyclic_of_stands hs ht⟩

/-- The attributes of the elements that were planted are sound. -/
theorem soundProps_of_mem_firstVisits {h : Handle} (hh : h ∈ g.firstVisits root) :
    SoundProps number (g.attributesAt h) := by
  obtain ⟨hs, hac⟩ := stands_of_plant ht hplant
  obtain ⟨hreach, e, he, -⟩ := (mem_firstVisits hac).mp hh
  have hat : g.attributesAt h = e.props := by simp [attributesAt, he]
  rw [hat]
  exact (sound_of_reaches t hs ht hreach he).props

/-- Nothing is met twice below a tree that was planted. -/
theorem firstVisits_eq_listing : g.firstVisits root = g.listing [root] := by
  have hwalk := listing_plant t (.refl (t.plant g₀).1) ht
  rw [hplant] at hwalk
  exact eraseDups_of_nodup (hwalk (stands_of_plant ht hplant).2.grounded).1

/-- **Walk.** The first visits below a tree that was planted are to its nodes that are no fragments, in
pre-order. -/
theorem attributes_of_firstVisits : (g.firstVisits root).map g.attributesAt = t.attributes := by
  obtain ⟨hs, hac⟩ := stands_of_plant ht hplant
  rw [firstVisits_eq_listing ht hplant, attributes_of_listing t hs ht hac.grounded]

end Planted

end ViewGraph
