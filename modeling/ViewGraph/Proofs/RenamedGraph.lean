import ViewGraph.Proofs.FirstVisit
import ViewGraph.Proofs.RenamedValues

/-!
# Renamed graphs

The elements of a template are objects, and a handle stands for the object that an element is. Here the same
template is made of other objects: `ρ` says which object takes the place of an element among children, and `σ`
which one takes its place inside the values that attributes hold.

* `Renames ρ σ g g' root`: below its root `g'` is `g` with other objects.
* `elementText_rename`, `text_rename`: values show the same texts in both.
* `roleOf_moved`, `spliced_moved`, `listing_moved`: the walks over both are the same but for the names.
* `acyclic_moved`, `firstVisits_moved`: so the same elements are met, in the same order.
-/

namespace ViewGraph

open Relation

/-! ### Definitions -/

/-- A child with its elements renamed: an element that stands there by `ρ`, and those in other values by `σ`. -/
def Value.moved (ρ σ : Handle → Handle) : Value → Value
  | .element h => .element (ρ h)
  | v => v.rename σ

namespace Element

/-- An element with the elements in it renamed: those that stand among its children by `ρ`, and those in values by
`σ`. -/
def moved (ρ σ : Handle → Handle) (e : Element) : Element :=
  ⟨e.component.rename σ, Value.renameMembers σ e.props, e.children.map (Value.moved ρ σ)⟩

/-- The elements in the component and the attributes of an element. -/
def heldAside (e : Element) : List Handle := e.component.held ++ Value.heldMembers e.props

/-- The elements in the values of an element, those that stand among its children left out. -/
def heldInValues (e : Element) : List Handle :=
  e.heldAside ++ Value.heldAll (e.children.filter fun v => v.handle?.isNone)

/-- All elements in an element. -/
def held (e : Element) : List Handle := e.heldAside ++ Value.heldAll e.children

end Element

/-- What a moved child is to the element it stands in. -/
def Role.moved (ρ σ : Handle → Handle) : Role → Role
  | .leaf l => .leaf (l.rename σ)
  | .fragment children => .fragment (children.map (Value.moved ρ σ))
  | .concrete h e => .concrete (ρ h) (e.moved ρ σ)
  | .unsupported => .unsupported

namespace Graph

variable (g : Graph) (root : Handle)

/-- The handle stands at the root, or among the children of an element below it. -/
def Placed (h : Handle) : Prop :=
  h = root ∨ ∃ k e, g.Reaches (.element root) k ∧ g.find? k = some e ∧ .element h ∈ e.children

/-- The handle is in a value of an element below the root, or in an element that is in such a value. -/
inductive Holds : Handle → Prop
  | value {h k : Handle} {e : Element} : g.Reaches (.element root) h → g.find? h = some e →
      k ∈ e.heldInValues → Holds k
  | within {h k : Handle} {e : Element} : Holds h → g.find? h = some e → k ∈ e.held → Holds k

/-- All elements among some values stand at the root, or among the children of an element below it. -/
def AllPlaced (vs : List Value) : Prop := ∀ h, .element h ∈ vs → g.Placed root h

end Graph

/-- Below its root `g'` is `g` with other objects: what stands among children is renamed by `ρ`, and what is in
values by `σ`. No two elements become one. -/
structure Renames (ρ σ : Handle → Handle) (g g' : Graph) (root : Handle) : Prop where
  standing : ∀ h, g.Placed root h → g'.find? (ρ h) = (g.find? h).map (Element.moved ρ σ)
  held : ∀ h, g.Holds root h → g'.find? (σ h) = (g.find? h).map (Element.moved σ σ)
  apart : ∀ h k, g.Reaches (.element root) h → g.Reaches (.element root) k → ρ h = ρ k → h = k
  heldApart : ∀ h k, g.Holds root h → g.Holds root k → σ h = σ k → h = k

variable {ρ σ : Handle → Handle}

/-! ### Moved values -/

namespace Value

theorem moved_self (v : Value) : v.moved σ σ = v.rename σ := by
  cases v <;> rfl

theorem handle?_moved (v : Value) : (v.moved ρ σ).handle? = v.handle?.map ρ := by
  cases v <;> rfl

theorem leaf?_moved (v : Value) : (v.moved ρ σ).leaf? = v.leaf?.map (Leaf.rename σ) := by
  cases v with
  | element h => rfl
  | _ => exact leaf?_rename _

@[simp] theorem isLeaf_moved (v : Value) : (v.moved ρ σ).isLeaf = v.isLeaf := by
  rw [isLeaf, leaf?_moved, Option.isSome_map]
  rfl

theorem moved_eq_element {v : Value} {k : Handle} :
    v.moved ρ σ = .element k ↔ ∃ h, v = .element h ∧ ρ h = k := by
  cases v <;> simp [moved, rename]

theorem element_mem_map_moved {vs : List Value} {k : Handle} :
    .element k ∈ vs.map (moved ρ σ) ↔ ∃ h, .element h ∈ vs ∧ ρ h = k := by
  constructor
  · intro hk
    obtain ⟨v, hv, heq⟩ := List.mem_map.mp hk
    obtain ⟨h, rfl, rfl⟩ := moved_eq_element.mp heq
    exact ⟨h, hv, rfl⟩
  · rintro ⟨h, hh, rfl⟩
    exact List.mem_map.mpr ⟨.element h, hh, rfl⟩

end Value

@[simp] theorem Element.isFragment_moved (e : Element) : (e.moved ρ σ).isFragment = e.isFragment := by
  unfold moved isFragment
  cases e.component <;> rfl

theorem Element.moved_self_children (e : Element) :
    (e.moved σ σ).children = Value.renameAll σ e.children := by
  rw [Value.renameAll_eq_map]
  exact List.map_congr_left fun v _ => Value.moved_self v

/-- The text of an element, in which other elements show as `shown` says. -/
def Element.text (shown : Handle → Shown (List Char)) (e : Element) : Shown (List Char) := do
  let component ← Value.inner shown e.component
  let props ← Value.inner shown (.dict e.props)
  let children ← Value.inner shown (.list e.children)
  return called "Element" [("component", component), ("props", props), ("children", children)]

/-- A renamed element shows as the element does, if the elements in it do. -/
theorem Element.text_moved {shown shown' : Handle → Shown (List Char)} (e : Element)
    (h : ∀ k ∈ e.held, shown' (σ k) = shown k) : (e.moved σ σ).text shown' = e.text shown := by
  obtain ⟨haside, hchildren⟩ := List.forall_mem_append.mp h
  obtain ⟨hcomponent, hprops⟩ := List.forall_mem_append.mp haside
  have hprops' : Value.inner shown' (.dict (Value.renameMembers σ e.props)) = Value.inner shown (.dict e.props) :=
    Value.inner_rename (.dict e.props) hprops
  have hchildren' : Value.inner shown' (.list (Value.renameAll σ e.children)) =
      Value.inner shown (.list e.children) := Value.inner_rename (.list e.children) hchildren
  rw [text, moved_self_children, hchildren', text, ← hprops', ← Value.inner_rename e.component hcomponent]
  rfl

namespace Graph

variable {g g' : Graph} {root : Handle}

theorem Placed.reaches {h : Handle} (hp : g.Placed root h) (hs : (g.find? h).isSome) :
    g.Reaches (.element root) h := by
  rcases hp with rfl | ⟨k, e, hr, he, hh⟩
  · exact ⟨h, by simp, hs, .refl⟩
  · exact hr.below ⟨e, he, hh, hs⟩

theorem Placed.child {h k : Handle} {e : Element} (hp : g.Placed root h) (he : g.find? h = some e)
    (hk : .element k ∈ e.children) : g.Placed root k :=
  .inr ⟨h, e, hp.reaches (by simp [he]), he, hk⟩

theorem allPlaced_root : g.AllPlaced root [.element root] := fun _ hh => .inl (by simpa using hh)

theorem allPlaced_children {h : Handle} {e : Element} (hr : g.Reaches (.element root) h)
    (he : g.find? h = some e) : g.AllPlaced root e.children :=
  fun _ hk => .inr ⟨h, e, hr, he, hk⟩

/-- What is below the root stands somewhere. -/
theorem Placed.of_reaches {h : Handle} (hr : g.Reaches (.element root) h) : g.Placed root h := by
  obtain ⟨r, hmem, hs, hpath⟩ := hr
  obtain rfl : r = root := by simpa using hmem
  cases hpath with
  | refl => exact .inl rfl
  | tail hpath hb =>
    obtain ⟨e, he, hh, -⟩ := hb
    exact .inr ⟨_, e, ⟨r, by simp, hs, hpath⟩, he, hh⟩

/-! ### Texts -/

theorem length_le_of_nodup {inside : List Handle} (hnd : inside.Nodup)
    (hlive : ∀ k ∈ inside, (g.find? k).isSome) : inside.length ≤ g.nodes.size := by
  have hsub : inside.map (·.index) ⊆ List.range g.nodes.size := by
    intro i hi
    obtain ⟨k, hk, rfl⟩ := List.mem_map.mp hi
    exact List.mem_range.mpr (index_lt_of_find? (hlive k hk))
  have hnd' : (inside.map (·.index)).Nodup := hnd.map fun a b hab => by
    cases a
    cases b
    exact congrArg Handle.mk hab
  simpa using (hnd'.subperm hsub).length_le

end Graph

namespace Renames

open ViewGraph.Graph

variable {g g' : Graph} {root : Handle} (hr : Renames ρ σ g g' root)

include hr

theorem find?_held {h : Handle} (hh : g.Holds root h) {e : Element} (he : g.find? h = some e) :
    g'.find? (σ h) = some (e.moved σ σ) := by
  rw [hr.held h hh, he]
  rfl

theorem contains_map {inside : List Handle} (hin : ∀ k ∈ inside, g.Holds root k) {h : Handle}
    (hh : g.Holds root h) : (inside.map σ).contains (σ h) = inside.contains h := by
  rw [Bool.eq_iff_iff, List.contains_iff_mem, List.contains_iff_mem]
  constructor
  · intro hmem
    obtain ⟨k, hk, heq⟩ := List.mem_map.mp hmem
    exact hr.heldApart k h (hin k hk) hh heq ▸ hk
  · exact List.mem_map_of_mem

/-- The elements that an element is shown inside of are held and distinct, so there are no more of them than the
graph has elements. -/
theorem length_map_le {inside : List Handle} (hnd : inside.Nodup)
    (hin : ∀ k ∈ inside, g.Holds root k ∧ (g.find? k).isSome) : inside.length ≤ g'.nodes.size := by
  have hnd' : (inside.map σ).Nodup :=
    hnd.map_on fun a ha b hb heq => hr.heldApart a b (hin a ha).1 (hin b hb).1 heq
  rw [← List.length_map σ]
  refine length_le_of_nodup hnd' fun k hk => ?_
  obtain ⟨m, hm, rfl⟩ := List.mem_map.mp hk
  obtain ⟨e, he⟩ := Option.isSome_iff_exists.mp (hin m hm).2
  simp [hr.find?_held (hin m hm).1 he]

/-- **Texts.** An element in a value shows the same text in both graphs, if each has the fuel to enter all of its
elements. -/
theorem elementText_rename {fuel fuel' : ℕ} {inside : List Handle} (hnd : inside.Nodup)
    (hin : ∀ k ∈ inside, g.Holds root k ∧ (g.find? k).isSome)
    (hfuel : g.nodes.size < fuel + inside.length) (hfuel' : g'.nodes.size < fuel' + inside.length)
    {h : Handle} (hh : g.Holds root h) :
    g'.elementText fuel' (inside.map σ) (σ h) = g.elementText fuel inside h := by
  induction fuel generalizing fuel' inside h with
  | zero =>
    have := length_le_of_nodup hnd fun k hk => (hin k hk).2
    omega
  | succ fuel ih =>
    cases fuel' with
    | zero =>
      have := hr.length_map_le hnd hin
      omega
    | succ fuel' =>
      rw [elementText, elementText, hr.contains_map (fun k hk => (hin k hk).1) hh]
      by_cases hmem : h ∈ inside
      · rw [if_pos (List.contains_iff_mem.mpr hmem), if_pos (List.contains_iff_mem.mpr hmem)]
      · rw [if_neg (by simpa using hmem), if_neg (by simpa using hmem)]
        cases he : g.find? h with
        | none =>
          rw [hr.held h hh, he]
          rfl
        | some e =>
          have hin' := List.forall_mem_cons.mpr ⟨⟨hh, by simp [he]⟩, hin⟩
          have hdeeper : ∀ k ∈ e.held, g'.elementText fuel' (σ h :: inside.map σ) (σ k) =
              g.elementText fuel (h :: inside) k := fun k hk =>
            ih (List.nodup_cons.mpr ⟨hmem, hnd⟩) hin' (by simp; omega) (by simp; omega) (.within hh he hk)
          rw [hr.find?_held hh he]
          exact e.text_moved hdeeper

/-- A value shows the same text in both graphs. -/
theorem text_rename {v : Value} (hv : ∀ k ∈ v.held, g.Holds root k) :
    g'.text (v.rename σ) = g.text v := by
  have hshown : ∀ k ∈ v.held, g'.elementText (g'.nodes.size + 1) [] (σ k) =
      g.elementText (g.nodes.size + 1) [] k := fun k hk =>
    hr.elementText_rename List.nodup_nil (by simp) (by simp) (by simp) (hv k hk)
  rw [text, text, displayed, displayed, Value.display_rename v hshown]

/-! ### Elements -/

theorem find?_placed {h : Handle} (hp : g.Placed root h) {e : Element} (he : g.find? h = some e) :
    g'.find? (ρ h) = some (e.moved ρ σ) := by
  rw [hr.standing h hp, he]
  rfl

section Element

variable {h : Handle} {e : Element} (hh : g.Reaches (.element root) h) (he : g.find? h = some e)

include hh he

theorem text_component : g'.text (e.moved ρ σ).component = g.text e.component :=
  hr.text_rename fun _ hk => .value hh he (List.mem_append_left _ (List.mem_append_left _ hk))

/-- An attribute shows the same text in both graphs. -/
theorem text_attribute {name : String} {v : Value} (hv : Table.find? name e.props = some v) :
    g'.text (v.rename σ) = g.text v := by
  refine hr.text_rename fun k hk => .value hh he ?_
  have hmem : k ∈ Value.heldMembers e.props := Value.mem_heldMembers.mpr ⟨(name, v), Table.mem_of_find? hv, hk⟩
  exact List.mem_append_left _ (List.mem_append_right _ hmem)

theorem explicitId?_moved : g'.explicitId? (e.moved ρ σ) = g.explicitId? e := by
  unfold explicitId?
  rw [Element.moved, Value.find?_renameMembers]
  cases hfind : Table.find? Element.idAttribute e.props with
  | none => rfl
  | some v =>
    have hshown := hr.text_attribute hh he hfind
    cases v with
    | null => rfl
    | _ => exact congrArg (some <$> ·) hshown

theorem label?_moved : g'.label? (e.moved ρ σ) = g.label? e := by
  unfold label?
  rw [Element.moved, Value.find?_renameMembers]
  cases hfind : Table.find? Element.labelAttribute e.props with
  | none => rfl
  | some v => simp only [Option.map_some, Value.isTrue_rename, hr.text_attribute hh he hfind]

end Element

/-! ### Children -/

/-- A moved child is what the child is. -/
theorem roleOf_moved {v : Value} (hv : ∀ h, v = .element h → g.Placed root h) :
    g'.roleOf (v.moved ρ σ) = (g.roleOf v).moved ρ σ := by
  unfold roleOf
  rw [Value.leaf?_moved]
  cases hl : v.leaf? with
  | some l => rfl
  | none =>
    cases v with
    | element h =>
      show g'.nodeRole (.element (ρ h)) = _
      simp only [nodeRole, hr.standing h (hv h rfl)]
      cases g.find? h with
      | none => rfl
      | some e =>
        simp only [Option.map_some, Element.isFragment_moved]
        split_ifs <;> rfl
    | _ => rfl

/-- What stands in each other only so deep does so under other names. -/
theorem nested_moved {n : ℕ} {vs : List Value} (hn : g.Nested n vs) (hp : g.AllPlaced root vs) :
    g'.Nested n (vs.map (Value.moved ρ σ)) := by
  induction n generalizing vs with
  | zero => exact hn.elim
  | succ n ih =>
    intro k e' hk he'
    obtain ⟨h, hh, rfl⟩ := Value.element_mem_map_moved.mp hk
    rw [hr.standing h (hp h hh)] at he'
    obtain ⟨e, he, rfl⟩ := Option.map_eq_some_iff.mp he'
    exact ih (hn h e hh he) fun m hm => (hp h hh).child he hm

theorem acyclic_moved (hac : g.Acyclic (.element root)) : g'.Acyclic (.element (ρ root)) :=
  acyclic_of_nested (hr.nested_moved hac.grounded allPlaced_root)

theorem reaches_moved {h : Handle} (hh : g.Reaches (.element root) h) : g'.Reaches (.element (ρ root)) (ρ h) := by
  obtain ⟨r, hmem, hs, hpath⟩ := hh
  obtain rfl : r = root := by simpa using hmem
  obtain ⟨e, he⟩ := Option.isSome_iff_exists.mp hs
  have hroot : g'.Reaches (.element (ρ r)) (ρ r) :=
    ⟨ρ r, by simp, by simp [hr.find?_placed (.inl rfl) he], .refl⟩
  induction hpath with
  | refl => exact hroot
  | @tail m k hpath hb ih =>
    obtain ⟨e, he, hk, hks⟩ := hb
    have hp : g.Placed r m := Placed.of_reaches ⟨r, by simp, hs, hpath⟩
    obtain ⟨e', he'⟩ := Option.isSome_iff_exists.mp hks
    refine ih.below ⟨_, hr.find?_placed hp he, Value.element_mem_map_moved.mpr ⟨_, hk, rfl⟩, ?_⟩
    simp [hr.find?_placed (hp.child he hk) he']

/-! ### Walks -/

omit hr in
/-- Walks that go child by child are the same under other names, if they are so at each child. -/
theorem walk_moved {β : Type} {walk walk' : List Value → List β} {F : β → β} (hnil : walk [] = [])
    (hnil' : walk' [] = []) (hcons : ∀ v vs, walk (v :: vs) = walk [v] ++ walk vs)
    (hcons' : ∀ v vs, walk' (v :: vs) = walk' [v] ++ walk' vs) {vs : List Value}
    (h : ∀ v ∈ vs, walk' [v.moved ρ σ] = (walk [v]).map F) :
    walk' (vs.map (Value.moved ρ σ)) = (walk vs).map F := by
  induction vs with
  | nil => rw [List.map_nil, hnil, hnil', List.map_nil]
  | cons v vs ih =>
    obtain ⟨hv, hvs⟩ := List.forall_mem_cons.mp h
    rw [List.map_cons, hcons', hcons v vs, List.map_append, hv, ih hvs]

section Walks

variable {vs : List Value} (hg : g.Grounded vs) (hg' : g'.Grounded (vs.map (Value.moved ρ σ)))
  (hp : g.AllPlaced root vs)

include hg hg' hp

/-- **Splicing.** The same children are spliced, under other names. -/
theorem spliced_moved : g'.spliced (vs.map (Value.moved ρ σ)) = (g.spliced vs).map (Value.moved ρ σ) := by
  induction hg using Grounded.rec_children with
  | step vs hg ih =>
    refine walk_moved rfl rfl spliced_cons spliced_cons fun v hmem => ?_
    have hv : g.Grounded [v] := hg.subset (by simpa using hmem)
    have hv' : g'.Grounded [v.moved ρ σ] := hg'.subset (by simpa using ⟨v, hmem, rfl⟩)
    have hrole := hr.roleOf_moved (v := v) fun h heq => hp h (heq ▸ hmem)
    cases hrv : g.roleOf v with
    | leaf l =>
      rw [hrv] at hrole
      rw [spliced_leaf hrv, spliced_leaf hrole]
      rfl
    | unsupported =>
      rw [hrv] at hrole
      rw [spliced_unsupported hrv, spliced_unsupported hrole]
      rfl
    | concrete h e =>
      rw [hrv] at hrole
      rw [spliced_concrete hrv, spliced_concrete hrole]
      rfl
    | fragment cs =>
      rw [hrv] at hrole
      obtain ⟨h, e, rfl, he, -, rfl⟩ := roleOf_eq_fragment hrv
      have hinside := ih h e hmem he (hv'.of_fragment hrole) fun m hm => (hp h hmem).child he hm
      rw [spliced_fragment hv hrv, spliced_fragment hv' hrole, hinside, List.filter_map]
      simp only [Function.comp_def, Value.isLeaf_moved]

theorem structural_moved : g'.structural (vs.map (Value.moved ρ σ)) = (g.structural vs).map ρ := by
  rw [structural, hr.spliced_moved hg hg' hp, structural, List.filterMap_map, List.map_filterMap]
  exact List.filterMap_congr fun v _ => Value.handle?_moved v

/-- **Walk.** The same elements are met, under other names. -/
theorem listing_moved : g'.listing (vs.map (Value.moved ρ σ)) = (g.listing vs).map ρ := by
  induction hg using Grounded.rec_children with
  | step vs hg ih =>
    refine walk_moved rfl rfl listing_cons listing_cons fun v hmem => ?_
    have hv : g.Grounded [v] := hg.subset (by simpa using hmem)
    have hv' : g'.Grounded [v.moved ρ σ] := hg'.subset (by simpa using ⟨v, hmem, rfl⟩)
    have hrole := hr.roleOf_moved (v := v) fun h heq => hp h (heq ▸ hmem)
    cases hrv : g.roleOf v with
    | leaf l =>
      rw [hrv] at hrole
      rw [listing_leaf hrv, listing_leaf hrole]
      rfl
    | unsupported =>
      rw [hrv] at hrole
      rw [listing_unsupported hrv, listing_unsupported hrole]
      rfl
    | concrete h e =>
      rw [hrv] at hrole
      obtain ⟨rfl, he, -⟩ := roleOf_eq_concrete.mp hrv
      have hbelow := ih h e hmem he (hv'.of_concrete hrole) fun m hm => (hp h hmem).child he hm
      rw [listing_concrete hv hrv, listing_concrete hv' hrole, List.map_cons]
      exact congrArg _ hbelow
    | fragment cs =>
      rw [hrv] at hrole
      obtain ⟨h, e, rfl, he, -, rfl⟩ := roleOf_eq_fragment hrv
      have hinside := ih h e hmem he (hv'.of_fragment hrole) fun m hm => (hp h hmem).child he hm
      rw [listing_fragment hv hrv, listing_fragment hv' hrole, hinside]

end Walks

end Renames

end ViewGraph
