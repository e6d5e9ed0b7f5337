import ViewGraph.Proofs.Planting

/-!
# Declarations in a document

Style declarations are written in the nodes of a document.  A fragment has none of its own, but the nodes in
it do.

* `Document.declared doc`: the declarations that are written in a document, in pre-order of its nodes.
* `declared_of_loadLeaf?`: there are none in a leaf.
* `styleItemsIn_of_loadProps`: loading leaves those of a node as they are.
* `declared_of_loads`: the declarations of a document are those in the attributes of its tree.
-/

namespace ViewGraph

/-! ### Definitions -/

/-- The items of the style attribute. -/
def styleItemsIn (props : List (String × Value)) : List Value :=
  match Table.find? Element.styleAttribute props with
  | some (.list items) => items
  | _ => []

namespace Document

/-- The declarations that are written in a node itself. A fragment has none. -/
def ownDeclarations (members : List (String × Value)) : List Value :=
  match Table.find? "component" members, Table.find? "props" members with
  | some (.str name), some (.dict props) => if name = fragmentComponent then [] else styleItemsIn props
  | _, _ => []

mutual

/-- The declarations that are written in the nodes of a document, in pre-order. -/
def declared : Value → List Value
  | .list items => declaredAmong items
  | .dict members => ownDeclarations members ++ declaredBelow members
  | _ => []

/-- The declarations below a node, which are those among its children. -/
def declaredBelow : List (String × Value) → List Value
  | [] => []
  | (name, v) :: rest =>
    if name = "children" then
      match v with
      | .list items => declaredAmong items
      | _ => []
    else declaredBelow rest

def declaredAmong : List Value → List Value
  | [] => []
  | v :: rest => declared v ++ declaredAmong rest

end

/-! ### From the document to the tree -/

theorem declaredBelow_eq (members : List (String × Value)) :
    declaredBelow members = declaredAmong (childItems members) := by
  induction members with
  | nil => rfl
  | cons a rest ih =>
    obtain ⟨name, v⟩ := a
    unfold childItems
    rw [Table.find?_cons]
    by_cases hname : name = "children"
    · subst hname
      rw [if_pos rfl]
      cases v <;> simp [declaredBelow, declaredAmong]
    · rw [if_neg fun heq => hname heq.symm, ← childItems, ← ih]
      cases v <;> simp [declaredBelow, hname]

theorem declaredAmong_present (items : List Value) : declaredAmong (present items) = declaredAmong items := by
  induction items with
  | nil => rfl
  | cons v rest ih =>
    rw [present_cons]
    split_ifs with hnull
    · cases v with
      | null => simp [ih, declaredAmong, declared]
      | _ => simp [Value.isNull] at hnull
    · rw [declaredAmong, declaredAmong, ih]

theorem tagged?_eq_some {v payload : Value} {tag : String} (h : tagged? v = some (tag, payload)) :
    v = .dict [(tag, payload)] ∧ tag.startsWith "$" = true := by
  unfold tagged? at h
  split at h
  · split_ifs at h with htag
    obtain ⟨rfl, rfl⟩ := Prod.mk.inj (Option.some.inj h)
    exact ⟨rfl, htag⟩
  · simp at h

/-- A tag is no name of a member of a node. -/
theorem find?_of_tagged? {members : List (String × Value)} {t : String × Value}
    (h : tagged? (.dict members) = some t) {name : String} (hname : name.startsWith "$" = false) :
    Table.find? name members = none := by
  obtain ⟨heq, htag⟩ := tagged?_eq_some h
  obtain rfl := Value.dict.inj heq
  have hne : name ≠ t.1 := by
    rintro rfl
    exact absurd (hname.symm.trans htag) (by decide)
  rw [Table.find?_cons, if_neg hne]
  rfl

/-- A leaf that is a table has no component, and no children. -/
theorem find?_of_loadLeaf? {members : List (String × Value)} {r : Loading Value}
    (h : loadLeaf? (.dict members) = some r) :
    Table.find? "component" members = none ∧ childItems members = [] := by
  obtain ⟨t, htagged, -⟩ := Option.map_eq_some_iff.mp h
  refine ⟨find?_of_tagged? htagged (by decide +kernel), ?_⟩
  rw [childItems, find?_of_tagged? htagged (by decide +kernel)]

/-- Nothing is declared in a leaf. -/
theorem declared_of_loadLeaf? {v w : Value} (h : loadLeaf? v = some (.ok w)) : declared v = [] := by
  cases v with
  | dict members =>
    obtain ⟨hcomponent, hchildren⟩ := find?_of_loadLeaf? h
    rw [declared, declaredBelow_eq, ownDeclarations, hcomponent, hchildren]
    rfl
  | list items => simp [loadLeaf?, tagged?] at h
  | _ => rfl

/-- Loading leaves the items of the style attribute as they are. -/
theorem styleItemsIn_of_loadProps {given props : List (String × Value)} (hchecked : checkReserved given = .ok ())
    (hprops : loadProps given = .ok props) : styleItemsIn props = styleItemsIn given := by
  have hsame : Table.find? Element.styleAttribute props = Table.find? Element.styleAttribute given := by
    cases hgiven : Table.find? Element.styleAttribute given with
    | none =>
      refine Option.eq_none_iff_forall_ne_some.mpr fun w hw => ?_
      obtain ⟨v, hv, -⟩ := (find?_of_loadProps hprops).mp hw
      simp [hgiven] at hv
    | some v =>
      refine (find?_of_loadProps hprops).mpr ⟨v, hgiven, loadValue_eq_self fun members => ?_⟩
      rcases styles_of_checkReserved hchecked hgiven with rfl | ⟨items, rfl, -⟩ <;> simp
  unfold styleItemsIn
  rw [hsame]

theorem ownDeclarations_eq {members given : List (String × Value)} {name : String}
    (hname : Table.find? "component" members = some (.str name)) (hgiven : propsOf members = .ok given) :
    ownDeclarations members = if name = fragmentComponent then [] else styleItemsIn given := by
  unfold ownDeclarations
  unfold propsOf at hgiven
  rw [hname]
  split at hgiven
  · rename_i props hprops
    obtain rfl := Except.ok.inj hgiven
    cases hfind : Table.find? "props" members with
    | none => simp [hfind] at hprops
    | some v =>
      obtain rfl : v = .dict props := by simpa [hfind] using hprops
      rfl
  · rename_i hnone
    split_ifs at hgiven
    · simp at hgiven
    · obtain rfl := Except.ok.inj hgiven
      cases hfind : Table.find? "props" members with
      | none => simp [styleItemsIn, Table.find?]
      | some v =>
        cases v with
        | dict props => exact absurd (by rw [hfind]; rfl) (hnone props)
        | _ => simp [styleItemsIn, Table.find?]

theorem isFragment_componentOf (name : String) (props : List (String × Value)) :
    (Element.mk (componentOf name) props []).isFragment = true ↔ name = fragmentComponent := by
  unfold componentOf
  split_ifs with h
  · exact ⟨fun _ => h, fun _ => rfl⟩
  · exact ⟨nofun, fun heq => absurd heq h⟩

mutual

/-- **Loading.** The declarations of a document are those in the attributes of its tree. -/
theorem declared_of_loads : ∀ (t : Tree) {v : Value}, Loads v t →
    t.attributes.flatMap styleItemsIn = declared v
  | .leaf w, v, h => by
    cases h with
    | leaf hleaf =>
      rw [declared_of_loadLeaf? hleaf]
      rfl
  | .node component props ts, v, h => by
    cases h with
    | fragment hts =>
      have hfragment : (Element.mk .fragment [] []).isFragment = true := rfl
      rw [Tree.attributes, if_pos hfragment, declared_of_loadsAll ts hts, declaredAmong_present, declared]
    | @node members given _ name _ hname hgiven hchecked hprops hts =>
      rw [declared, ownDeclarations_eq hname hgiven, declaredBelow_eq, ← declaredAmong_present,
        ← declared_of_loadsAll ts hts, Tree.attributes]
      by_cases hfragment : name = fragmentComponent
      · rw [if_pos hfragment, if_pos ((isFragment_componentOf name props).mpr hfragment), List.nil_append]
      · rw [if_neg hfragment, if_neg fun h => hfragment ((isFragment_componentOf name props).mp h),
          List.flatMap_cons, styleItemsIn_of_loadProps hchecked hprops]

theorem declared_of_loadsAll : ∀ (ts : List Tree) {vs : List Value}, List.Forall₂ Loads vs ts →
    (Tree.allAttributes ts).flatMap styleItemsIn = declaredAmong vs
  | [], _, h => by
    cases h
    rfl
  | t :: ts, _, h => by
    cases h with
    | cons ht hts =>
      rw [Tree.allAttributes, List.flatMap_append, declared_of_loads t ht, declared_of_loadsAll ts hts,
        declaredAmong]

end

end Document

end ViewGraph
