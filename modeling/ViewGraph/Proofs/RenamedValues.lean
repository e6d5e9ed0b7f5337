import ViewGraph.Graph.Role
import ViewGraph.Proofs.Tables
import ViewGraph.Value.Typed

/-!
# Renamed values

A value can hold elements, which are named by their handles. Whatever is asked of a value, the answer does not
depend on these names.

* `Value.rename σ`: a value with the elements in it renamed.
* `Value.held`: the elements that a value holds.
* `rename_eq_self`: a value in which no element gets another name stays as it is.
* `inner_rename`, `display_rename`: a renamed value shows as the value does, if its elements do.
* `items?_rename`, `leaf?_rename`, `find?_renameMembers`: its items, the leaf that it is, and its members.
-/

namespace ViewGraph

namespace Value

/-! ### Definitions -/

mutual

/-- A value with the elements in it renamed. -/
def rename (σ : Handle → Handle) : Value → Value
  | list items => list (renameAll σ items)
  | tuple items => tuple (renameAll σ items)
  | dict members => dict (renameMembers σ members)
  | wrapped kind payload => wrapped kind (rename σ payload)
  | action args code => action (rename σ args) (rename σ code)
  | page target anchor => page (rename σ target) (rename σ anchor)
  | style property value state => style property (rename σ value) state
  | component name => component (rename σ name)
  | .element h => .element (σ h)
  | v => v

def renameAll (σ : Handle → Handle) : List Value → List Value
  | [] => []
  | v :: rest => rename σ v :: renameAll σ rest

def renameMembers (σ : Handle → Handle) : List (String × Value) → List (String × Value)
  | [] => []
  | (name, v) :: rest => (name, rename σ v) :: renameMembers σ rest

end

mutual

/-- The elements that a value holds, at each place where it holds them. -/
def held : Value → List Handle
  | list items => heldAll items
  | tuple items => heldAll items
  | dict members => heldMembers members
  | wrapped _ payload => held payload
  | action args code => held args ++ held code
  | page target anchor => held target ++ held anchor
  | style _ value _ => held value
  | component name => held name
  | .element h => [h]
  | _ => []

def heldAll : List Value → List Handle
  | [] => []
  | v :: rest => held v ++ heldAll rest

def heldMembers : List (String × Value) → List Handle
  | [] => []
  | (_, v) :: rest => held v ++ heldMembers rest

end

variable {σ : Handle → Handle}

/-! ### Parts -/

theorem renameAll_eq_map (vs : List Value) : renameAll σ vs = vs.map (rename σ) := by
  induction vs with
  | nil => rfl
  | cons v vs ih => rw [renameAll, ih, List.map_cons]

theorem renameMembers_eq_map (members : List (String × Value)) :
    renameMembers σ members = members.map fun (name, v) => (name, v.rename σ) := by
  induction members with
  | nil => rfl
  | cons a rest ih => rw [renameMembers, ih, List.map_cons]

theorem mem_heldAll {vs : List Value} {h : Handle} : h ∈ heldAll vs ↔ ∃ v ∈ vs, h ∈ v.held := by
  induction vs with
  | nil => simp [heldAll]
  | cons v vs ih => simp [heldAll, ih]

theorem mem_heldMembers {members : List (String × Value)} {h : Handle} :
    h ∈ heldMembers members ↔ ∃ a ∈ members, h ∈ a.2.held := by
  induction members with
  | nil => simp [heldMembers]
  | cons a rest ih =>
    obtain ⟨name, v⟩ := a
    simp [heldMembers, ih]

/-- A name stands for the renamed value. -/
theorem find?_renameMembers (name : String) (members : List (String × Value)) :
    Table.find? name (renameMembers σ members) = (Table.find? name members).map (rename σ) := by
  rw [renameMembers_eq_map, Table.find?_mapValues]

/-! ### Values that stay as they are -/

mutual

/-- A value in which no element gets another name stays as it is. -/
theorem rename_eq_self : ∀ v : Value, (∀ h ∈ v.held, σ h = h) → v.rename σ = v
  | null, _ => rfl
  | bool _, _ => rfl
  | int _, _ => rfl
  | float _, _ => rfl
  | str _, _ => rfl
  | list items, h => by rw [rename, renameAll_eq_self items h]
  | tuple items, h => by rw [rename, renameAll_eq_self items h]
  | dict members, h => by rw [rename, renameMembers_eq_self members h]
  | wrapped _ payload, h => by rw [rename, rename_eq_self payload h]
  | action args code, h => by
    obtain ⟨hargs, hcode⟩ := List.forall_mem_append.mp h
    rw [rename, rename_eq_self args hargs, rename_eq_self code hcode]
  | page target anchor, h => by
    obtain ⟨htarget, hanchor⟩ := List.forall_mem_append.mp h
    rw [rename, rename_eq_self target htarget, rename_eq_self anchor hanchor]
  | style _ value _, h => by rw [rename, rename_eq_self value h]
  | fragment, _ => rfl
  | component name, h => by rw [rename, rename_eq_self name h]
  | .element k, h => by rw [rename, h k List.mem_cons_self]

theorem renameAll_eq_self : ∀ vs : List Value, (∀ h ∈ heldAll vs, σ h = h) → renameAll σ vs = vs
  | [], _ => rfl
  | v :: rest, h => by
    obtain ⟨hv, hrest⟩ := List.forall_mem_append.mp h
    rw [renameAll, rename_eq_self v hv, renameAll_eq_self rest hrest]

theorem renameMembers_eq_self : ∀ members : List (String × Value),
    (∀ h ∈ heldMembers members, σ h = h) → renameMembers σ members = members
  | [], _ => rfl
  | (_, v) :: rest, h => by
    obtain ⟨hv, hrest⟩ := List.forall_mem_append.mp h
    rw [renameMembers, rename_eq_self v hv, renameMembers_eq_self rest hrest]

end

/-! ### What a value is -/

@[simp] theorem isTrue_rename (v : Value) : (v.rename σ).isTrue = v.isTrue := by
  cases v with
  | list items => simp [rename, isTrue, renameAll_eq_map]
  | tuple items => simp [rename, isTrue, renameAll_eq_map]
  | dict members => simp [rename, isTrue, renameMembers_eq_map]
  | _ => rfl

/-- The items of a value are renamed with it. -/
theorem items?_rename (v : Value) : (v.rename σ).items? = v.items?.map (renameAll σ) := by
  have hstr : ∀ texts : List String, renameAll σ (texts.map str) = texts.map str := by
    intro texts
    rw [renameAll_eq_map, List.map_map]
    rfl
  cases v with
  | str s =>
    have := hstr (s.toList.map String.singleton)
    rw [List.map_map] at this
    exact congrArg some this.symm
  | dict members =>
    have := hstr (members.map (·.1))
    rw [List.map_map] at this
    simp only [rename, items?, Option.map_some, renameMembers_eq_map, List.map_map]
    exact congrArg some this.symm
  | style property value state => cases state <;> rfl
  | _ => rfl

end Value

/-- A leaf with the elements in it renamed. -/
def Leaf.rename (σ : Handle → Handle) : Leaf → Leaf
  | .text s => .text s
  | .placeholder payload => .placeholder (payload.rename σ)
  | .expression payload => .expression (payload.rename σ)

namespace Value

variable {σ : Handle → Handle}

/-- A renamed value is a leaf exactly if the value is. -/
theorem leaf?_rename (v : Value) : (v.rename σ).leaf? = v.leaf?.map (Leaf.rename σ) := by
  cases v with
  | wrapped kind payload => cases kind <;> rfl
  | _ => rfl

/-! ### What a value shows -/

section Display

variable {shown shown' : Handle → Shown (List Char)}

mutual

/-- **Display.** A renamed value shows as the value does, if the elements in it do. -/
theorem inner_rename : ∀ v : Value, (∀ h ∈ v.held, shown' (σ h) = shown h) →
    inner shown' (v.rename σ) = inner shown v
  | null, _ => rfl
  | bool _, _ => rfl
  | int _, _ => rfl
  | float _, _ => rfl
  | str _, _ => rfl
  | list items, h => by rw [rename, inner, inner, inners_rename items h]
  | tuple items, h => by
    rw [rename, inner, inner, inners_rename items h, renameAll_eq_map, List.length_map]
  | dict members, h => by rw [rename, inner, inner, innerMembers_rename members h]
  | wrapped _ payload, h => by rw [rename, inner, inner, inner_rename payload h]
  | action args code, h => by
    obtain ⟨hargs, hcode⟩ := List.forall_mem_append.mp h
    rw [rename, inner, inner, inner_rename args hargs, inner_rename code hcode]
  | page target anchor, h => by
    obtain ⟨htarget, hanchor⟩ := List.forall_mem_append.mp h
    rw [rename, inner, inner, inner_rename target htarget, inner_rename anchor hanchor]
  | style _ value _, h => by rw [rename, inner, inner, inner_rename value h]
  | fragment, _ => rfl
  | component name, h => by rw [rename, inner, inner, inner_rename name h]
  | .element k, h => by rw [rename, inner, inner, h k List.mem_cons_self]

theorem inners_rename : ∀ vs : List Value, (∀ h ∈ heldAll vs, shown' (σ h) = shown h) →
    inners shown' (renameAll σ vs) = inners shown vs
  | [], _ => rfl
  | v :: rest, h => by
    obtain ⟨hv, hrest⟩ := List.forall_mem_append.mp h
    rw [renameAll, inners, inners, inner_rename v hv, inners_rename rest hrest]

theorem innerMembers_rename : ∀ members : List (String × Value),
    (∀ h ∈ heldMembers members, shown' (σ h) = shown h) →
      innerMembers shown' (renameMembers σ members) = innerMembers shown members
  | [], _ => rfl
  | (_, v) :: rest, h => by
    obtain ⟨hv, hrest⟩ := List.forall_mem_append.mp h
    rw [renameMembers, innerMembers, innerMembers, inner_rename v hv, innerMembers_rename rest hrest]

end

theorem display_rename (v : Value) (h : ∀ k ∈ v.held, shown' (σ k) = shown k) :
    display shown' (v.rename σ) = display shown v := by
  have hinner := inner_rename v h
  cases v with
  | str s => rfl
  | style property value state =>
    have hvalue := inner_rename value h
    simp only [rename, display, hvalue]
  | _ => exact hinner

end Display

end Value

end ViewGraph
