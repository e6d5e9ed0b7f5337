import Mathlib.Logic.Relation
import ViewGraph.Builder

/-!
# Brackets around children

Arguments may stand in lists and tuples, which may stand in others.  The children of a new element are those that
its leaves stand for, so it does not matter where the brackets are.  A number with too many digits among the leaves
is refused, wherever it stands.

* `leaves`, `leavesOf`: what stands in nested lists, from left to right.
* `child?`, `isShownLeaf`: the child that a leaf stands for, if it is no number with too many digits.
* `Bracketed args args'`: one more pair of brackets, at any depth and around any run of arguments.
* `flatten_eq`: the children are those that the leaves stand for.
* `eqvGen_bracketed_iff`: brackets can be set and dropped until two lists of arguments are one exactly if their
  leaves are the same.
* `brackets_immaterial`: so the children are the same, also if the last arguments are given as an attribute.
-/

namespace ViewGraph.Builder

open Relation (EqvGen)

/-! ### Definitions -/

mutual

/-- What stands in an argument that may be a list of arguments. -/
def leaves : Value → List Value
  | .list items => leavesOf items
  | .tuple items => leavesOf items
  | v => [v]

/-- What stands in some arguments, from left to right. -/
def leavesOf : List Value → List Value
  | [] => []
  | v :: rest => leaves v ++ leavesOf rest

end

/-- The child that a leaf stands for: a number for its numeral, nulls and truth values for none. -/
def child? : Value → Option Value
  | .null => none
  | .bool _ => none
  | .int n => some (.str (String.ofList (writeInt n)))
  | .float x => some (.str (String.ofList x.text))
  | v => some v

/-- Does a leaf have a text, if it has to have one? A number with too many digits has none. -/
def isShownLeaf : Value → Bool
  | .int n => (writeNat n.natAbs).length ≤ maxDigits
  | _ => true

/-- The names of the kinds of values that hold arguments. -/
def bracketKinds : List String := ["list", "tuple"]

/-- The names of the kinds of values that are no children. -/
def looseKinds : List String := ["NoneType", "bool", "int", "float"] ++ bracketKinds

/-- The two kinds of brackets. -/
inductive Bracket
  | list
  | tuple

def Bracket.around : Bracket → List Value → Value
  | list, items => .list items
  | tuple, items => .tuple items

/-- One more pair of brackets: around a run of arguments, which may be empty, or inside another pair. -/
inductive Bracketed : List Value → List Value → Prop
  | here (b : Bracket) (before run after : List Value) :
      Bracketed (before ++ run ++ after) (before ++ b.around run :: after)
  | inside (b : Bracket) (before after : List Value) {items items' : List Value} (h : Bracketed items items') :
      Bracketed (before ++ b.around items :: after) (before ++ b.around items' :: after)

/-! ### Leaves -/

@[simp] theorem leavesOf_nil : leavesOf [] = [] := rfl

@[simp] theorem leavesOf_cons (v : Value) (rest : List Value) :
    leavesOf (v :: rest) = leaves v ++ leavesOf rest := rfl

@[simp] theorem leaves_around (b : Bracket) (items : List Value) : leaves (b.around items) = leavesOf items := by
  cases b <;> rfl

@[simp] theorem leavesOf_append (xs ys : List Value) : leavesOf (xs ++ ys) = leavesOf xs ++ leavesOf ys := by
  induction xs with
  | nil => rfl
  | cons x xs ih => simp [ih]

theorem leavesOf_of_bracketed {xs ys : List Value} (h : Bracketed xs ys) : leavesOf xs = leavesOf ys := by
  induction h with
  | here b before run after => simp
  | inside b before after _ ih => simp [ih]

/-! ### Moving brackets -/

theorem Bracketed.append {xs ys : List Value} (h : Bracketed xs ys) (before after : List Value) :
    Bracketed (before ++ xs ++ after) (before ++ ys ++ after) := by
  cases h with
  | here b front run back => simpa using Bracketed.here b (before ++ front) run (back ++ after)
  | inside b front back h => simpa using Bracketed.inside b (before ++ front) (back ++ after) h

theorem eqvGen_append {xs ys : List Value} (h : EqvGen Bracketed xs ys) (before after : List Value) :
    EqvGen Bracketed (before ++ xs ++ after) (before ++ ys ++ after) := by
  induction h with
  | rel xs ys h => exact .rel _ _ (h.append before after)
  | refl xs => exact .refl _
  | symm xs ys _ ih => exact .symm _ _ ih
  | trans xs ys zs _ _ ihxy ihyz => exact .trans _ _ _ ihxy ihyz

theorem eqvGen_around (b : Bracket) (items : List Value) : EqvGen Bracketed [b.around items] items :=
  .symm _ _ (.rel _ _ (by simpa using Bracketed.here b [] items []))

mutual

/-- The brackets of an argument can be dropped, one pair after the other. -/
theorem eqvGen_leaves (v : Value) : EqvGen Bracketed [v] (leaves v) := by
  cases v with
  | list items => exact .trans _ _ _ (eqvGen_around .list items) (eqvGen_leavesOf items)
  | tuple items => exact .trans _ _ _ (eqvGen_around .tuple items) (eqvGen_leavesOf items)
  | _ => exact .refl _

theorem eqvGen_leavesOf (vs : List Value) : EqvGen Bracketed vs (leavesOf vs) := by
  cases vs with
  | nil => exact .refl _
  | cons v rest =>
    have hfirst : EqvGen Bracketed (v :: rest) (leaves v ++ rest) := by
      simpa using eqvGen_append (eqvGen_leaves v) [] rest
    have hrest : EqvGen Bracketed (leaves v ++ rest) (leaves v ++ leavesOf rest) := by
      simpa using eqvGen_append (eqvGen_leavesOf rest) (leaves v) []
    exact .trans _ _ _ hfirst hrest

end

/-- **Brackets.** Setting and dropping brackets leads from one list of arguments to another exactly if they have
the same leaves in the same order. -/
theorem eqvGen_bracketed_iff {xs ys : List Value} : EqvGen Bracketed xs ys ↔ leavesOf xs = leavesOf ys := by
  constructor
  · intro h
    induction h with
    | rel xs ys h => exact leavesOf_of_bracketed h
    | refl xs => rfl
    | symm xs ys _ ih => exact ih.symm
    | trans xs ys zs _ _ ihxy ihyz => exact ihxy.trans ihyz
  · intro h
    have hxs := eqvGen_leavesOf xs
    rw [h] at hxs
    exact .trans _ _ _ hxs (.symm _ _ (eqvGen_leavesOf ys))

/-! ### Children -/

theorem bracketKinds_subset : bracketKinds ⊆ looseKinds := List.subset_append_right _ _

theorem wrapperName_notMem_looseKinds (kind : Wrapper) : Value.wrapperName kind ∉ looseKinds := by
  cases kind <;> decide

mutual

/-- A leaf is no list. -/
theorem typeName_of_mem_leaves {v w : Value} (h : w ∈ leaves v) : w.typeName ∉ bracketKinds := by
  cases v with
  | list items => exact typeName_of_mem_leavesOf h
  | tuple items => exact typeName_of_mem_leavesOf h
  | wrapped kind payload =>
    rw [List.mem_singleton.mp h]
    exact fun hmem => wrapperName_notMem_looseKinds kind (bracketKinds_subset hmem)
  | _ =>
    rw [List.mem_singleton.mp h]
    simp [Value.typeName, bracketKinds]

theorem typeName_of_mem_leavesOf {vs : List Value} {w : Value} (h : w ∈ leavesOf vs) :
    w.typeName ∉ bracketKinds := by
  cases vs with
  | nil => exact absurd h List.not_mem_nil
  | cons v rest =>
    rcases List.mem_append.mp h with hv | hrest
    · exact typeName_of_mem_leaves hv
    · exact typeName_of_mem_leavesOf hrest

end

/-- The children that some leaves stand for, unless one of the leaves has no text. -/
def childrenOf (ls : List Value) : Shown (List Value) :=
  if ls.all isShownLeaf then .ok (ls.filterMap child?) else .error {}

theorem childrenOf_append (xs ys : List Value) : childrenOf (xs ++ ys) = do
    let children ← childrenOf xs
    let more ← childrenOf ys
    return children ++ more := by
  simp only [childrenOf, List.all_append, List.filterMap_append]
  cases xs.all isShownLeaf <;> cases ys.all isShownLeaf <;> rfl

mutual

/-- **One argument.** An argument gives the children that its leaves stand for. -/
theorem flattenOne_eq (v : Value) : flattenOne v = childrenOf (leaves v) := by
  cases v with
  | list items => exact flatten_eq items
  | tuple items => exact flatten_eq items
  | int n =>
    simp only [flattenOne, showInt, leaves, childrenOf, List.all_cons, List.all_nil, isShownLeaf, Bool.and_true,
      decide_eq_true_iff]
    split <;> rfl
  | _ => rfl

/-- **Arguments.** Arguments give the children that their leaves stand for. -/
theorem flatten_eq (vs : List Value) : flatten vs = childrenOf (leavesOf vs) := by
  cases vs with
  | nil => rfl
  | cons v rest => rw [flatten, leavesOf_cons, childrenOf_append, flattenOne_eq, flatten_eq]

end

/-- The child that a leaf stands for is of a kind of its own. -/
theorem typeName_of_child? {w c : Value} (hw : w.typeName ∉ bracketKinds) (hc : child? w = some c) :
    c.typeName ∉ looseKinds := by
  cases w with
  | null => simp [child?] at hc
  | bool b => simp [child?] at hc
  | list items => simp [Value.typeName, bracketKinds] at hw
  | tuple items => simp [Value.typeName, bracketKinds] at hw
  | wrapped kind payload =>
    obtain rfl := Option.some.inj hc
    exact wrapperName_notMem_looseKinds kind
  | _ =>
    obtain rfl := Option.some.inj hc
    simp [Value.typeName, looseKinds, bracketKinds]

theorem typeName_of_mem_flatten {vs cs : List Value} (h : flatten vs = .ok cs) {c : Value} (hc : c ∈ cs) :
    c.typeName ∉ looseKinds := by
  rw [flatten_eq, childrenOf] at h
  split at h
  · obtain rfl := Except.ok.inj h
    obtain ⟨w, hw, hchild⟩ := List.mem_filterMap.mp hc
    exact typeName_of_child? (typeName_of_mem_leavesOf hw) hchild
  · cases h

/-- A child that is passed as an argument stands for itself. -/
theorem flattenOne_of_typeName {c : Value} (hc : c.typeName ∉ looseKinds) : flattenOne c = .ok [c] := by
  cases c with
  | null | bool | int | float | list | tuple => simp [Value.typeName, looseKinds, bracketKinds] at hc
  | _ => rfl

theorem flatten_of_typeName {cs : List Value} (hcs : ∀ c ∈ cs, c.typeName ∉ looseKinds) :
    flatten cs = .ok cs := by
  induction cs with
  | nil => rfl
  | cons c cs ih =>
    obtain ⟨hc, hrest⟩ := List.forall_mem_cons.mp hcs
    rw [flatten, flattenOne_of_typeName hc, ih hrest]
    rfl

/-! ### Elements -/

section Element

variable {props : List (String × Value)}

theorem map_children_bind (r : Shown (List Value)) (component : Value) (props : List (String × Value)) :
    Element.children <$> (do let children ← r; return Element.mk component props children) = r := by
  cases r <;> rfl

/-- The children of an element are what its arguments and its attribute `children` stand for. -/
theorem element_children (component : Value) (props : List (String × Value)) (args : List Value) :
    Element.children <$> element component props args =
      flatten (args ++ [(Table.find? Element.childrenAttribute props).getD .null]) := by
  have hnull : flatten (args ++ [.null]) = flatten args := by
    rw [flatten_append, flatten_singleton, flattenOne]
    cases flatten args <;> simp [Bind.bind, Except.bind, pure, Except.pure]
  simp only [element, map_children_bind]
  cases (Table.find? Element.childrenAttribute props).getD .null with
  | null => rw [hnull, List.append_nil]
  | _ => rfl

theorem element_children_of_none (component : Value) (hnone : Table.find? Element.childrenAttribute props = none)
    (args : List Value) : Element.children <$> element component props args = flatten args := by
  rw [element_children, hnone, flatten_eq, flatten_eq, leavesOf_append, childrenOf_append]
  cases childrenOf (leavesOf args) <;>
    simp [leaves, childrenOf, isShownLeaf, child?, Bind.bind, Except.bind, pure, Except.pure]

/-- The last arguments may as well be given as an attribute. -/
theorem element_children_insert (component : Value) (hnone : Table.find? Element.childrenAttribute props = none)
    (b : Bracket) (kept moved : List Value) :
    Element.children <$> element component (Table.insert Element.childrenAttribute (b.around moved) props) kept =
      Element.children <$> element component props (kept ++ moved) := by
  rw [element_children, Table.find?_insert_self, Option.getD_some, element_children_of_none component hnone]
  rw [flatten_eq, flatten_eq]
  simp

end Element

/-- **Brackets do not matter.** The children of a new element are those that the leaves of its arguments, and then
of its attribute `children`, stand for: a number for its numeral, a null or a truth value for none, and any other
leaf for itself.  There is no element if a number among the leaves has too many digits.  So no child is a null, a
truth value, a number or a list, and the children, or their refusal, stay as they are when brackets are set or
dropped anywhere, which leads to just the arguments with the same leaves; when the last arguments are given as the
attribute instead; and when they are themselves the arguments of an element. -/
theorem brackets_immaterial (component : Value) (props : List (String × Value)) (args : List Value) :
    Element.children <$> element component props args =
        childrenOf (leavesOf (args ++ [(Table.find? Element.childrenAttribute props).getD .null])) ∧
      (∀ e, element component props args = .ok e → ∀ c ∈ e.children, c.typeName ∉ looseKinds) ∧
      (∀ args', EqvGen Bracketed args args' ↔ leavesOf args = leavesOf args') ∧
      (∀ args', EqvGen Bracketed args args' →
        Element.children <$> element component props args' = Element.children <$> element component props args) ∧
      (Table.find? Element.childrenAttribute props = none → ∀ (b : Bracket) (kept moved : List Value),
        args = kept ++ moved →
        Element.children <$> element component (Table.insert Element.childrenAttribute (b.around moved) props) kept =
          Element.children <$> element component props args) ∧
      ∀ e, element component props args = .ok e →
        ∀ component' props', Table.find? Element.childrenAttribute props' = none →
          Element.children <$> element component' props' e.children = .ok e.children := by
  have hkinds : ∀ e, element component props args = .ok e → ∀ c ∈ e.children, c.typeName ∉ looseKinds := by
    intro e he c hc
    have hchildren := element_children component props args
    rw [he] at hchildren
    exact typeName_of_mem_flatten hchildren.symm hc
  refine ⟨by rw [element_children, flatten_eq], hkinds, fun args' => eqvGen_bracketed_iff, ?_, ?_, ?_⟩
  · intro args' hargs
    have hleaves := eqvGen_bracketed_iff.mp hargs
    rw [element_children, element_children, flatten_append, flatten_append, flatten_eq args, hleaves,
      ← flatten_eq]
  · rintro hnone b kept moved rfl
    exact element_children_insert component hnone b kept moved
  · intro e he component' props' hnone
    rw [element_children_of_none component' hnone, flatten_of_typeName (hkinds e he)]

/-- A text, and behind it a number and an element in brackets, with what is no child among them. -/
def nestedArguments : List Value :=
  [.str "a", .list [.null, .tuple [.int 1, .list [.bool true]], .list []], .tuple [.element ⟨0⟩]]

/-- The same without brackets. -/
def flatArguments : List Value := [.str "a", .null, .int 1, .bool true, .element ⟨0⟩]

theorem brackets_immaterial_nestedArguments :
    let children : List Value := [.str "a", .str "1", .element ⟨0⟩]
    leavesOf nestedArguments = leavesOf flatArguments ∧ EqvGen Bracketed nestedArguments flatArguments ∧
    Element.children <$> element (.str "Box") [] nestedArguments = .ok children ∧
    Element.children <$> element (.str "Box") [] flatArguments = .ok children ∧
    Element.children <$> element (.str "Box") [("children", .list (nestedArguments.drop 1))] [.str "a"] =
      .ok children ∧
    Element.children <$> element (.str "Text") [] children = .ok children := by
  obtain ⟨hchildren, -, hleaves, hbrackets, hmoved, hagain⟩ :=
    brackets_immaterial (.str "Box") [] nestedArguments
  have hsame : leavesOf nestedArguments = leavesOf flatArguments := rfl
  have hthree : Element.children <$> element (.str "Box") [] nestedArguments =
      .ok [.str "a", .str "1", .element ⟨0⟩] := hchildren.trans rfl
  refine ⟨hsame, (hleaves _).mpr hsame, hthree, ?_, ?_, ?_⟩
  · exact (hbrackets _ ((hleaves _).mpr hsame)).trans hthree
  · exact (hmoved rfl .list [.str "a"] (nestedArguments.drop 1) rfl).trans hthree
  · exact hagain ⟨.str "Box", [], [.str "a", .str "1", .element ⟨0⟩]⟩ rfl (.str "Text") [] rfl

end ViewGraph.Builder
