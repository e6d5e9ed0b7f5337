import Mathlib.Data.List.Basic
import ViewGraph.Proofs.Reachability

/-!
# Spliced children

The children of an element with all fragments spliced, and the walk over a graph in which fragments
are transparent.

* `spliced vs`: each fragment among `vs` gives way to its own spliced children without the leaves, and
  what is no child falls away.
* `structural vs`: the elements among the spliced children.
* `listing vs`: depth first, from left to right and each before what is below it, all elements met that
  are no fragments; an element is met at each place where it stands.
* `splice`: the graph with the children of every element spliced.

Both walks are cut off at the depth of the graph.  Where the levels are no more than that, the cut
is never reached, and they satisfy the equations that one would define them by.
-/

namespace ViewGraph

namespace Graph

open Relation

variable {g : Graph}

/-! ### Definitions -/

section Defs

variable (g)

/-- `spliced`, cut off below some level. -/
def splicedUpTo : ℕ → List Value → List Value
  | 0, _ => []
  | n + 1, vs => vs.flatMap fun v =>
    match g.roleOf v with
    | .leaf _ => [v]
    | .fragment children => (splicedUpTo n children).filter fun w => !w.isLeaf
    | .concrete _ _ => [v]
    | .unsupported => []

/-- Children with all fragments spliced. -/
def spliced (vs : List Value) : List Value := g.splicedUpTo g.depth vs

/-- The elements among children with all fragments spliced. -/
def structural (vs : List Value) : List Handle := (g.spliced vs).filterMap Value.handle?

/-- `listing`, cut off below some level. -/
def listingUpTo : ℕ → List Value → List Handle
  | 0, _ => []
  | n + 1, vs => vs.flatMap fun v =>
    match g.roleOf v with
    | .leaf _ => []
    | .fragment children => listingUpTo n children
    | .concrete h e => h :: listingUpTo n e.children
    | .unsupported => []

/-- The elements met on a walk over some values, fragments left out: depth first, from left to right,
each before what is below it. -/
def listing (vs : List Value) : List Handle := g.listingUpTo g.depth vs

/-- The graph with the children of every element spliced. -/
def splice : Graph := ⟨g.nodes.map fun e => { e with children := g.spliced e.children }⟩

end Defs

/-! ### Induction over levels -/

theorem Grounded.subset {vs ws : List Value} (h : g.Grounded vs) (hs : ws ⊆ vs) : g.Grounded ws :=
  Nested.subset h hs

theorem Grounded.head {v : Value} {vs : List Value} (h : g.Grounded (v :: vs)) : g.Grounded [v] :=
  h.subset (by simp)

theorem Grounded.tail {v : Value} {vs : List Value} (h : g.Grounded (v :: vs)) : g.Grounded vs :=
  h.subset (by simp)

theorem Grounded.children {vs : List Value} (h : g.Grounded vs) {k : Handle} {e : Element}
    (hk : .element k ∈ vs) (he : g.find? k = some e) : g.Grounded e.children := by
  obtain ⟨m, hm, hn⟩ := Nested.children h hk he
  exact hn.mono (by omega)

/-- What holds of some values if it holds of the children of each element among them, holds of all
values that are grounded. -/
theorem Grounded.rec_children {motive : (vs : List Value) → g.Grounded vs → Prop}
    (step : ∀ (vs : List Value) (hg : g.Grounded vs),
      (∀ h e (hh : .element h ∈ vs) (he : g.find? h = some e),
        motive e.children (hg.children hh he)) → motive vs hg)
    {vs : List Value} (hvs : g.Grounded vs) : motive vs hvs := by
  have key : ∀ n ≤ g.depth, ∀ vs, g.Nested n vs → ∀ hg : g.Grounded vs, motive vs hg := by
    intro n
    induction n with
    | zero => exact fun _ vs h => h.elim
    | succ n ih =>
      intro hn vs h hg
      exact step vs hg fun k e hk he => ih (by omega) e.children (h k e hk he) _
  exact key _ le_rfl vs hvs hvs

theorem Grounded.of_fragment {v : Value} {cs : List Value} (h : g.Grounded [v])
    (hr : g.roleOf v = .fragment cs) : g.Grounded cs := by
  obtain ⟨k, e, rfl, he, -, rfl⟩ := roleOf_eq_fragment hr
  exact h.children (by simp) he

theorem Grounded.of_concrete {v : Value} {k : Handle} {e : Element} (h : g.Grounded [v])
    (hr : g.roleOf v = .concrete k e) : g.Grounded e.children := by
  obtain ⟨rfl, he, -⟩ := roleOf_eq_concrete.mp hr
  exact h.children (by simp) he

/-! ### The cut is never reached -/

theorem splicedUpTo_of_nested {n m : ℕ} {vs : List Value} (h : g.Nested n vs) (hm : n ≤ m) :
    g.splicedUpTo m vs = g.splicedUpTo n vs := by
  induction n generalizing m vs with
  | zero => exact h.elim
  | succ n ih =>
    obtain ⟨m, rfl⟩ : ∃ m', m = m' + 1 := ⟨m - 1, by omega⟩
    simp only [splicedUpTo]
    refine List.flatMap_congr fun v hv => ?_
    cases hr : g.roleOf v with
    | fragment cs =>
      obtain ⟨k, hk, hcs⟩ := h.of_fragment hv hr
      obtain rfl : k = n := by omega
      simp only [ih hcs (by omega : k ≤ m)]
    | _ => rfl

theorem listingUpTo_of_nested {n m : ℕ} {vs : List Value} (h : g.Nested n vs) (hm : n ≤ m) :
    g.listingUpTo m vs = g.listingUpTo n vs := by
  induction n generalizing m vs with
  | zero => exact h.elim
  | succ n ih =>
    obtain ⟨m, rfl⟩ : ∃ m', m = m' + 1 := ⟨m - 1, by omega⟩
    simp only [listingUpTo]
    refine List.flatMap_congr fun v hv => ?_
    cases hr : g.roleOf v with
    | fragment cs =>
      obtain ⟨k, hk, hcs⟩ := h.of_fragment hv hr
      obtain rfl : k = n := by omega
      simp only [ih hcs (by omega : k ≤ m)]
    | concrete h' e =>
      obtain ⟨k, hk, hcs⟩ := h.of_concrete hv hr
      obtain rfl : k = n := by omega
      simp only [ih hcs (by omega : k ≤ m)]
    | _ => rfl

/-! ### Equations of the spliced children -/

@[simp] theorem spliced_nil : g.spliced [] = [] := rfl

theorem spliced_append (vs ws : List Value) :
    g.spliced (vs ++ ws) = g.spliced vs ++ g.spliced ws := by
  simp only [spliced, depth, splicedUpTo, List.flatMap_append]

theorem spliced_cons (v : Value) (vs : List Value) :
    g.spliced (v :: vs) = g.spliced [v] ++ g.spliced vs :=
  spliced_append [v] vs

theorem spliced_leaf {v : Value} {l : Leaf} (hr : g.roleOf v = .leaf l) : g.spliced [v] = [v] := by
  simp [spliced, depth, splicedUpTo, hr]

theorem spliced_concrete {v : Value} {h : Handle} {e : Element} (hr : g.roleOf v = .concrete h e) :
    g.spliced [v] = [v] := by
  simp [spliced, depth, splicedUpTo, hr]

theorem spliced_unsupported {v : Value} (hr : g.roleOf v = .unsupported) : g.spliced [v] = [] := by
  simp [spliced, depth, splicedUpTo, hr]

theorem spliced_fragment {v : Value} {cs : List Value} (hg : g.Grounded [v])
    (hr : g.roleOf v = .fragment cs) :
    g.spliced [v] = (g.spliced cs).filter fun w => !w.isLeaf := by
  obtain ⟨n, hn, hcs⟩ := Nested.of_fragment hg (List.mem_singleton.mpr rfl) hr
  have hcut : g.splicedUpTo g.depth cs = g.splicedUpTo n cs :=
    splicedUpTo_of_nested hcs (by omega)
  unfold spliced
  rw [hcut, hn]
  simp [splicedUpTo, hr]

/-- Only leaves and elements that are no fragments are left. -/
theorem role_of_mem_splicedUpTo {n : ℕ} {vs : List Value} {v : Value} (hv : v ∈ g.splicedUpTo n vs) :
    v.isLeaf = true ∨ ∃ h e, g.roleOf v = .concrete h e := by
  induction n generalizing vs with
  | zero => simp [splicedUpTo] at hv
  | succ n ih =>
    obtain ⟨w, -, hvw⟩ := List.mem_flatMap.mp hv
    cases hr : g.roleOf w with
    | leaf l =>
      obtain rfl : v = w := by simpa [hr] using hvw
      exact .inl (isLeaf_of_roleOf_leaf hr)
    | unsupported => simp [hr] at hvw
    | concrete h e =>
      obtain rfl : v = w := by simpa [hr] using hvw
      exact .inr ⟨h, e, hr⟩
    | fragment cs =>
      simp only [hr] at hvw
      exact ih (List.mem_of_mem_filter hvw)

theorem role_of_mem_spliced {vs : List Value} {v : Value} (hv : v ∈ g.spliced vs) :
    v.isLeaf = true ∨ ∃ h e, g.roleOf v = .concrete h e :=
  role_of_mem_splicedUpTo hv

/-! ### Equations of the elements among them -/

@[simp] theorem structural_nil : g.structural [] = [] := rfl

theorem structural_cons (v : Value) (vs : List Value) :
    g.structural (v :: vs) = g.structural [v] ++ g.structural vs := by
  simp only [structural, spliced_cons v vs, List.filterMap_append]

theorem handle?_of_isLeaf {v : Value} (h : v.isLeaf = true) : v.handle? = none := by
  cases v <;> simp_all [Value.isLeaf, Value.leaf?, Value.handle?]

theorem structural_leaf {v : Value} {l : Leaf} (hr : g.roleOf v = .leaf l) :
    g.structural [v] = [] := by
  simp [structural, spliced_leaf hr, handle?_of_isLeaf (isLeaf_of_roleOf_leaf hr)]

theorem structural_concrete {v : Value} {h : Handle} {e : Element}
    (hr : g.roleOf v = .concrete h e) : g.structural [v] = [h] := by
  obtain ⟨rfl, -, -⟩ := roleOf_eq_concrete.mp hr
  simp [structural, spliced_concrete hr, Value.handle?]

theorem structural_unsupported {v : Value} (hr : g.roleOf v = .unsupported) :
    g.structural [v] = [] := by
  simp [structural, spliced_unsupported hr]

theorem structural_fragment {v : Value} {cs : List Value} (hg : g.Grounded [v])
    (hr : g.roleOf v = .fragment cs) : g.structural [v] = g.structural cs := by
  unfold structural
  rw [spliced_fragment hg hr, List.filterMap_filter]
  refine List.filterMap_congr fun w _ => ?_
  by_cases hw : w.isLeaf
  · simp [hw, handle?_of_isLeaf hw]
  · simp [hw]

/-! ### Equations of the walk -/

@[simp] theorem listing_nil : g.listing [] = [] := rfl

theorem listing_append (vs ws : List Value) :
    g.listing (vs ++ ws) = g.listing vs ++ g.listing ws := by
  simp only [listing, depth, listingUpTo, List.flatMap_append]

theorem listing_cons (v : Value) (vs : List Value) :
    g.listing (v :: vs) = g.listing [v] ++ g.listing vs :=
  listing_append [v] vs

theorem listing_leaf {v : Value} {l : Leaf} (hr : g.roleOf v = .leaf l) : g.listing [v] = [] := by
  simp [listing, depth, listingUpTo, hr]

theorem listing_unsupported {v : Value} (hr : g.roleOf v = .unsupported) : g.listing [v] = [] := by
  simp [listing, depth, listingUpTo, hr]

theorem listing_fragment {v : Value} {cs : List Value} (hg : g.Grounded [v])
    (hr : g.roleOf v = .fragment cs) : g.listing [v] = g.listing cs := by
  obtain ⟨n, hn, hcs⟩ := Nested.of_fragment hg (List.mem_singleton.mpr rfl) hr
  have hcut : g.listingUpTo g.depth cs = g.listingUpTo n cs :=
    listingUpTo_of_nested hcs (by omega)
  unfold listing
  rw [hcut, hn]
  simp [listingUpTo, hr]

theorem listing_concrete {v : Value} {h : Handle} {e : Element} (hg : g.Grounded [v])
    (hr : g.roleOf v = .concrete h e) : g.listing [v] = h :: g.listing e.children := by
  obtain ⟨n, hn, hcs⟩ := Nested.of_concrete hg (List.mem_singleton.mpr rfl) hr
  have hcut : g.listingUpTo g.depth e.children = g.listingUpTo n e.children :=
    listingUpTo_of_nested hcs (by omega)
  unfold listing
  rw [hcut, hn]
  simp [listingUpTo, hr]

theorem mem_listing_iff_exists {vs : List Value} {h : Handle} :
    h ∈ g.listing vs ↔ ∃ v ∈ vs, h ∈ g.listing [v] := by
  simp only [listing, depth, listingUpTo, List.mem_flatMap, List.mem_singleton, exists_eq_left]

end Graph

end ViewGraph
