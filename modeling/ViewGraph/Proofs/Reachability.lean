import Mathlib.Data.Finset.Card
import Mathlib.Data.Finset.Filter
import Mathlib.Data.Finset.Range
import Mathlib.Logic.Relation
import ViewGraph.Graph.Role

/-!
# What is below a root

* `Below`, `Reaches`, `HasInstance`: elements among the children of others, below a root, and those of
  them that are no fragments.
* `Acyclic`: no element below the root is in itself.
* `Nested n`: some values and what stands in them make up at most `n` levels.  This is what the
  inductions over a graph run on.
* `Acyclic.grounded`: an acyclic root has no more levels than the graph can have.  The rank of an
  element counts what is below it; it falls along children and is bounded by the size of the graph.
-/

namespace ViewGraph

/-- The handle of an element. -/
def Value.handle? : Value → Option Handle
  | element h => some h
  | _ => none

namespace Graph

open Relation

variable {g : Graph}

/-! ### Roles -/

theorem roleOf_eq_fragment {v : Value} {cs : List Value} (h : g.roleOf v = .fragment cs) :
    ∃ k e, v = .element k ∧ g.find? k = some e ∧ e.isFragment = true ∧ cs = e.children := by
  unfold roleOf at h
  split at h
  · simp at h
  · unfold nodeRole at h
    split at h
    · rename_i k _
      split at h
      · rename_i e he
        split_ifs at h with hf
        simp only [Role.fragment.injEq] at h
        exact ⟨k, e, rfl, he, hf, h.symm⟩
      · simp at h
    · simp at h

theorem roleOf_eq_concrete {v : Value} {k : Handle} {e : Element} :
    g.roleOf v = .concrete k e ↔
      v = .element k ∧ g.find? k = some e ∧ e.isFragment = false := by
  constructor
  · intro h
    unfold roleOf at h
    split at h
    · simp at h
    · unfold nodeRole at h
      split at h
      · split at h
        · rename_i e' he
          split_ifs at h with hf
          simp only [Role.concrete.injEq] at h
          obtain ⟨rfl, rfl⟩ := h
          exact ⟨rfl, he, by simpa using hf⟩
        · simp at h
      · simp at h
  · rintro ⟨rfl, he, hf⟩
    simp [roleOf, Value.leaf?, nodeRole, he, hf]

theorem roleOf_element {k : Handle} {e : Element} (he : g.find? k = some e) :
    g.roleOf (.element k) = if e.isFragment then .fragment e.children else .concrete k e := by
  simp [roleOf, Value.leaf?, nodeRole, he]

theorem roleOf_eq_leaf {v : Value} {l : Leaf} : g.roleOf v = .leaf l ↔ v.leaf? = some l := by
  unfold roleOf
  cases hv : v.leaf? with
  | some l' => simp
  | none =>
    simp only [reduceCtorEq, iff_false]
    unfold nodeRole
    split
    · split
      · split_ifs <;> simp
      · simp
    · simp

theorem isLeaf_of_roleOf_leaf {v : Value} {l : Leaf} (h : g.roleOf v = .leaf l) :
    v.isLeaf = true := by
  simp [Value.isLeaf, roleOf_eq_leaf.mp h]

/-! ### Reachability -/

variable (g) in
/-- `k` stands among the children of `h`. -/
def Below (h k : Handle) : Prop :=
  ∃ e, g.find? h = some e ∧ .element k ∈ e.children ∧ (g.find? k).isSome

variable (g) in
/-- `h` is an element that stands among some values, or below one. -/
def ReachesFrom (vs : List Value) (h : Handle) : Prop :=
  ∃ k, .element k ∈ vs ∧ (g.find? k).isSome ∧ ReflTransGen g.Below k h

variable (g) in
/-- `h` is an element at or below the root. -/
def Reaches (root : Value) (h : Handle) : Prop := g.ReachesFrom [root] h

variable (g) in
/-- An element that is no fragment. -/
def Concrete (h : Handle) : Prop := ∃ e, g.find? h = some e ∧ e.isFragment = false

variable (g) in
/-- `h` is an element at or below the root, and no fragment. -/
def HasInstance (root : Value) (h : Handle) : Prop := g.Reaches root h ∧ g.Concrete h

variable (g) in
/-- No element at or below the root is in itself, directly or not. -/
def Acyclic (root : Value) : Prop := ∀ h, g.Reaches root h → ¬ TransGen g.Below h h

theorem Reaches.below {root : Value} {h k : Handle} (hr : g.Reaches root h) (hb : g.Below h k) :
    g.Reaches root k := by
  obtain ⟨r, hmem, hsome, hpath⟩ := hr
  exact ⟨r, hmem, hsome, hpath.tail hb⟩

/-! ### Depth -/

variable (g) in
/-- Some values and what stands in them make up at most `n` levels. -/
def Nested : ℕ → List Value → Prop
  | 0, _ => False
  | n + 1, vs => ∀ h e, .element h ∈ vs → g.find? h = some e → Nested n e.children

variable (g) in
/-- Some values and what stands in them make up no more levels than the graph can have. -/
def Grounded (vs : List Value) : Prop := g.Nested g.depth vs

theorem Nested.mono {n m : ℕ} (hnm : n ≤ m) {vs : List Value} (h : g.Nested n vs) :
    g.Nested m vs := by
  induction n generalizing m vs with
  | zero => exact h.elim
  | succ n ih =>
    obtain ⟨m, rfl⟩ : ∃ m', m = m' + 1 := ⟨m - 1, by omega⟩
    exact fun k e hk he => ih (by omega) (h k e hk he)

theorem Nested.subset {n : ℕ} {vs ws : List Value} (h : g.Nested n vs) (hs : ws ⊆ vs) :
    g.Nested n ws := by
  cases n with
  | zero => exact h.elim
  | succ n => exact fun k e hk => h k e (hs hk)

theorem Nested.children {n : ℕ} {vs : List Value} (h : g.Nested n vs) {k : Handle} {e : Element}
    (hk : .element k ∈ vs) (he : g.find? k = some e) : ∃ m, n = m + 1 ∧ g.Nested m e.children := by
  cases n with
  | zero => exact h.elim
  | succ n => exact ⟨n, rfl, h k e hk he⟩

theorem Nested.of_fragment {n : ℕ} {vs : List Value} (h : g.Nested n vs) {v : Value}
    (hv : v ∈ vs) {cs : List Value} (hr : g.roleOf v = .fragment cs) :
    ∃ m, n = m + 1 ∧ g.Nested m cs := by
  obtain ⟨k, e, rfl, he, -, rfl⟩ := roleOf_eq_fragment hr
  exact h.children hv he

theorem Nested.of_concrete {n : ℕ} {vs : List Value} (h : g.Nested n vs) {v : Value}
    (hv : v ∈ vs) {k : Handle} {e : Element} (hr : g.roleOf v = .concrete k e) :
    ∃ m, n = m + 1 ∧ g.Nested m e.children := by
  obtain ⟨rfl, he, -⟩ := roleOf_eq_concrete.mp hr
  exact h.children hv he

/-- What stands below some values is no deeper than they are. -/
theorem Nested.of_reaches {n : ℕ} {vs : List Value} (hn : g.Nested n vs) {h : Handle}
    (hr : g.ReachesFrom vs h) : g.Nested n [.element h] := by
  obtain ⟨k, hk, -, hpath⟩ := hr
  induction hpath with
  | refl => exact hn.subset (by simpa using hk)
  | tail _ hb ih =>
    obtain ⟨e, he, hm, -⟩ := hb
    obtain ⟨m, rfl, hcs⟩ := ih.children (by simp) he
    exact (hcs.mono (by omega)).subset (by simpa using hm)

theorem Nested.below {n : ℕ} {h k : Handle} (hn : g.Nested n [.element h])
    (hb : TransGen g.Below h k) : ∃ m < n, g.Nested m [.element k] := by
  have step : ∀ {n : ℕ} {a b : Handle}, g.Nested n [.element a] → g.Below a b →
      ∃ m < n, g.Nested m [.element b] := by
    rintro n a b ha ⟨e, he, hmem, -⟩
    obtain ⟨m, rfl, hm⟩ := ha.children (List.mem_singleton.mpr rfl) he
    exact ⟨m, by omega, hm.subset (by simpa using hmem)⟩
  induction hb with
  | single hb => exact step hn hb
  | tail _ hb ih =>
    obtain ⟨m, hm, hnest⟩ := ih
    obtain ⟨m', hm', hnest'⟩ := step hnest hb
    exact ⟨m', by omega, hnest'⟩

/-- What stands in each other only so deep is not in itself. -/
theorem Nested.not_below_self {n : ℕ} {h : Handle} (hn : g.Nested n [.element h]) :
    ¬ TransGen g.Below h h := by
  intro hb
  induction n using Nat.strong_induction_on with
  | _ n ih =>
    obtain ⟨m, hm, hnest⟩ := hn.below hb
    exact ih m hm hnest

theorem acyclic_of_nested {n : ℕ} {root : Value} (hn : g.Nested n [root]) : g.Acyclic root :=
  fun _ hr => (hn.of_reaches hr).not_below_self

/-- A graph in which elements stand only in later ones has no cycles. -/
theorem acyclic_of_index_lt
    (hlt : ∀ p ∈ g.nodes.toList.zipIdx, ∀ v ∈ p.1.children, ∀ k ∈ v.handle?, k.index < p.2)
    (root : Value) : g.Acyclic root := by
  have key : ∀ {h k}, TransGen g.Below h k → k.index < h.index := by
    intro h k hb
    have step : ∀ {h k}, g.Below h k → k.index < h.index := by
      rintro h k ⟨e, he, hk, -⟩
      have hmem : (e, h.index) ∈ g.nodes.toList.zipIdx := by
        rw [List.mem_zipIdx_iff_getElem?, Array.getElem?_toList]
        exact he
      exact hlt _ hmem _ hk k rfl
    induction hb with
    | single hb => exact step hb
    | tail _ hb ih => exact (step hb).trans ih
  exact fun h _ hb => (key hb).false

/-! ### The rank of an element -/

section Rank

variable (g) in
/-- The number of elements below an element. -/
noncomputable def rank (h : Handle) : ℕ := by
  classical
  exact ((Finset.range g.nodes.size).filter fun i => TransGen g.Below h ⟨i⟩).card

theorem rank_le (h : Handle) : g.rank h ≤ g.nodes.size := by
  classical
  unfold rank
  exact (Finset.card_filter_le _ _).trans_eq (Finset.card_range _)

theorem index_lt_of_find? {h : Handle} (hs : (g.find? h).isSome) : h.index < g.nodes.size := by
  obtain ⟨e, he⟩ := Option.isSome_iff_exists.mp hs
  exact (Array.getElem?_eq_some_iff.mp he).1

theorem rank_lt {h k : Handle} (hb : g.Below h k) (hk : ¬ TransGen g.Below k k) :
    g.rank k < g.rank h := by
  classical
  have hsome : (g.find? k).isSome := by
    obtain ⟨-, -, -, hs⟩ := hb
    exact hs
  have hsub : ∀ i, TransGen g.Below k ⟨i⟩ → TransGen g.Below h ⟨i⟩ :=
    fun i hi => TransGen.head hb hi
  unfold rank
  apply Finset.card_lt_card
  refine Finset.ssubset_iff_of_subset ?_ |>.mpr ⟨k.index, ?_, ?_⟩
  · intro i hi
    obtain ⟨hi1, hi2⟩ := Finset.mem_filter.mp hi
    exact Finset.mem_filter.mpr ⟨hi1, hsub i hi2⟩
  · exact Finset.mem_filter.mpr ⟨Finset.mem_range.mpr (index_lt_of_find? hsome), .single hb⟩
  · intro hmem
    exact hk (Finset.mem_filter.mp hmem).2

end Rank

theorem Acyclic.nested {root : Value} (hac : g.Acyclic root) {n : ℕ} {vs : List Value}
    (hvs : ∀ h, .element h ∈ vs → (g.find? h).isSome → g.Reaches root h ∧ g.rank h < n) :
    g.Nested (n + 1) vs := by
  induction n generalizing vs with
  | zero =>
    intro h e hh he
    have := (hvs h hh (by simp [he])).2
    omega
  | succ n ih =>
    intro h e hh he
    obtain ⟨hr, hlt⟩ := hvs h hh (by simp [he])
    refine ih fun k hk hks => ?_
    have hb : g.Below h k := ⟨e, he, hk, hks⟩
    have hrk := hr.below hb
    have := rank_lt hb (hac k hrk)
    exact ⟨hrk, by omega⟩

/-- **Depth.** An acyclic root has no more levels than the graph can have. -/
theorem Acyclic.grounded {root : Value} (hac : g.Acyclic root) : g.Grounded [root] := by
  have hn : g.Nested (g.nodes.size + 1 + 1) [root] := by
    refine hac.nested fun h hh hs => ⟨⟨h, hh, hs, .refl⟩, ?_⟩
    have := g.rank_le h
    omega
  exact hn.mono (Nat.succ_le_succ (Nat.le_mul_of_pos_left _ (by omega)))

end Graph

end ViewGraph
