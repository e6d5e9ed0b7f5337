import ViewGraph.Proofs.Run

/-!
# The assignment of ids

An element that asks for no id of its own is given a number.  Which one it is depends on two things:
on the ids that are claimed anywhere below the root, and on the order in which the elements first ask.

* `askingOrder root`: that order.  The children of an element ask before any element below them.
* `Assigned root f idOf`: the `k`-th element in it without an id of its own has the `k`-th smallest
  number that nobody claims, and no such number is left out.
* `exists_assigned`: this is so for the records of every graph that has records.
-/

namespace ViewGraph

open ViewGraph.Graph Allocator

/-! ### Definitions -/

section Defs

variable (g : Graph) (root : Value)

/-- The elements below a root in the order in which they first ask for their ids: on the walk over first
visits each element asks, and then the elements among its spliced children. -/
def Graph.askingOrder : List Handle := (g.resolutions (g.firstVisits root)).eraseDups

/-- Those of them that ask for no id of their own. -/
def Graph.numberedOrder : List Handle := (g.askingOrder root).filter fun h => (g.wantedId? h).isNone

/-- The ids that elements below a root ask for. -/
def Graph.wantedBelow : Set String := {id | ∃ h, g.HasInstance root h ∧ g.wantedId? h = some id}

/-- The numbers that nobody below a root asks for. -/
def Graph.IsFree (n : ℕ) : Prop := numeral n ∉ g.wantedBelow root

end Defs

/-- The ids in some records are those that the elements below a root ask for, and the smallest numbers
that are left for the others. -/
structure Assigned (g : Graph) (root : Value) (f : DocumentFragment) (idOf : Handle → String) : Prop where
  instances : f.instances.map (·.id) = (g.firstVisits root).map idOf
  complete : ∀ h, h ∈ g.askingOrder root ↔ g.HasInstance root h
  once : (g.askingOrder root).Nodup
  own : ∀ h id, g.HasInstance root h → g.wantedId? h = some id → idOf h = id
  kth : ∀ k h, (g.numberedOrder root)[k]? = some h → idOf h = numeral (Nat.nth (g.IsFree root) k)
  /-- No free number below one that is given is left out. -/
  gapless : ∀ h n, h ∈ g.numberedOrder root → idOf h = numeral n → ∀ m < n, g.IsFree root m →
    ∃ k ∈ g.numberedOrder root, idOf k = numeral m

variable {g : Graph} {root : Value}

theorem mem_numberedOrder {h : Handle} :
    h ∈ g.numberedOrder root ↔ h ∈ g.askingOrder root ∧ g.wantedId? h = none := by
  simp [numberedOrder]

theorem mem_askingOrder (hac : g.Acyclic root) {h : Handle} :
    h ∈ g.askingOrder root ↔ g.HasInstance root h := by
  rw [askingOrder, List.mem_eraseDups, ← mem_firstVisits hac]
  exact ⟨mem_firstVisits_of_mem_resolutions hac, mem_resolutions⟩

/-- The numbers that the allocator passes over are those that somebody asks for. -/
theorem isFree_eq_unclaimed (hac : g.Acyclic root) :
    g.IsFree root = Unclaimed (g.claimedIds root) := by
  funext n
  refine propext (not_congr ?_)
  rw [wantedBelow, Set.mem_ofPred_eq, claimedIds, List.mem_filterMap]
  simp only [mem_firstVisits hac]

theorem idOf_of_mem_numberedOrder (hac : g.Acyclic root) {h : Handle}
    (hh : h ∈ g.numberedOrder root) :
    g.idOf root h = numeral (Nat.nth (g.IsFree root) ((g.numberedOrder root).idxOf h)) := by
  rw [isFree_eq_unclaimed hac, idOf, idIn, (mem_numberedOrder.mp hh).2]
  rfl

theorem idOf_of_getElem? (hac : g.Acyclic root) {k : ℕ} {h : Handle}
    (hk : (g.numberedOrder root)[k]? = some h) :
    g.idOf root h = numeral (Nat.nth (g.IsFree root) k) := by
  have hnd : (g.numberedOrder root).Nodup := (nodup_eraseDups _).filter _
  obtain ⟨hlt, rfl⟩ := List.getElem?_eq_some_iff.mp hk
  rw [idOf_of_mem_numberedOrder hac (List.getElem_mem hlt), hnd.idxOf_getElem]

/-- A free number that is smaller than one that is given is given too. -/
theorem exists_of_isFree_lt (hac : g.Acyclic root) {h : Handle} {n : ℕ}
    (hh : h ∈ g.numberedOrder root) (hn : g.idOf root h = numeral n) {m : ℕ} (hmn : m < n)
    (hm : g.IsFree root m) : ∃ k ∈ g.numberedOrder root, g.idOf root k = numeral m := by
  have hfree := isFree_eq_unclaimed hac
  have hidx : (g.numberedOrder root).idxOf h < (g.numberedOrder root).length := List.idxOf_lt_length_of_mem hh
  rw [idOf_of_mem_numberedOrder hac hh, hfree] at hn
  have hnth := numeral_injective hn
  rw [hfree] at hm
  -- `m` has its own place among the free numbers, and this place is before that of `n`
  have hcount : Nat.count (Unclaimed (g.claimedIds root)) m < (g.numberedOrder root).idxOf h := by
    rw [← Nat.nth_lt_nth (infinite_unclaimed (g.claimedIds root)), Nat.nth_count hm, hnth]
    exact hmn
  have hlt : Nat.count (Unclaimed (g.claimedIds root)) m < (g.numberedOrder root).length := hcount.trans hidx
  refine ⟨(g.numberedOrder root)[Nat.count (Unclaimed (g.claimedIds root)) m], List.getElem_mem hlt, ?_⟩
  rw [idOf_of_getElem? hac (List.getElem?_eq_getElem hlt), hfree, Nat.nth_count hm]

/-- **Assignment.** If there are records, then the elements have the ids that they ask for, and the
`k`-th element that asks for none has the `k`-th smallest number that nobody asks for. -/
theorem exists_assigned {f : DocumentFragment} (hac : g.Acyclic root)
    (hok : (normalize g root).outcome = .ok f) : ∃ idOf, Assigned g root f idOf :=
  ⟨g.idOf root,
    { instances := by
        rw [instances_of_normalize hac hok, List.map_map]
        exact List.map_congr_left fun h _ => instanceAt_id h
      complete := fun h => mem_askingOrder hac
      once := nodup_eraseDups _
      own := fun h id _ hw => idOf_of_wantedId? hw
      kth := fun k h hk => idOf_of_getElem? hac hk
      gapless := fun h n hh hn m hmn hm => exists_of_isFree_lt hac hh hn hmn hm }⟩

theorem exists_assigned_sharedGraph : ∃ f, sharedGraph.Acyclic sharedRoot ∧
    (normalize sharedGraph sharedRoot).outcome = .ok f ∧ f.equals sharedRecords = true ∧
      ∃ idOf, Assigned sharedGraph sharedRoot f idOf := by
  obtain ⟨f, hok, hsame⟩ := normalize_sharedGraph
  exact ⟨f, acyclic_sharedGraph, hok, hsame, exists_assigned acyclic_sharedGraph hok⟩

end ViewGraph
