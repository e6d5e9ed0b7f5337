import Mathlib.Data.List.Nodup
import ViewGraph.Proofs.Splicing

/-!
# First visits

* `fresh seen l`: the entries of a list that were not seen, each at its first place.
* `firstVisits root`: the elements below a root in the order in which the walk first meets them.
* `mem_firstVisits`: these are all the elements below the root that are no fragments.
* `Settled seen vs`: whatever was seen and is met again has nothing new below it.  A walk that passes
  over what it has seen keeps this invariant, and so it misses nothing.
-/

namespace ViewGraph

/-! ### Entries at their first places -/

section Fresh

variable {α : Type} [DecidableEq α]

/-- The entries of a list that were not seen, each at its first place. -/
def fresh (seen l : List α) : List α := (l.filter (· ∉ seen)).eraseDups

@[simp] theorem fresh_nil (seen : List α) : fresh seen [] = [] := rfl

@[simp] theorem fresh_nil_left (l : List α) : fresh [] l = l.eraseDups := by
  simp [fresh]

@[simp] theorem mem_fresh {seen l : List α} {a : α} : a ∈ fresh seen l ↔ a ∈ l ∧ a ∉ seen := by
  simp [fresh, List.mem_eraseDups]

theorem fresh_cons_of_mem {seen : List α} {a : α} (h : a ∈ seen) (l : List α) :
    fresh seen (a :: l) = fresh seen l := by
  simp [fresh, h]

theorem fresh_cons_of_not_mem {seen : List α} {a : α} (h : a ∉ seen) (l : List α) :
    fresh seen (a :: l) = a :: fresh (seen ++ [a]) l := by
  unfold fresh
  rw [List.filter_cons_of_pos (by simpa using h), List.eraseDups_cons, List.filter_filter]
  congr 2
  refine List.filter_congr fun b _ => ?_
  by_cases hb : b = a <;> simp [hb, h]

theorem fresh_of_subset {seen l : List α} (h : l ⊆ seen) : fresh seen l = [] :=
  List.eq_nil_iff_forall_not_mem.mpr fun _ ha => (mem_fresh.mp ha).2 (h (mem_fresh.mp ha).1)

theorem fresh_append (seen l l' : List α) :
    fresh seen (l ++ l') = fresh seen l ++ fresh (seen ++ fresh seen l) l' := by
  unfold fresh
  rw [List.filter_append, List.eraseDups_append]
  congr 2
  rw [List.removeAll, List.filter_filter]
  refine List.filter_congr fun b hb => ?_
  by_cases hs : b ∈ seen
  · simp [hs]
  · by_cases hl : b ∈ l <;> simp [hs, hl, List.mem_eraseDups]

/-- Only which entries were seen matters, not their order. -/
theorem fresh_congr {seen seen' l : List α} (h : ∀ a ∈ l, a ∈ seen ↔ a ∈ seen') :
    fresh seen l = fresh seen' l := by
  unfold fresh
  congr 1
  exact List.filter_congr fun _ ha => by simp [h _ ha]

theorem nodup_fresh (seen l : List α) : (fresh seen l).Nodup := by
  induction l generalizing seen with
  | nil => simp
  | cons a l ih =>
    by_cases h : a ∈ seen
    · rw [fresh_cons_of_mem h]
      exact ih seen
    · rw [fresh_cons_of_not_mem h]
      exact List.nodup_cons.mpr ⟨by simp, ih _⟩

theorem nodup_eraseDups (l : List α) : l.eraseDups.Nodup := by
  have := nodup_fresh [] l
  rwa [fresh_nil_left] at this

end Fresh

namespace Graph

open Relation

variable {g : Graph}

/-! ### What the walk meets -/

theorem reachesFrom_iff_exists {vs : List Value} {h : Handle} :
    g.ReachesFrom vs h ↔ ∃ v ∈ vs, g.ReachesFrom [v] h := by
  constructor
  · rintro ⟨k, hk, hs, hpath⟩
    exact ⟨.element k, hk, k, by simp, hs, hpath⟩
  · rintro ⟨v, hv, k, hk, hs, hpath⟩
    obtain rfl : Value.element k = v := List.mem_singleton.mp hk
    exact ⟨k, hv, hs, hpath⟩

theorem ReachesFrom.mono {vs ws : List Value} (hs : vs ⊆ ws) {h : Handle}
    (hr : g.ReachesFrom vs h) : g.ReachesFrom ws h := by
  obtain ⟨k, hk, hsome, hpath⟩ := hr
  exact ⟨k, hs hk, hsome, hpath⟩

theorem reachesFrom_element {k : Handle} {e : Element} (he : g.find? k = some e) {h : Handle} :
    g.ReachesFrom [.element k] h ↔ h = k ∨ g.ReachesFrom e.children h := by
  constructor
  · rintro ⟨r, hr, -, hpath⟩
    obtain rfl : r = k := by simpa using hr
    rcases ReflTransGen.cases_head hpath with rfl | ⟨m, ⟨e', he', hm, hs⟩, hpath⟩
    · exact .inl rfl
    · obtain rfl : e' = e := by simpa [he] using he'.symm
      exact .inr ⟨m, hm, hs, hpath⟩
  · rintro (rfl | ⟨m, hm, hs, hpath⟩)
    · exact ⟨h, by simp, by simp [he], .refl⟩
    · exact ⟨k, by simp, by simp [he], .head ⟨e, he, hm, hs⟩ hpath⟩

theorem Grounded.of_reaches {vs : List Value} (hg : g.Grounded vs) {h : Handle}
    (hr : g.ReachesFrom vs h) : g.Grounded [.element h] :=
  Nested.of_reaches hg hr

theorem not_reachesFrom_of_role {v : Value} (hf : ∀ cs, g.roleOf v ≠ .fragment cs)
    (hc : ∀ k e, g.roleOf v ≠ .concrete k e) {h : Handle} : ¬ g.ReachesFrom [v] h := by
  rintro ⟨k, hk, hs, -⟩
  obtain rfl : Value.element k = v := List.mem_singleton.mp hk
  obtain ⟨e, he⟩ := Option.isSome_iff_exists.mp hs
  rw [roleOf_element he] at hf hc
  by_cases hfr : e.isFragment
  · exact hf e.children (by simp [hfr])
  · exact hc k e (by simp [hfr])

/-- The walk meets all elements below some values that are no fragments, and no others. -/
theorem mem_listing {vs : List Value} (hg : g.Grounded vs) {h : Handle} :
    h ∈ g.listing vs ↔ g.ReachesFrom vs h ∧ g.Concrete h := by
  induction hg using Grounded.rec_children generalizing h with
  | step vs hg ih =>
    have one : ∀ v ∈ vs, h ∈ g.listing [v] ↔ g.ReachesFrom [v] h ∧ g.Concrete h := by
      intro v hv
      have hgv : g.Grounded [v] := hg.subset (by simpa using hv)
      cases hr : g.roleOf v with
      | leaf l =>
        have := not_reachesFrom_of_role (g := g) (v := v) (by simp [hr]) (by simp [hr]) (h := h)
        simp [listing_leaf hr, this]
      | unsupported =>
        have := not_reachesFrom_of_role (g := g) (v := v) (by simp [hr]) (by simp [hr]) (h := h)
        simp [listing_unsupported hr, this]
      | fragment cs =>
        obtain ⟨k, e, rfl, he, hf, rfl⟩ := roleOf_eq_fragment hr
        have hne : g.Concrete h → h ≠ k := by
          rintro ⟨e', he', hf'⟩ rfl
          rw [he] at he'
          simp_all
        rw [listing_fragment hgv hr, ih k e hv he, reachesFrom_element he]
        tauto
      | concrete k e =>
        obtain ⟨rfl, he, hf⟩ := roleOf_eq_concrete.mp hr
        have hk : g.Concrete k := ⟨e, he, hf⟩
        rw [listing_concrete hgv hr, List.mem_cons, ih k e hv he, reachesFrom_element he]
        constructor
        · rintro (rfl | ⟨hr, hc⟩)
          · exact ⟨.inl rfl, hk⟩
          · exact ⟨.inr hr, hc⟩
        · rintro ⟨rfl | hr, hc⟩
          · exact .inl rfl
          · exact .inr ⟨hr, hc⟩
    rw [mem_listing_iff_exists, reachesFrom_iff_exists]
    constructor
    · rintro ⟨v, hv, hh⟩
      obtain ⟨hr, hc⟩ := (one v hv).mp hh
      exact ⟨⟨v, hv, hr⟩, hc⟩
    · rintro ⟨⟨v, hv, hr⟩, hc⟩
      exact ⟨v, hv, (one v hv).mpr ⟨hr, hc⟩⟩

theorem listing_subset_of_reaches {vs : List Value} (hg : g.Grounded vs) {k : Handle}
    (hk : g.ReachesFrom vs k) : g.listing [.element k] ⊆ g.listing vs := by
  intro h hh
  obtain ⟨⟨r, hr, -, hpath⟩, hc⟩ := (mem_listing (hg.of_reaches hk)).mp hh
  obtain rfl : r = k := by simpa using hr
  obtain ⟨q, hq, hs, hpath'⟩ := hk
  exact (mem_listing hg).mpr ⟨⟨q, hq, hs, hpath'.trans hpath⟩, hc⟩

/-- The elements among spliced children are met on the walk over the children. -/
theorem structural_subset_listing {vs : List Value} (hg : g.Grounded vs) :
    g.structural vs ⊆ g.listing vs := by
  induction hg using Grounded.rec_children with
  | step vs hg ih =>
    induction vs with
    | nil => simp
    | cons v vs ihv =>
      rw [structural_cons, listing_cons]
      refine List.append_subset.mpr ⟨?_, ?_⟩
      · refine List.Subset.trans ?_ (List.subset_append_left _ _)
        have hv : g.Grounded [v] := hg.head
        cases hr : g.roleOf v with
        | leaf l => simp [structural_leaf hr]
        | unsupported => simp [structural_unsupported hr]
        | concrete h e => simp [structural_concrete hr, listing_concrete hv hr]
        | fragment cs =>
          obtain ⟨k, e, rfl, he, -, rfl⟩ := roleOf_eq_fragment hr
          rw [structural_fragment hv hr, listing_fragment hv hr]
          exact ih k e (by simp) he
      · refine List.Subset.trans ?_ (List.subset_append_right _ _)
        exact ihv hg.tail fun k e hk he => ih k e (List.mem_cons_of_mem _ hk) he

/-! ### First visits -/

variable (g) in
/-- The elements below a root that are no fragments, in the order in which a walk first meets them:
depth first, from left to right, each before what is below it. -/
def firstVisits (root : Value) : List Handle := (g.listing [root]).eraseDups

theorem nodup_firstVisits (root : Value) : (g.firstVisits root).Nodup := nodup_eraseDups _

theorem mem_firstVisits {root : Value} (hac : g.Acyclic root) {h : Handle} :
    h ∈ g.firstVisits root ↔ g.HasInstance root h := by
  rw [firstVisits, List.mem_eraseDups, mem_listing hac.grounded, HasInstance, Reaches]

/-! ### What is settled -/

variable (g) in
/-- Whatever was seen and stands below some values has nothing below it that was not seen. -/
def Settled (seen : List Handle) (vs : List Value) : Prop :=
  ∀ k, g.ReachesFrom vs k → k ∈ seen → g.listing [.element k] ⊆ seen

theorem settled_nil (vs : List Value) : g.Settled [] vs := fun _ _ h => absurd h List.not_mem_nil

theorem Settled.mono {seen : List Handle} {vs ws : List Value} (h : g.Settled seen vs)
    (hs : ws ⊆ vs) : g.Settled seen ws :=
  fun k hk => h k (hk.mono hs)

/-- Entering an element leaves what is below it settled, because it is not in itself. -/
theorem Settled.enter {seen seen' : List Handle} {vs : List Value} (h : g.Settled seen vs)
    (hg : g.Grounded vs) {k : Handle} {e : Element} (hk : .element k ∈ vs)
    (he : g.find? k = some e) (hseen : ∀ m, m ∈ seen' ↔ m = k ∨ m ∈ seen) :
    g.Settled seen' e.children := by
  intro m hm hms
  rcases (hseen m).mp hms with rfl | hms
  · obtain ⟨r, hr, hs, hpath⟩ := hm
    have hn : g.Nested g.depth [.element m] := hg.subset (by simpa using hk)
    exact absurd (TransGen.head' ⟨e, he, hr, hs⟩ hpath) hn.not_below_self
  · have hreach : g.ReachesFrom vs m :=
      ReachesFrom.mono (by simpa using hk) ((reachesFrom_element he).mpr (.inr hm))
    exact fun n hn => (hseen n).mpr (.inr (h m hreach hms hn))

/-- Once all that is met at a value was seen, the values after it are settled. -/
theorem Settled.leave {seen seen' : List Handle} {v : Value} {vs : List Value}
    (h : g.Settled seen (v :: vs)) (hg : g.Grounded [v]) (hsub : seen ⊆ seen')
    (hnew : ∀ m ∈ seen', m ∈ seen ∨ g.ReachesFrom [v] m) (hall : g.listing [v] ⊆ seen') :
    g.Settled seen' vs := by
  intro k hk hks
  rcases hnew k hks with hks | hkv
  · exact fun m hm => hsub (h k (hk.mono (List.subset_cons_self v vs)) hks hm)
  · exact fun m hm => hall (listing_subset_of_reaches hg hkv hm)

end Graph

end ViewGraph
