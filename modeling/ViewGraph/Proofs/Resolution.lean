import Mathlib.Data.List.Infix
import ViewGraph.Proofs.Block
import ViewGraph.Proofs.Claims
import ViewGraph.Proofs.Numbering

/-!
# The order in which ids are asked for

* `resolutions`: each element that is entered asks for its own id and then for those of the elements
  among its spliced children.
* `idOf root h`: the id of an element below a root.  It depends on the claims and on that order only.
* `outcome_resolve`, `outcome_childRefs`: along this order every element gets its own id, if the ids that are
  asked for have texts.
-/

namespace ViewGraph

open ViewGraph.Graph Allocator Relation

namespace Graph

variable (g : Graph) (root : Value)

/-- The ids that the elements below a root claim. -/
def claimedIds : List String := (g.firstVisits root).filterMap g.wantedId?

/-- The elements among the spliced children of an element. -/
def linked (h : Handle) : List Handle :=
  match g.find? h with
  | some e => g.structural e.children
  | none => []

/-- The order in which ids are asked for when some elements are entered: each asks for its own, and
then for those of the elements among its spliced children, from left to right. -/
def resolutions (entered : List Handle) : List Handle := entered.flatMap fun h => h :: g.linked h

/-- The id of an element below a root. -/
noncomputable def idOf (h : Handle) : String :=
  idIn g.wantedId? (g.claimedIds root) (g.resolutions (g.firstVisits root)) h

/-- The allocator after some elements asked for their ids. -/
def idsAfter (asked : List Handle) : Ids :=
  assignAll g.wantedId? (ofReserved (g.claimedIds root)) asked

end Graph

section References

variable {g : Graph} {root : Value}

theorem resolutions_append (l l' : List Handle) :
    g.resolutions (l ++ l') = g.resolutions l ++ g.resolutions l' := by
  simp [resolutions]

/-- The elements among the spliced children of an element below the root are below the root too. -/
theorem hasInstance_of_mem_structural (hac : g.Acyclic root) {h k : Handle} {e : Element}
    (hh : g.HasInstance root h) (he : g.find? h = some e) (hk : k ∈ g.structural e.children) :
    g.HasInstance root k := by
  obtain ⟨⟨r, hr, hs, hpath⟩, -⟩ := hh
  have hgh : g.Grounded [.element h] := hac.grounded.of_reaches ⟨r, hr, hs, hpath⟩
  have hge : g.Grounded e.children := hgh.children (by simp) he
  obtain ⟨⟨m, hm, hms, hpath'⟩, hc⟩ := (mem_listing hge).mp (structural_subset_listing hge hk)
  exact ⟨⟨r, hr, hs, (hpath.tail ⟨e, he, hm, hms⟩).trans hpath'⟩, hc⟩

theorem mem_firstVisits_of_mem_resolutions (hac : g.Acyclic root) {k : Handle}
    (hk : k ∈ g.resolutions (g.firstVisits root)) : k ∈ g.firstVisits root := by
  obtain ⟨h, hh, hkh⟩ := List.mem_flatMap.mp hk
  rcases List.mem_cons.mp hkh with rfl | hlink
  · exact hh
  · unfold linked at hlink
    split at hlink
    · rename_i e he
      rw [mem_firstVisits hac] at hh ⊢
      exact hasInstance_of_mem_structural hac hh he hlink
    · simp at hlink

/-- Every id that is wanted below a root is claimed from the start. -/
theorem claimed_of_mem_resolutions (hac : g.Acyclic root) {k : Handle}
    (hk : k ∈ g.resolutions (g.firstVisits root)) {id : String} (hw : g.wantedId? k = some id) :
    id ∈ g.claimedIds root :=
  List.mem_filterMap.mpr ⟨k, mem_firstVisits_of_mem_resolutions hac hk, hw⟩

theorem idOf_of_wantedId? {h : Handle} {id : String} (hw : g.wantedId? h = some id) :
    g.idOf root h = id := by
  rw [idOf, idIn, hw]

theorem resolve_of_shown {ids : Ids} {h : Handle} (ha : g.askedId? h = .ok (g.wantedId? h)) :
    (resolve g ids h).outcome =
      .ok ((ids.assign h (g.wantedId? h)).id, (ids.assign h (g.wantedId? h)).allocator) := by
  rw [resolve, ha]
  rfl

/-- An element that asks for its id gets the one that is its own from then on. -/
theorem outcome_resolve (hac : g.Acyclic root) (hids : g.IdsShown (g.firstVisits root))
    {asked : List Handle} {h : Handle} (hp : asked ++ [h] <+: g.resolutions (g.firstVisits root)) :
    (resolve g (g.idsAfter root asked) h).outcome =
      .ok (g.idOf root h, g.idsAfter root (asked ++ [h])) := by
  have hclaim : ∀ k ∈ asked ++ [h], ∀ id, g.wantedId? k = some id → id ∈ g.claimedIds root :=
    fun k hk id hw => claimed_of_mem_resolutions hac (hp.subset hk) hw
  have hn : Numbered g.wantedId? (g.claimedIds root) (g.idsAfter root asked) asked :=
    numbered_assignAll fun k hk => hclaim k (List.mem_append_left _ hk)
  have hid := (hn.assign (hclaim h (by simp))).1
  rw [← idIn_of_prefix hp (by simp)] at hid
  have hafter : g.idsAfter root (asked ++ [h]) =
      ((g.idsAfter root asked).assign h (g.wantedId? h)).allocator := by
    simp [idsAfter, assignAll]
  have hh := mem_firstVisits_of_mem_resolutions hac (hp.subset (by simp : h ∈ asked ++ [h]))
  rw [resolve_of_shown (hids h hh), hafter, idOf, ← hid]

/-- An element that has its id already gets it again. -/
theorem outcome_resolve_of_mem (hac : g.Acyclic root) (hids : g.IdsShown (g.firstVisits root))
    {asked : List Handle} {h : Handle} (hp : asked <+: g.resolutions (g.firstVisits root)) (hh : h ∈ asked) :
    (resolve g (g.idsAfter root asked) h).outcome =
      .ok (g.idOf root h, g.idsAfter root asked) := by
  have hclaim : ∀ k ∈ asked, ∀ id, g.wantedId? k = some id → id ∈ g.claimedIds root :=
    fun k hk id hw => claimed_of_mem_resolutions hac (hp.subset hk) hw
  have hf : (g.idsAfter root asked).find? h = _ := (numbered_assignAll hclaim).find_mem h hh
  rw [← idIn_of_prefix hp hh] at hf
  rw [resolve_of_shown (hids h (mem_firstVisits_of_mem_resolutions hac (hp.subset hh))), assign_of_find? hf]
  rfl

theorem referenceTo_leaf {v : Value} {l : Leaf} (hr : g.roleOf v = .leaf l)
    (idOf : Handle → String) : referenceTo idOf v = leafChild l := by
  simp [referenceTo, roleOf_eq_leaf.mp hr]

theorem referenceTo_element (idOf : Handle → String) (h : Handle) :
    referenceTo idOf (.element h) = .ok (.id (idOf h)) := rfl

/-- **Step.** The references that a child gives are those to what it stands for when spliced. -/
theorem outcome_childRef (hac : g.Acyclic root) (hids : g.IdsShown (g.firstVisits root))
    (below : Ids → List Value → Logged Failure (List Child × Ids)) {v : Value} (hg : g.Grounded [v])
    (inFragment : Bool) {asked : List Handle}
    (hp : asked ++ g.structural [v] <+: g.resolutions (g.firstVisits root))
    (hbelow : ∀ cs, g.roleOf v = .fragment cs → (below (g.idsAfter root asked) cs).outcome = do
      let refs ← ((g.spliced cs).filter fun w => !w.isLeaf).mapM (referenceTo (g.idOf root))
      return (refs, g.idsAfter root (asked ++ g.structural cs))) :
    (childRef g below inFragment (g.idsAfter root asked) v).outcome = do
      let refs ← ((g.spliced [v]).filter fun w => !(inFragment && w.isLeaf)).mapM
        (referenceTo (g.idOf root))
      return (refs, g.idsAfter root (asked ++ g.structural [v])) := by
  unfold childRef
  cases hr : g.roleOf v with
  | leaf l =>
    have hl := isLeaf_of_roleOf_leaf hr
    cases inFragment with
    | true => simp [hl, spliced_leaf hr, structural_leaf hr]
    | false => simp [spliced_leaf hr, structural_leaf hr, referenceTo_leaf hr]
  | unsupported => simp [spliced_unsupported hr, structural_unsupported hr]
  | concrete h e =>
    obtain ⟨rfl, -, -⟩ := roleOf_eq_concrete.mp hr
    have hl : (Value.element h).isLeaf = false := rfl
    rw [structural_concrete hr] at hp
    simp [hl, spliced_concrete hr, structural_concrete hr, referenceTo_element,
      outcome_resolve hac hids hp]
  | fragment cs =>
    have habsorb : ((g.spliced cs).filter fun w => !(inFragment && w.isLeaf) && !w.isLeaf) =
        (g.spliced cs).filter fun w => !w.isLeaf :=
      List.filter_congr fun w _ => by cases w.isLeaf <;> simp
    rw [spliced_fragment hg hr, structural_fragment hg hr, List.filter_filter, habsorb]
    exact hbelow cs hr

/-- **Run.** The references to the children of an element are those to its spliced children, and the
elements among these ask for their ids from left to right. -/
theorem outcome_childRefs (hac : g.Acyclic root) (hids : g.IdsShown (g.firstVisits root)) {n : ℕ}
    {vs : List Value} (hn : g.Nested n vs) (hg : g.Grounded vs) (inFragment : Bool) {asked : List Handle}
    (hp : asked ++ g.structural vs <+: g.resolutions (g.firstVisits root)) :
    (childRefs g n inFragment (g.idsAfter root asked) vs).outcome = do
      let refs ← ((g.spliced vs).filter fun w => !(inFragment && w.isLeaf)).mapM
        (referenceTo (g.idOf root))
      return (refs, g.idsAfter root (asked ++ g.structural vs)) := by
  induction n generalizing vs inFragment asked with
  | zero => exact hn.elim
  | succ n ih =>
    unfold childRefs
    induction vs generalizing asked with
    | nil => simp
    | cons v vs ihv =>
      rw [structural_cons, ← List.append_assoc] at hp
      have hpv := (List.prefix_append _ _).trans hp
      have head := outcome_childRef hac hids (childRefs g n true) hg.head inFragment hpv
        fun cs hr => by
          obtain ⟨m, hm, hcs⟩ := hn.of_fragment (List.mem_cons_self) hr
          obtain rfl : m = n := by omega
          rw [structural_fragment hg.head hr] at hpv
          simpa using ih hcs (hg.head.of_fragment hr) true hpv
      have tail := ihv (hn.subset (List.subset_cons_self v vs)) hg.tail hp
      rw [Logged.outcome_collect_cons, spliced_cons, structural_cons, List.filter_append,
        List.mapM_append, ← List.append_assoc, head]
      simp [tail]

end References

end ViewGraph
