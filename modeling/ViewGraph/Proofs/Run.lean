import ViewGraph.Proofs.Claims
import ViewGraph.Proofs.Resolution

/-!
# A whole normalization

A normalization renders the elements below the root in the order of their first visits.

* `blockAt root h`: the block of the element at a handle, under its own id.
* `stateAfter root done blocks`: what has been made once some elements were rendered.
* `Renders root done vs act`: `act` adds what is first met below `vs` once `done` were rendered.
* `renders_render`, `renders_flattenOne`, `renders_flatten`: so do an element, a child, and children.
* `outcome_normalize`: the records are the blocks of the elements in the order of their first visits.
-/

namespace ViewGraph

open ViewGraph.Graph Relation

/-! ### Definitions -/

section Defs

variable (g : Graph) (root : Value)

/-- The block of the element at a handle, under its own id. -/
noncomputable def Graph.blockAt (h : Handle) : Except Failure Block :=
  match g.find? h with
  | some e => blockOf g (g.idOf root) (g.idOf root h) e
  | none => .ok ⟨⟨g.idOf root h, "", none, []⟩, [], []⟩

/-- The instance of the element at a handle. -/
noncomputable def Graph.instanceAt (h : Handle) : Instance :=
  match g.blockAt root h with
  | .ok b => b.inst
  | .error _ => ⟨g.idOf root h, "", none, []⟩

/-- What has been made once some elements were rendered, with their blocks. -/
noncomputable def stateAfter (done : List Handle) (blocks : List Block) : Progress :=
  ⟨g.idsAfter root (g.resolutions done), (done.map (g.idOf root)).reverse, .ofBlocks blocks⟩

/-- The references to some elements. -/
noncomputable def Graph.refsTo (l : List Handle) : List Child := l.map fun h => .id (g.idOf root h)

/-- No two elements below a root have the same id. -/
def Graph.DistinctIds : Prop :=
  ∀ h ∈ g.firstVisits root, ∀ k ∈ g.firstVisits root, g.idOf root h = g.idOf root k → h = k

/-- Once some elements were rendered, `act` adds the blocks of those that are first met below some
children, and refers to what the children stand for. -/
def Renders (done : List Handle) (vs : List Value)
    (act : Progress → Logged Failure (List Child × Progress)) : Prop :=
  ∀ blocks, (act (stateAfter g root done blocks)).outcome = do
    let new ← (fresh done (g.listing vs)).mapM (g.blockAt root)
    return (g.refsTo root (g.structural vs),
      stateAfter g root (done ++ fresh done (g.listing vs)) (blocks ++ new))

end Defs

variable {g : Graph} {root : Value}

/-! ### One element -/

theorem linked_of_find? {h : Handle} {e : Element} (he : g.find? h = some e) :
    g.linked h = g.structural e.children := by
  simp [linked, he]

theorem resolutions_concat {h : Handle} {e : Element} (he : g.find? h = some e) (done : List Handle) :
    g.resolutions (done ++ [h]) = g.resolutions done ++ [h] ++ g.structural e.children := by
  simp [resolutions, linked_of_find? he]

theorem resolutions_mono {l l' : List Handle} (hp : l <+: l') :
    g.resolutions l <+: g.resolutions l' := by
  obtain ⟨t, rfl⟩ := hp
  rw [resolutions_append]
  exact List.prefix_append _ _

theorem mem_resolutions {l : List Handle} {h : Handle} (hh : h ∈ l) : h ∈ g.resolutions l :=
  List.mem_flatMap.mpr ⟨h, hh, List.mem_cons_self⟩

/-- Entering an element adds its block. -/
theorem outcome_enter (hac : g.Acyclic root) (hids : g.IdsShown (g.firstVisits root))
    {done : List Handle} {blocks : List Block} {h : Handle} {e : Element} (he : g.find? h = some e) (hg : g.Grounded [.element h])
    (hp : done ++ [h] <+: g.firstVisits root) :
    (enter g { stateAfter g root done blocks with ids := g.idsAfter root (g.resolutions done ++ [h]) }
      (g.idOf root h) e).outcome = do
      let b ← g.blockAt root h
      return stateAfter g root (done ++ [h]) (blocks ++ [b]) := by
  have hres := resolutions_mono (g := g) hp
  rw [resolutions_concat he] at hres
  have hchildren : g.Grounded e.children := hg.children (by simp) he
  have hrefs := outcome_childRefs hac hids hchildren hchildren false hres
  simp only [Bool.false_and, Bool.not_false, List.filter_true] at hrefs
  unfold enter stateAfter DocumentFragment.ofBlocks
  simp only [Logged.outcome_bind, Logged.outcome_pure, Logged.outcome_ofExcept,
    DocumentFragment.outcome_addAttributes, hrefs,
    bind_assoc, pure_bind, blockAt, he, blockOf]
  congr 1
  funext ⟨props, styles⟩
  congr 1
  funext component
  congr 1
  funext label
  congr 1
  funext refs
  rw [← DocumentFragment.ofBlocks, ← DocumentFragment.ofBlocks_concat, resolutions_concat he]
  simp [DocumentFragment.ofParts]

theorem mem_rendered {done : List Handle} {blocks : List Block} {id : String} :
    id ∈ (stateAfter g root done blocks).rendered ↔ ∃ k ∈ done, g.idOf root k = id := by
  simp [stateAfter]

section Render

variable (hac : g.Acyclic root) (hids : g.IdsShown (g.firstVisits root)) {done : List Handle} {h : Handle}
  {e : Element} (below : Progress → List Value → Logged Failure (List Child × Progress))

include hac hids

/-- An element that was rendered already adds nothing. -/
theorem renders_of_mem (hh : h ∈ done) (hr : g.roleOf (.element h) = .concrete h e)
    (hset : g.Settled done [.element h]) (hp : done <+: g.firstVisits root) :
    Renders g root done [.element h] fun p => render g below p h e := by
  intro blocks
  obtain ⟨-, he, -⟩ := roleOf_eq_concrete.mp hr
  have hreach : g.ReachesFrom [.element h] h := ⟨h, by simp, by simp [he], .refl⟩
  have hnone := fresh_of_subset (hset h hreach hh)
  have hres := outcome_resolve_of_mem hac hids (resolutions_mono hp) (mem_resolutions hh)
  have hrendered : (stateAfter g root done blocks).rendered.contains (g.idOf root h) = true :=
    List.contains_iff_mem.mpr (mem_rendered.mpr ⟨h, hh, rfl⟩)
  have hstate : (stateAfter g root done blocks).ids = g.idsAfter root (g.resolutions done) := rfl
  rw [hnone, List.append_nil, structural_concrete hr, List.mapM_nil, pure_bind, List.append_nil]
  unfold render
  rw [Logged.outcome_bind, hstate, hres]
  show (if _ then _ else _ : Logged Failure (List Child × Progress)).outcome = _
  rw [if_pos hrendered]
  rfl

/-- An element that was not rendered adds its block, and what its children add. -/
theorem renders_of_not_mem (hinj : g.DistinctIds root) (hh : h ∉ done)
    (hr : g.roleOf (.element h) = .concrete h e) (hg : g.Grounded [.element h])
    (hp : done ++ [h] <+: g.firstVisits root)
    (hbelow : Renders g root (done ++ [h]) e.children fun p => below p e.children) :
    Renders g root done [.element h] fun p => render g below p h e := by
  intro blocks
  obtain ⟨-, he, -⟩ := roleOf_eq_concrete.mp hr
  have hres := resolutions_mono (g := g) hp
  rw [resolutions_concat he] at hres
  have hasked := outcome_resolve hac hids ((List.prefix_append _ _).trans hres)
  have hrendered : ¬ (stateAfter g root done blocks).rendered.contains (g.idOf root h) = true := by
    intro hmem
    obtain ⟨k, hk, hid⟩ := mem_rendered.mp (List.contains_iff_mem.mp hmem)
    have hkp : k ∈ g.firstVisits root := hp.subset (List.mem_append_left _ hk)
    have hhp : h ∈ g.firstVisits root := hp.subset (by simp)
    exact hh (hinj k hkp h hhp hid ▸ hk)
  have hstate : (stateAfter g root done blocks).ids = g.idsAfter root (g.resolutions done) := rfl
  rw [listing_concrete hg hr, fresh_cons_of_not_mem hh, structural_concrete hr]
  unfold render
  rw [Logged.outcome_bind, hstate, hasked]
  show (if _ then _ else _ : Logged Failure (List Child × Progress)).outcome = _
  rw [if_neg hrendered, Logged.outcome_bind, outcome_enter hac hids he hg hp, bind_assoc, List.mapM_cons,
    bind_assoc]
  congr 1
  funext b
  rw [pure_bind, Logged.outcome_bind, hbelow, bind_assoc, bind_assoc]
  congr 1
  funext new
  simp [refsTo]

end Render

/-! ### Children -/

theorem Graph.Settled.of_fragment {seen : List Handle} {v : Value} (h : g.Settled seen [v])
    {cs : List Value} (hr : g.roleOf v = .fragment cs) : g.Settled seen cs := by
  obtain ⟨k, e, rfl, he, -, rfl⟩ := roleOf_eq_fragment hr
  exact fun m hm => h m ((reachesFrom_element he).mpr (.inr hm))

section Flatten

variable (hac : g.Acyclic root) (hids : g.IdsShown (g.firstVisits root)) (hinj : g.DistinctIds root)

include hac hids hinj

/-- **Step.** A child renders what is first met below it, if `below` does so for its own children. -/
theorem renders_flattenOne (below : Progress → List Value → Logged Failure (List Child × Progress))
    {done : List Handle} {v : Value} (hg : g.Grounded [v]) (hset : g.Settled done [v])
    (hp : done ++ fresh done (g.listing [v]) <+: g.firstVisits root)
    (hbelow : ∀ k e, v = .element k → g.find? k = some e → ∀ done, g.Settled done e.children →
      done ++ fresh done (g.listing e.children) <+: g.firstVisits root →
      Renders g root done e.children fun p => below p e.children) :
    Renders g root done [v] fun p => flattenOne g below p v := by
  unfold flattenOne
  cases hr : g.roleOf v with
  | leaf l =>
    intro blocks
    simp [listing_leaf hr, structural_leaf hr, refsTo]
  | unsupported =>
    intro blocks
    simp [listing_unsupported hr, structural_unsupported hr, refsTo]
  | fragment cs =>
    intro blocks
    have hset' := hset.of_fragment hr
    rw [listing_fragment hg hr] at hp ⊢
    rw [structural_fragment hg hr]
    obtain ⟨k, e, rfl, he, -, rfl⟩ := roleOf_eq_fragment hr
    exact hbelow k e rfl he done hset' hp blocks
  | concrete k e =>
    obtain ⟨rfl, he, -⟩ := roleOf_eq_concrete.mp hr
    by_cases hk : k ∈ done
    · exact renders_of_mem hac hids below hk hr hset ((List.prefix_append _ _).trans hp)
    · rw [listing_concrete hg hr, fresh_cons_of_not_mem hk, List.append_cons] at hp
      have hset' : g.Settled (done ++ [k]) e.children :=
        hset.enter hg (by simp) he fun m => by simp [or_comm]
      exact renders_of_not_mem hac hids below hinj hk hr hg ((List.prefix_append _ _).trans hp)
        (hbelow k e rfl he (done ++ [k]) hset' hp)

/-- **Run.** Children render what is first met below them. -/
theorem renders_flatten {n : ℕ} {vs : List Value} (hn : g.Nested n vs) (hg : g.Grounded vs)
    {done : List Handle} (hset : g.Settled done vs)
    (hp : done ++ fresh done (g.listing vs) <+: g.firstVisits root) :
    Renders g root done vs fun p => flatten g n p vs := by
  induction n generalizing vs done with
  | zero => exact hn.elim
  | succ n ih =>
    unfold flatten
    induction vs generalizing done with
    | nil =>
      intro blocks
      simp [refsTo]
    | cons v vs ihv =>
      intro blocks
      have hgv := hg.head
      rw [listing_cons, fresh_append, ← List.append_assoc] at hp
      have hpv := (List.prefix_append _ _).trans hp
      have head := renders_flattenOne hac hids hinj (flatten g n) hgv (hset.mono (by simp)) hpv
        fun k e hk he done hset' hp' => by
          subst hk
          obtain ⟨m, hm, hcs⟩ := hn.children List.mem_cons_self he
          obtain rfl : m = n := by omega
          exact ih hcs (hgv.children (by simp) he) hset' hp'
      have hset' : g.Settled (done ++ fresh done (g.listing [v])) vs := by
        refine hset.leave hgv (List.subset_append_left _ _) (fun m hm => ?_) fun m hm => ?_
        · rcases List.mem_append.mp hm with hm | hm
          · exact .inl hm
          · exact .inr ((mem_listing hgv).mp (mem_fresh.mp hm).1).1
        · by_cases hd : m ∈ done
          · exact List.mem_append_left _ hd
          · exact List.mem_append_right _ (mem_fresh.mpr ⟨hm, hd⟩)
      have tail := ihv (hn.subset (List.subset_cons_self v vs)) hg.tail hset' hp
      rw [Logged.outcome_collect_cons, listing_cons, structural_cons, fresh_append, List.mapM_append,
        head blocks, bind_assoc, bind_assoc]
      congr 1
      funext new
      rw [pure_bind]
      simp only [tail (blocks ++ new), bind_assoc, pure_bind]
      simp [refsTo]

end Flatten

/-! ### The whole -/

/-- No two elements below the root have the same id, if no claim is refused. -/
theorem distinctIds_of_noteAll (hac : g.Acyclic root) {claims : List (String × Handle)}
    (hok : g.noteAll [] (g.firstVisits root) = .ok claims) : g.DistinctIds root := by
  intro k hk k' hk' heq
  refine Allocator.idIn_inj (fun k hk id hw => claimed_of_mem_resolutions hac hk hw) ?_
    (mem_resolutions hk) (mem_resolutions hk') heq
  intro k hk k' hk' id hw hw'
  exact wantedId?_inj_of_noteAll (nodup_firstVisits root) hok (mem_firstVisits_of_mem_resolutions hac hk)
    (mem_firstVisits_of_mem_resolutions hac hk') hw hw'

/-- **Normalization.** If no claim is refused, the records are the blocks of the elements below the
root, in the order of their first visits. -/
theorem outcome_normalize (hac : g.Acyclic root) :
    (normalize g root).outcome = (g.noteAll [] (g.firstVisits root)).mapError .ofClaim >>= fun _ =>
      (g.firstVisits root).mapM (g.blockAt root) >>= fun blocks =>
        return { DocumentFragment.ofBlocks blocks with
          children := g.refsTo root (g.structural [root]) } := by
  unfold normalize
  rw [Logged.outcome_bind, Logged.outcome_ofExcept, claims_eq_noteAll hac]
  cases hok : g.noteAll [] (g.firstVisits root) with
  | error d => rfl
  | ok claims =>
    have hnoted := noted_noteAll (nodup_firstVisits root) hok
    have hstart : Progress.ofReserved (claims.map (·.1)) = stateAfter g root [] [] := by
      rw [hnoted.ids]
      rfl
    have hinj := distinctIds_of_noteAll hac hok
    have hrun := renders_flatten hac hnoted.shown hinj hac.grounded hac.grounded (settled_nil [root])
      (by simp [firstVisits]) []
    simp only [fresh_nil_left, List.nil_append] at hrun
    show (flatten g g.depth (.ofReserved (claims.map (·.1))) [root] >>= _).outcome = _
    rw [hstart, Logged.outcome_bind, hrun, bind_assoc]
    rfl

/-- The instance of an element has the id of the element, its texts and the references to its children, and
its block has the records of its attributes. -/
theorem blockAt_eq_ok {h : Handle} {e : Element} (he : g.find? h = some e) {b : Block}
    (hb : g.blockAt root h = .ok b) :
    attributeRecords g (g.idOf root h) e.props = .ok (b.props, b.styles) ∧
      b.inst.id = g.idOf root h ∧ g.text e.component = .ok b.inst.component ∧
      g.label? e = .ok b.inst.label ∧
      (g.spliced e.children).mapM (referenceTo (g.idOf root)) = .ok b.inst.children := by
  simp only [blockAt, he, blockOf] at hb
  obtain ⟨⟨props, styles⟩, hattributes, hb⟩ := Logged.bind_eq_ok.mp hb
  obtain ⟨component, hcomponent, hb⟩ := Logged.bind_eq_ok.mp hb
  obtain ⟨label, hlabel, hb⟩ := Logged.bind_eq_ok.mp hb
  obtain ⟨refs, hrefs, hb⟩ := Logged.bind_eq_ok.mp hb
  obtain rfl : _ = b := Except.ok.inj hb
  exact ⟨hattributes, rfl, ofShown_eq_ok.mp hcomponent, ofShown_eq_ok.mp hlabel, hrefs⟩

theorem instanceAt_of_blockAt {h : Handle} {b : Block} (hb : g.blockAt root h = .ok b) :
    g.instanceAt root h = b.inst := by
  simp [instanceAt, hb]

theorem instanceAt_id (h : Handle) : (g.instanceAt root h).id = g.idOf root h := by
  unfold instanceAt
  split
  · rename_i b hb
    cases he : g.find? h with
    | none =>
      simp only [blockAt, he, Except.ok.injEq] at hb
      rw [← hb]
    | some e =>
      exact (blockAt_eq_ok he hb).2.1
  · rfl

/-- If there are records, then every element has its block, and these blocks are the records. -/
theorem normalize_eq_ok (hac : g.Acyclic root) {f : DocumentFragment}
    (hok : (normalize g root).outcome = .ok f) :
    ∃ blocks, List.Forall₂ (fun h b => g.blockAt root h = .ok b) (g.firstVisits root) blocks ∧
      f = { DocumentFragment.ofBlocks blocks with
        children := g.refsTo root (g.structural [root]) } := by
  rw [outcome_normalize hac] at hok
  obtain ⟨-, -, hok⟩ := Logged.bind_eq_ok.mp hok
  obtain ⟨blocks, hblocks, hok⟩ := Logged.bind_eq_ok.mp hok
  exact ⟨blocks, mapM_eq_ok.mp hblocks, (Except.ok.inj hok).symm⟩

/-- If there are records, then no two elements have the same id. -/
theorem distinctIds_of_normalize (hac : g.Acyclic root) {f : DocumentFragment}
    (hok : (normalize g root).outcome = .ok f) : g.DistinctIds root := by
  rw [outcome_normalize hac] at hok
  obtain ⟨_, hclaims, -⟩ := Logged.bind_eq_ok.mp hok
  cases hnote : g.noteAll [] (g.firstVisits root) with
  | error d => simp [hnote, Except.mapError] at hclaims
  | ok claims => exact distinctIds_of_noteAll hac hnote

/-- If there are records, then every id that is asked for has a text. -/
theorem idsShown_of_normalize (hac : g.Acyclic root) {f : DocumentFragment}
    (hok : (normalize g root).outcome = .ok f) : g.IdsShown (g.firstVisits root) := by
  rw [outcome_normalize hac] at hok
  obtain ⟨_, hclaims, -⟩ := Logged.bind_eq_ok.mp hok
  cases hnote : g.noteAll [] (g.firstVisits root) with
  | error d => simp [hnote, Except.mapError] at hclaims
  | ok claims => exact idsShown_of_noteAll (nodup_firstVisits root) hnote

section Blocks

variable {l : List Handle} {blocks : List Block}

theorem exists_block_of_mem (hblocks : List.Forall₂ (fun h b => g.blockAt root h = .ok b) l blocks)
    {h : Handle} (hh : h ∈ l) : ∃ b, g.blockAt root h = .ok b := by
  induction hblocks with
  | nil => simp at hh
  | cons hb _ ih =>
    rcases List.mem_cons.mp hh with rfl | hh
    · exact ⟨_, hb⟩
    · exact ih hh

theorem instances_of_blocks (hblocks : List.Forall₂ (fun h b => g.blockAt root h = .ok b) l blocks) :
    blocks.map (·.inst) = l.map (g.instanceAt root) := by
  induction hblocks with
  | nil => rfl
  | cons hb _ ih => rw [List.map_cons, List.map_cons, instanceAt_of_blockAt hb, ih]

end Blocks

theorem blockAt_of_normalize (hac : g.Acyclic root) {f : DocumentFragment}
    (hok : (normalize g root).outcome = .ok f) {h : Handle} (hh : h ∈ g.firstVisits root) :
    ∃ b, g.blockAt root h = .ok b := by
  obtain ⟨blocks, hblocks, -⟩ := normalize_eq_ok hac hok
  exact exists_block_of_mem hblocks hh

theorem instances_of_normalize (hac : g.Acyclic root) {f : DocumentFragment}
    (hok : (normalize g root).outcome = .ok f) :
    f.instances = (g.firstVisits root).map (g.instanceAt root) := by
  obtain ⟨blocks, hblocks, rfl⟩ := normalize_eq_ok hac hok
  exact instances_of_blocks hblocks

/-! ### A graph with a shared element -/

/-- A box with a fragment, in which a text and a link stand. The text stands in the link and in the box
too. It asks for the id that the link would have otherwise. -/
def sharedGraph : Graph := ⟨#[
  ⟨.str "Text", [("ws:id", .str "1"), ("ws:style", .list [.style "color" (.str "red") none])], [.str "a"]⟩,
  ⟨.str "Link", [("title", .str "more")], [.element ⟨0⟩]⟩,
  ⟨.fragment, [("title", .str "lost")], [.str "lost", .element ⟨0⟩, .element ⟨1⟩]⟩,
  ⟨.str "Box", [("size", .int 2)], [.element ⟨2⟩, .str "b", .element ⟨0⟩]⟩]⟩

/-- The box. -/
def sharedRoot : Value := .element ⟨3⟩

def sharedRecords : DocumentFragment :=
  { children := [.id "0"]
    instances := [⟨"0", "Box", none, [.id "1", .id "2", .text "b" none, .id "1"]⟩,
      ⟨"1", "Text", none, [.text "a" none]⟩, ⟨"2", "Link", none, [.id "1"]⟩]
    props := [⟨"0:size", "0", "size", .number (.whole 2)⟩, ⟨"2:title", "2", "title", .string "more"⟩]
    breakpoints := [⟨"base", ""⟩]
    styleSources := [⟨"1:ws:style"⟩]
    styleSourceSelections := [⟨"1", ["1:ws:style"]⟩]
    styles := [⟨"base", "1:ws:style", none, "color", .str "red"⟩] }


theorem exists_ok_of_any {α ε : Type} {r : Except ε α} {p : α → Bool} (h : r.toOption.any p = true) :
    ∃ a, r = .ok a ∧ p a = true := by
  cases r with
  | error e => simp [Except.toOption] at h
  | ok a => exact ⟨a, rfl, by simpa [Except.toOption] using h⟩

theorem normalize_sharedGraph :
    ∃ f, (normalize sharedGraph sharedRoot).outcome = .ok f ∧ f.equals sharedRecords = true :=
  exists_ok_of_any (by decide +kernel)

theorem acyclic_sharedGraph : sharedGraph.Acyclic sharedRoot :=
  acyclic_of_index_lt (by decide) sharedRoot

end ViewGraph
