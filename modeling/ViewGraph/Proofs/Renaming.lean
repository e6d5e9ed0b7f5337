import ViewGraph.Proofs.RenamedGraph
import ViewGraph.Proofs.RenamedRecords

/-!
# Records under other names

A template that is made of other objects has the same records: no id, no order and no failure depends on which
objects its elements are.

* `Allocator.idIn_map`: the id of a key does not depend on its name.
* `noteAll_moved`, `idOf_moved`: the elements claim the same ids, and have the same.
* `blockAt_moved`: an element has the same records.
* `outcome_moved`: the outcomes are the same, but for the names of elements that attributes hold.
-/

namespace ViewGraph

open ViewGraph.Graph

/-! ### Renamed keys -/

namespace Allocator

variable {κ : Type} [DecidableEq κ] {ρ : κ → κ} {l : List κ}

omit [DecidableEq κ] in
theorem mem_map_iff_of_apart {a : κ} (h : ∀ b ∈ l, ρ b = ρ a → b = a) : ρ a ∈ l.map ρ ↔ a ∈ l := by
  constructor
  · intro hmem
    obtain ⟨b, hb, heq⟩ := List.mem_map.mp hmem
    exact h b hb heq ▸ hb
  · exact List.mem_map_of_mem

/-- Keys that stay apart keep their first places. -/
theorem eraseDups_map (h : ∀ a ∈ l, ∀ b ∈ l, ρ a = ρ b → a = b) :
    (l.map ρ).eraseDups = l.eraseDups.map ρ := by
  induction l using List.reverseRecOn with
  | nil => rfl
  | append_singleton l a ih =>
    have hl : ∀ a ∈ l, ∀ b ∈ l, ρ a = ρ b → a = b := fun a ha b hb =>
      h a (List.mem_append_left _ ha) b (List.mem_append_left _ hb)
    have hmem : ρ a ∈ l.map ρ ↔ a ∈ l :=
      mem_map_iff_of_apart fun b hb => h b (List.mem_append_left _ hb) a (by simp)
    rw [List.map_append, List.map_singleton, eraseDups_concat, eraseDups_concat, ih hl]
    simp only [hmem]
    split_ifs
    · rfl
    · rw [List.map_append, List.map_singleton]

theorem idxOf_map {a : κ} (h : ∀ b ∈ l, ρ b = ρ a → b = a) : (l.map ρ).idxOf (ρ a) = l.idxOf a := by
  induction l with
  | nil => rfl
  | cons b l ih =>
    obtain ⟨hb, hl⟩ := List.forall_mem_cons.mp h
    rw [List.map_cons, List.idxOf_cons, List.idxOf_cons, ih hl]
    have hiff : ρ b = ρ a ↔ b = a := ⟨hb, congrArg ρ⟩
    by_cases hba : b = a <;> simp [beq_eq_decide, hiff, hba]

/-- **Ids of renamed keys.** The id of a key does not depend on its name. -/
theorem idIn_map {want want' : κ → Option String} {claimed : List String}
    (h : ∀ a ∈ l, ∀ b ∈ l, ρ a = ρ b → a = b) (hwant : ∀ a ∈ l, want' (ρ a) = want a) {k : κ} (hk : k ∈ l) :
    idIn want' claimed (l.map ρ) (ρ k) = idIn want claimed l k := by
  have hunnamed : unnamed want' (l.map ρ) = (unnamed want l).map ρ := by
    unfold unnamed
    rw [eraseDups_map h, List.filter_map]
    refine congrArg _ (List.filter_congr fun a ha => ?_)
    rw [Function.comp_apply, hwant a (List.mem_eraseDups.mp ha)]
  have hidx : ((unnamed want l).map ρ).idxOf (ρ k) = (unnamed want l).idxOf k :=
    idxOf_map fun b hb => h b (mem_unnamed.mp hb).1 k hk
  unfold idIn
  rw [hwant k hk, hunnamed, hidx]

end Allocator

/-! ### Renamed claims -/

section Claims

variable {ρ : Handle → Handle}

/-- Claims with the elements in them renamed. -/
def renameClaims (ρ : Handle → Handle) (claims : List (String × Handle)) : List (String × Handle) :=
  claims.map fun (id, h) => (id, ρ h)

/-- A claim is refused under other names exactly if it is refused. -/
theorem noteId_renameClaims {claims : List (String × Handle)} {h : Handle}
    (hapart : ∀ a ∈ claims, ρ a.2 = ρ h → a.2 = h) (id? : Option String) :
    noteId (renameClaims ρ claims) (ρ h) id? = (noteId claims h id?).map (renameClaims ρ) := by
  cases id? with
  | none => rfl
  | some id =>
    unfold noteId
    simp only [renameClaims, Table.find?_mapValues]
    cases hfind : Table.find? id claims with
    | none => exact congrArg Except.ok (Table.insert_mapValues ρ id h claims)
    | some k =>
      have hiff : ρ k = ρ h ↔ k = h := ⟨hapart (id, k) (Table.mem_of_find? hfind), congrArg ρ⟩
      by_cases hk : k = h
      · simp only [Option.map_some, Option.any_some, ne_eq, hk]
        exact congrArg Except.ok (Table.insert_mapValues ρ id h claims)
      · simp only [Option.map_some, Option.any_some, ne_eq, hiff, hk]
        rfl

theorem mem_of_noteId {claims claims' : List (String × Handle)} {h : Handle} {id? : Option String}
    (hok : noteId claims h id? = .ok claims') {a : String × Handle} (ha : a ∈ claims') :
    a.2 = h ∨ a ∈ claims := by
  cases id? with
  | none =>
    obtain rfl : claims = claims' := Except.ok.inj hok
    exact .inr ha
  | some id =>
    simp only [noteId] at hok
    split_ifs at hok
    obtain rfl := Except.ok.inj hok
    exact (Table.mem_of_mem_insert ha).imp_left fun heq => by rw [heq]

theorem mem_of_noteWanted {g : Graph} {claims claims' : List (String × Handle)} {h : Handle}
    (hok : g.noteWanted claims h = .ok claims') {a : String × Handle} (ha : a ∈ claims') :
    a.2 = h ∨ a ∈ claims := by
  unfold noteWanted at hok
  split at hok
  · exact mem_of_noteId hok ha
  · cases hok

end Claims

/-! ### Renamed blocks -/

section Blocks

variable {σ : Handle → Handle}

/-- The records of renamed blocks are those of the blocks, renamed. -/
theorem ofBlocks_rename (blocks : List Block) :
    DocumentFragment.ofBlocks (blocks.map (Block.rename σ)) = (DocumentFragment.ofBlocks blocks).rename σ := by
  have hstyled : ((blocks.map (Block.rename σ)).flatMap fun b => b.styles.map (b.inst.id, ·)) =
      (blocks.flatMap fun b => b.styles.map (b.inst.id, ·)).map
        fun (id, ds) => (id, ds.map (Declaration.rename σ)) := by
    simp only [List.flatMap_map, List.map_flatMap, Block.rename, List.map_map, Function.comp_def]
  have hprops : (blocks.map (Block.rename σ)).flatMap (·.props) =
      (blocks.flatMap (·.props)).map (PropRecord.rename σ) := by
    simp only [List.flatMap_map, List.map_flatMap, Block.rename]
  unfold DocumentFragment.ofBlocks
  rw [hstyled, hprops, List.map_map]
  generalize (blocks.flatMap fun b => b.styles.map (b.inst.id, ·)) = styled
  have hempty : (styled.flatMap fun a => a.2.map (Declaration.rename σ)).isEmpty =
      (styled.flatMap (·.2)).isEmpty := by
    rw [← List.map_flatMap, List.isEmpty_map]
  simp only [DocumentFragment.ofParts, DocumentFragment.rename, List.map_map, List.flatMap_map, List.map_flatMap,
    Function.comp_def, hempty]
  rfl

end Blocks

/-! ### The same elements -/

namespace Renames

variable {ρ σ : Handle → Handle} {g g' : Graph} {root : Handle}

section Walk

variable (hr : Renames ρ σ g g' root) (hac : g.Acyclic (.element root))

include hr hac

theorem apart_firstVisits : ∀ h ∈ g.firstVisits (.element root), ∀ k ∈ g.firstVisits (.element root),
    ρ h = ρ k → h = k := fun h hh k hk =>
  hr.apart h k ((mem_firstVisits hac).mp hh).1 ((mem_firstVisits hac).mp hk).1

/-- The same elements are met for the first time in the same order. -/
theorem firstVisits_moved :
    g'.firstVisits (.element (ρ root)) = (g.firstVisits (.element root)).map ρ := by
  have hlisting := hr.listing_moved hac.grounded (hr.acyclic_moved hac).grounded allPlaced_root
  have hapart : ∀ h ∈ g.listing [.element root], ∀ k ∈ g.listing [.element root], ρ h = ρ k → h = k :=
    fun h hh k hk => hr.apart h k ((mem_listing hac.grounded).mp hh).1 ((mem_listing hac.grounded).mp hk).1
  exact (congrArg List.eraseDups hlisting).trans (Allocator.eraseDups_map hapart)

section Element

variable {h : Handle} {e : Element} (hh : g.Reaches (.element root) h) (he : g.find? h = some e)

include hh he

theorem grounded_children : g.Grounded e.children ∧ g'.Grounded (e.children.map (Value.moved ρ σ)) := by
  have hroot' := (hr.acyclic_moved hac).grounded.of_reaches (hr.reaches_moved hh)
  exact ⟨(hac.grounded.of_reaches hh).children (by simp) he,
    hroot'.children (by simp) (hr.find?_placed (.of_reaches hh) he)⟩

theorem spliced_children :
    g'.spliced (e.children.map (Value.moved ρ σ)) = (g.spliced e.children).map (Value.moved ρ σ) :=
  have hgrounded := hr.grounded_children hac hh he
  hr.spliced_moved hgrounded.1 hgrounded.2 (allPlaced_children hh he)

omit hac in
theorem askedId?_moved : g'.askedId? (ρ h) = g.askedId? h := by
  simp only [Graph.askedId?, he, hr.find?_placed (.of_reaches hh) he, hr.explicitId?_moved hh he]

theorem linked_moved : g'.linked (ρ h) = (g.linked h).map ρ := by
  have hgrounded := hr.grounded_children hac hh he
  have hstructural := hr.structural_moved hgrounded.1 hgrounded.2 (allPlaced_children hh he)
  simp only [Graph.linked, he, hr.find?_placed (.of_reaches hh) he]
  exact hstructural

end Element

theorem askedId?_firstVisits {h : Handle} (hh : h ∈ g.firstVisits (.element root)) :
    g'.askedId? (ρ h) = g.askedId? h := by
  obtain ⟨hreach, e, he, -⟩ := (mem_firstVisits hac).mp hh
  exact hr.askedId?_moved hreach he

theorem wantedId?_firstVisits {h : Handle} (hh : h ∈ g.firstVisits (.element root)) :
    g'.wantedId? (ρ h) = g.wantedId? h := by
  rw [Graph.wantedId?, hr.askedId?_firstVisits hac hh, ← Graph.wantedId?]

theorem claimedIds_moved : g'.claimedIds (.element (ρ root)) = g.claimedIds (.element root) := by
  rw [Graph.claimedIds, hr.firstVisits_moved hac, Graph.claimedIds, List.filterMap_map]
  exact List.filterMap_congr fun h hh => hr.wantedId?_firstVisits hac hh

theorem resolutions_moved : g'.resolutions (g'.firstVisits (.element (ρ root))) =
    (g.resolutions (g.firstVisits (.element root))).map ρ := by
  rw [hr.firstVisits_moved hac, Graph.resolutions, Graph.resolutions, List.flatMap_map, List.map_flatMap]
  refine List.flatMap_congr fun h hh => ?_
  obtain ⟨hreach, e, he, -⟩ := (mem_firstVisits hac).mp hh
  rw [hr.linked_moved hac hreach he, List.map_cons]

/-- **Ids.** An element has the same id under its other name. -/
theorem idOf_moved {h : Handle} (hh : h ∈ g.firstVisits (.element root)) :
    g'.idOf (.element (ρ root)) (ρ h) = g.idOf (.element root) h := by
  have hsub : ∀ k ∈ g.resolutions (g.firstVisits (.element root)), k ∈ g.firstVisits (.element root) :=
    fun k hk => mem_firstVisits_of_mem_resolutions hac hk
  rw [Graph.idOf, hr.claimedIds_moved hac, hr.resolutions_moved hac]
  exact Allocator.idIn_map (fun h hh k hk => hr.apart_firstVisits hac h (hsub h hh) k (hsub k hk))
    (fun k hk => hr.wantedId?_firstVisits hac (hsub k hk)) (mem_resolutions hh)

/-- **Claims.** The claims of some elements are refused under other names exactly if they are refused. -/
theorem noteAll_moved {l : List Handle} (hl : ∀ h ∈ l, h ∈ g.firstVisits (.element root))
    {claims : List (String × Handle)} (hclaims : ∀ a ∈ claims, a.2 ∈ g.firstVisits (.element root)) :
    g'.noteAll (renameClaims ρ claims) (l.map ρ) = (g.noteAll claims l).map (renameClaims ρ) := by
  induction l generalizing claims with
  | nil => rfl
  | cons h l ih =>
    obtain ⟨hh, hl⟩ := List.forall_mem_cons.mp hl
    have hstep : g'.noteWanted (renameClaims ρ claims) (ρ h) =
        (g.noteWanted claims h).map (renameClaims ρ) := by
      unfold noteWanted
      rw [hr.askedId?_firstVisits hac hh]
      cases g.askedId? h with
      | error d => rfl
      | ok id? => exact noteId_renameClaims (fun a ha => hr.apart_firstVisits hac a.2 (hclaims a ha) h hh) id?
    rw [List.map_cons, noteAll_cons, noteAll_cons, hstep]
    cases hnoted : g.noteWanted claims h with
    | error d => rfl
    | ok claims' =>
      exact ih hl fun a ha => (mem_of_noteWanted hnoted ha).elim (fun heq => heq ▸ hh) (hclaims a)

/-! ### The same records -/

/-- The references to children are the same. -/
theorem referenceTo_moved {vs : List Value} (hvs : ∀ h ∈ g.structural vs, h ∈ g.firstVisits (.element root)) :
    ((g.spliced vs).map (Value.moved ρ σ)).mapM (referenceTo (g'.idOf (.element (ρ root)))) =
      (g.spliced vs).mapM (referenceTo (g.idOf (.element root))) := by
  rw [List.mapM_map]
  refine mapM_congr fun v hv => ?_
  rw [Function.comp_apply, referenceTo, referenceTo, Value.leaf?_moved]
  rcases role_of_mem_spliced hv with hl | ⟨h, e, hrole⟩
  · obtain ⟨l, hl⟩ := Option.isSome_iff_exists.mp hl
    rw [hl]
    exact leafChild_rename l
  · obtain ⟨rfl, -, -⟩ := roleOf_eq_concrete.mp hrole
    have hh := hvs h (List.mem_filterMap.mpr ⟨.element h, hv, rfl⟩)
    exact congrArg (fun id => Except.ok (Child.id id)) (hr.idOf_moved hac hh)

/-- **Elements.** An element has the same records, but for the names of the elements that they hold. -/
theorem blockAt_moved {h : Handle} (hh : h ∈ g.firstVisits (.element root)) :
    g'.blockAt (.element (ρ root)) (ρ h) = (g.blockAt (.element root) h).map (Block.rename σ) := by
  have hinstance := (mem_firstVisits hac).mp hh
  obtain ⟨hreach, e, he, -⟩ := hinstance
  have hstructural : ∀ k ∈ g.structural e.children, k ∈ g.firstVisits (.element root) := fun k hk =>
    (mem_firstVisits hac).mpr (hasInstance_of_mem_structural hac ((mem_firstVisits hac).mp hh) he hk)
  have hrecords : attributeRecords g' (g.idOf (.element root) h) (e.moved ρ σ).props =
      (attributeRecords g (g.idOf (.element root) h) e.props).map (renameRecords σ) :=
    (attributeRecords_congr g g' _ _).trans (attributeRecords_rename g _ e.props)
  have hrefs : (g'.spliced (e.moved ρ σ).children).mapM (referenceTo (g'.idOf (.element (ρ root)))) =
      (g.spliced e.children).mapM (referenceTo (g.idOf (.element root))) := by
    rw [Element.moved, hr.spliced_children hac hreach he]
    exact hr.referenceTo_moved hac hstructural
  simp only [Graph.blockAt, he, hr.find?_placed (.of_reaches hreach) he, blockOf, hr.idOf_moved hac hh, hrecords,
    hrefs, hr.text_component hreach he, hr.label?_moved hreach he]
  cases attributeRecords g (g.idOf (.element root) h) e.props with
  | error failure => rfl
  | ok records =>
    cases g.text e.component <;> cases g.label? e <;>
      cases (g.spliced e.children).mapM (referenceTo (g.idOf (.element root))) <;> rfl

/-- The references at the top are the same. -/
theorem refsTo_moved : g'.refsTo (.element (ρ root)) (g'.structural [.element (ρ root)]) =
    g.refsTo (.element root) (g.structural [.element root]) := by
  have hstructural : g'.structural [.element (ρ root)] = (g.structural [.element root]).map ρ :=
    hr.structural_moved hac.grounded (hr.acyclic_moved hac).grounded allPlaced_root
  rw [hstructural, Graph.refsTo, Graph.refsTo, List.map_map]
  refine List.map_congr_left fun h hh => ?_
  have hlisted := (mem_listing hac.grounded).mp (structural_subset_listing hac.grounded hh)
  rw [Function.comp_apply, hr.idOf_moved hac ((mem_firstVisits hac).mpr hlisted)]

/-- **Outcomes.** The outcome is the same, but for the names of the elements that the records hold. -/
theorem outcome_moved : (normalize g' (.element (ρ root))).outcome =
    (normalize g (.element root)).outcome.map (DocumentFragment.rename σ) := by
  have hnone : ∀ a ∈ ([] : List (String × Handle)), a.2 ∈ g.firstVisits (.element root) := by simp
  have hclaims : g'.noteAll [] ((g.firstVisits (.element root)).map ρ) =
      (g.noteAll [] (g.firstVisits (.element root))).map (renameClaims ρ) :=
    hr.noteAll_moved hac (fun _ hh => hh) hnone
  have hblocks : ((g.firstVisits (.element root)).map ρ).mapM (g'.blockAt (.element (ρ root))) =
      ((g.firstVisits (.element root)).mapM (g.blockAt (.element root))).map (List.map (Block.rename σ)) := by
    rw [List.mapM_map, ← mapM_map_result]
    exact mapM_congr fun h hh => hr.blockAt_moved hac hh
  rw [outcome_normalize hac, outcome_normalize (hr.acyclic_moved hac), hr.firstVisits_moved hac, hclaims, hblocks,
    hr.refsTo_moved hac]
  cases g.noteAll [] (g.firstVisits (.element root)) with
  | error d => rfl
  | ok claims =>
    cases (g.firstVisits (.element root)).mapM (g.blockAt (.element root)) with
    | error failure => rfl
    | ok blocks =>
      show Except.ok { DocumentFragment.ofBlocks (blocks.map (Block.rename σ)) with
        children := g.refsTo (.element root) (g.structural [.element root]) } = _
      rw [ofBlocks_rename]
      rfl

end Walk

end Renames

/-! ### The same elements in values -/

section Fixed

variable {ρ σ : Handle → Handle}

theorem Value.rename_id (v : Value) : v.rename id = v := rename_eq_self v fun _ _ => rfl

theorem Value.renameMembers_id (members : List (String × Value)) : renameMembers id members = members :=
  renameMembers_eq_self members fun _ _ => rfl

theorem PropContent.rename_id (c : PropContent) : c.rename id = c := by
  cases c with
  | action items =>
    exact congrArg PropContent.action (List.map_id'' Value.renameMembers_id items)
  | json v => exact congrArg PropContent.json v.rename_id
  | _ => rfl

theorem DocumentFragment.rename_id (f : DocumentFragment) : f.rename id = f := by
  have hprops : f.props.map (PropRecord.rename id) = f.props := List.map_id'' (fun p => by
    rw [PropRecord.rename, PropContent.rename_id]) f.props
  have hstyles : f.styles.map (StyleDecl.rename id) = f.styles := List.map_id'' (fun s => by
    rw [StyleDecl.rename, Value.rename_id]) f.styles
  have hvalues : ∀ vs : List Value, vs.map (Value.rename id) = vs := List.map_id'' Value.rename_id
  rw [rename, hprops, hstyles, hvalues, hvalues, hvalues]

variable {ρ' : Handle → Handle}

theorem Value.moved_of_fixed {v : Value} (hstanding : ∀ k, v = .element k → ρ k = ρ' k)
    (hheld : v.handle?.isNone → ∀ k ∈ v.held, σ k = k) : v.moved ρ σ = v.moved ρ' id := by
  cases v with
  | element k => exact congrArg Value.element (hstanding k rfl)
  | _ => exact (rename_eq_self _ (hheld rfl)).trans (rename_id _).symm

/-- Where the elements in values keep their names, only those that stand among children get others. -/
theorem Element.moved_of_fixed {e : Element} (hstanding : ∀ k, .element k ∈ e.children → ρ k = ρ' k)
    (hheld : ∀ k ∈ e.heldInValues, σ k = k) : e.moved ρ σ = e.moved ρ' id := by
  obtain ⟨haside, hvalues⟩ := List.forall_mem_append.mp hheld
  obtain ⟨hcomponent, hprops⟩ := List.forall_mem_append.mp haside
  have hchildren : e.children.map (Value.moved ρ σ) = e.children.map (Value.moved ρ' id) := by
    refine List.map_congr_left fun v hv => Value.moved_of_fixed (fun k heq => hstanding k (heq ▸ hv)) ?_
    exact fun hnone k hk => hvalues k (Value.mem_heldAll.mpr ⟨v, List.mem_filter.mpr ⟨hv, hnone⟩, hk⟩)
  rw [moved, moved, hchildren, Value.rename_eq_self _ hcomponent, Value.renameMembers_eq_self _ hprops,
    Value.rename_id, Value.renameMembers_id]

theorem Element.heldInValues_subset_held (e : Element) : e.heldInValues ⊆ e.held := by
  refine List.append_subset.mpr ⟨List.subset_append_left _ _, fun k hk => List.mem_append_right _ ?_⟩
  obtain ⟨v, hv, hkv⟩ := Value.mem_heldAll.mp hk
  exact Value.mem_heldAll.mpr ⟨v, (List.mem_filter.mp hv).1, hkv⟩

theorem Element.mem_held_of_mem_children {e : Element} {k : Handle} (hk : .element k ∈ e.children) : k ∈ e.held :=
  List.mem_append_right _ (Value.mem_heldAll.mpr ⟨.element k, hk, List.mem_cons_self⟩)

variable {g g' : Graph} {root : Handle}

/-- If the elements in values are the same, then they have the same names. -/
theorem Renames.of_fixed (hr : Renames ρ σ g g' root) (hfixed : ∀ h, g.Holds root h → σ h = h) :
    Renames ρ id g g' root where
  standing h hp := by
    rw [hr.standing h hp]
    refine Option.map_congr fun e he => Element.moved_of_fixed (fun _ _ => rfl) fun k hk => hfixed k ?_
    exact .value (hp.reaches (by simp [he])) he hk
  held h hh := by
    have hfind := hr.held h hh
    rw [hfixed h hh] at hfind
    refine hfind.trans (Option.map_congr fun e he => ?_)
    have hheld : ∀ k ∈ e.held, σ k = k := fun k hk => hfixed k (.within hh he hk)
    exact Element.moved_of_fixed (fun k hk => hheld k (Element.mem_held_of_mem_children hk))
      fun k hk => hheld k (e.heldInValues_subset_held hk)
  apart := hr.apart
  heldApart _ _ _ _ heq := heq

end Fixed

/-- **Names.** If a template is made of other objects, then the outcome is the same, but for the names of the
elements that attributes hold; and if attributes hold the very same objects, it is the same. -/
theorem names_immaterial {ρ σ : Handle → Handle} {g g' : Graph} {root : Handle} (hac : g.Acyclic (.element root))
    (hr : Renames ρ σ g g' root) :
    (normalize g' (.element (ρ root))).outcome =
        (normalize g (.element root)).outcome.map (DocumentFragment.rename σ) ∧
      ((∀ h, g.Holds root h → σ h = h) →
        (normalize g' (.element (ρ root))).outcome = (normalize g (.element root)).outcome) := by
  refine ⟨hr.outcome_moved hac, fun hfixed => ?_⟩
  rw [(hr.of_fixed hfixed).outcome_moved hac]
  cases (normalize g (.element root)).outcome with
  | error failure => rfl
  | ok f => exact congrArg Except.ok f.rename_id

/-- A box with a text, which stands in it twice and is its label and its icon too. -/
def labelledGraph : Graph := ⟨#[
  ⟨.str "Text", [], [.str "a"]⟩,
  ⟨.str "Box", [("ws:label", .element ⟨0⟩), ("icon", .element ⟨0⟩)], [.element ⟨0⟩, .str "b", .element ⟨0⟩]⟩]⟩

/-- Such a box of other objects. Its label and its icon are the text as it was, and another text stands in it. -/
def copiedGraph : Graph := ⟨#[
  ⟨.str "Text", [], [.str "a"]⟩,
  ⟨.str "Text", [], [.str "c"]⟩,
  ⟨.str "Text", [], [.str "a"]⟩,
  ⟨.str "Box", [("ws:label", .element ⟨0⟩), ("icon", .element ⟨0⟩)], [.element ⟨2⟩, .str "b", .element ⟨2⟩]⟩]⟩

/-- The object in the place of another one. -/
def copyOf (h : Handle) : Handle := ⟨h.index + 2⟩

/-- The only element in a value is the text. -/
theorem eq_of_holds_labelledGraph {h : Handle} (hh : labelledGraph.Holds ⟨1⟩ h) : h = ⟨0⟩ := by
  have hall : ∀ e ∈ labelledGraph.nodes.toList, ∀ k ∈ e.held, k = ⟨0⟩ := by decide
  have hmem : ∀ {h : Handle} {e : Element}, labelledGraph.find? h = some e → e ∈ labelledGraph.nodes.toList :=
    fun he => Array.mem_toList_iff.mpr (Array.mem_of_getElem? he)
  cases hh with
  | value _ he hk => exact hall _ (hmem he) _ (Element.heldInValues_subset_held _ hk)
  | within _ he hk => exact hall _ (hmem he) _ hk

theorem renames_copiedGraph : Renames copyOf id labelledGraph copiedGraph ⟨1⟩ where
  standing h _ := by
    match h with
    | ⟨0⟩ => rfl
    | ⟨1⟩ => rfl
    | ⟨n + 2⟩ => simp [copyOf, Graph.find?, labelledGraph, copiedGraph]
  held h hh := by
    obtain rfl := eq_of_holds_labelledGraph hh
    rfl
  apart h k _ _ heq := by
    cases h
    cases k
    simpa [copyOf] using heq
  heldApart _ _ _ _ heq := heq

theorem names_immaterial_copiedGraph : labelledGraph.Acyclic (.element ⟨1⟩) ∧
    Renames copyOf id labelledGraph copiedGraph ⟨1⟩ ∧ (∀ h, labelledGraph.Holds ⟨1⟩ h → id h = h) ∧
      ∃ f, (normalize labelledGraph (.element ⟨1⟩)).outcome = .ok f ∧
        (normalize copiedGraph (.element ⟨3⟩)).outcome = .ok f := by
  have hac : labelledGraph.Acyclic (.element ⟨1⟩) := acyclic_of_index_lt (by decide) _
  have hsame := (names_immaterial hac renames_copiedGraph).2 fun _ _ => rfl
  have hsome : (normalize labelledGraph (.element ⟨1⟩)).outcome.toOption.isSome = true := by decide +kernel
  cases hok : (normalize labelledGraph (.element ⟨1⟩)).outcome with
  | error e => simp [hok, Except.toOption] at hsome
  | ok f => exact ⟨hac, renames_copiedGraph, fun _ _ => rfl, f, rfl, hsame.trans hok⟩

end ViewGraph
