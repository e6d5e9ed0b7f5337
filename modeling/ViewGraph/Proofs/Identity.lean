import ViewGraph.Proofs.Run

/-!
# Identity of instances

Each element below a root has one instance, wherever and however often it stands there, and all links
to it name that instance.

* `StandsFor made v c`: `c` is what an instance has among its children at the place of `v`.
* `Materialized root f made`: the instances of `f` are made of the elements below the root, one of
  each, and every link names the one that is made of the element at its place.
* `exists_materialized`: this is so for the records of every graph that has records.
-/

namespace ViewGraph

open ViewGraph.Graph

/-! ### Definitions -/

/-- What an instance has among its children at the place of a spliced child: a leaf gives its own, which
is no link, and an element below the root links to the instance that is made of it. -/
def StandsFor (g : Graph) (root : Value) (made : Handle → Instance) (v : Value) (c : Child) : Prop :=
  match v.leaf? with
  | some l => leafChild l = .ok c ∧ ∀ id, c ≠ .id id
  | none => ∃ h, v = .element h ∧ g.HasInstance root h ∧ c = .id (made h).id

/-- The instances of some records are made of the elements below a root, one of each. -/
structure Materialized (g : Graph) (root : Value) (f : DocumentFragment) (made : Handle → Instance) :
    Prop where
  ids : (f.instances.map (·.id)).Nodup
  mem_iff : ∀ i, i ∈ f.instances ↔ ∃ h, g.HasInstance root h ∧ i = made h
  inj : ∀ h k, g.HasInstance root h → g.HasInstance root k → made h = made k → h = k
  /-- An instance shows its element. -/
  shows : ∀ h e, g.HasInstance root h → g.find? h = some e →
    g.text e.component = .ok (made h).component ∧ g.label? e = .ok (made h).label
  /-- An element that asks for an id has that one. -/
  named : ∀ h id, g.HasInstance root h → g.wantedId? h = some id → (made h).id = id
  /-- What stands at the top is what the root stands for, without leaves. -/
  top : List.Forall₂ (StandsFor g root made) ((g.spliced [root]).filter fun v => !v.isLeaf) f.children
  /-- The children of an instance are those of its element, spliced. -/
  below : ∀ h e, g.HasInstance root h → g.find? h = some e →
    List.Forall₂ (StandsFor g root made) (g.spliced e.children) (made h).children
  /-- Every link names one instance. -/
  links : ∀ id, .id id ∈ f.children ++ f.instances.flatMap (·.children) →
    ∃! i, i ∈ f.instances ∧ i.id = id

/-! ### What stands where -/

theorem checkChildOf_text_ne_id {ms : List (String × Value)} {c : Child}
    (h : checkChildOf .text ms = .valid c) (id : String) : c ≠ .id id := by
  obtain ⟨ofPlaceholder, placeholder, h1, -, rfl⟩ := Checked.seq_eq_valid.mp h
  obtain ⟨ofValue, value, h2, -, rfl⟩ := Checked.seq_eq_valid.mp h1
  obtain ⟨ofTag, tag, h3, -, rfl⟩ := Checked.seq_eq_valid.mp h2
  obtain rfl := Checked.valid.inj h3
  simp

theorem checkChildOf_expression_ne_id {ms : List (String × Value)} {c : Child}
    (h : checkChildOf .expression ms = .valid c) (id : String) : c ≠ .id id := by
  obtain ⟨ofValue, value, h1, -, rfl⟩ := Checked.seq_eq_valid.mp h
  obtain ⟨ofTag, tag, h2, -, rfl⟩ := Checked.seq_eq_valid.mp h1
  obtain rfl := Checked.valid.inj h2
  simp

theorem ofChecked_eq_ok {α : Type} {className : String} {r : Checked α} {a : α} :
    ofChecked className r = .ok a ↔ r = .valid a := by
  cases r <;> simp [ofChecked]

/-- A leaf gives no link. -/
theorem leafChild_ne_id {l : Leaf} {c : Child} (h : leafChild l = .ok c) (id : String) : c ≠ .id id := by
  cases l with
  | text s =>
    obtain rfl : _ = c := Except.ok.inj h
    simp
  | placeholder payload => exact checkChildOf_text_ne_id (ofChecked_eq_ok.mp h) id
  | expression payload => exact checkChildOf_expression_ne_id (ofChecked_eq_ok.mp h) id

variable {g : Graph} {root : Value}

/-- A reference stands for its child if the instances have the ids of their elements. -/
theorem standsFor_of_referenceTo {made : Handle → Instance} {idOf : Handle → String}
    (hid : ∀ h, (made h).id = idOf h) {v : Value} {c : Child}
    (hv : v.isLeaf = true ∨ ∃ h, v = .element h ∧ g.HasInstance root h)
    (hc : referenceTo idOf v = .ok c) : StandsFor g root made v c := by
  unfold StandsFor
  unfold referenceTo at hc
  cases hl : v.leaf? with
  | some l =>
    simp only [hl] at hc
    exact ⟨hc, leafChild_ne_id hc⟩
  | none =>
    obtain ⟨h, rfl, hh⟩ := hv.resolve_left (by simp [Value.isLeaf, hl])
    simp only [hl, Except.ok.injEq] at hc
    exact ⟨h, rfl, hh, by rw [← hc, hid]; rfl⟩

/-- Spliced children are leaves and elements below the root. -/
theorem hasInstance_of_mem_spliced {vs : List Value}
    (hvs : ∀ k ∈ g.structural vs, g.HasInstance root k) {v : Value} (hv : v ∈ g.spliced vs) :
    v.isLeaf = true ∨ ∃ h, v = .element h ∧ g.HasInstance root h := by
  rcases role_of_mem_spliced hv with hl | ⟨h, e, hr⟩
  · exact .inl hl
  · obtain ⟨rfl, -, -⟩ := roleOf_eq_concrete.mp hr
    exact .inr ⟨h, rfl, hvs h (List.mem_filterMap.mpr ⟨.element h, hv, rfl⟩)⟩

theorem hasInstance_of_mem_structural_root (hac : g.Acyclic root) {k : Handle}
    (hk : k ∈ g.structural [root]) : g.HasInstance root k :=
  (mem_listing hac.grounded).mp (structural_subset_listing hac.grounded hk)

/-- A link stands for an element below the root. -/
theorem exists_of_link {made : Handle → Instance} {vs : List Value} {cs : List Child}
    (h : List.Forall₂ (StandsFor g root made) vs cs) {id : String} (hid : .id id ∈ cs) :
    ∃ k, g.HasInstance root k ∧ id = (made k).id := by
  induction h with
  | nil => simp at hid
  | @cons v c vs cs hvc _ ih =>
    rcases List.mem_cons.mp hid with rfl | hid
    · unfold StandsFor at hvc
      split at hvc
      · exact absurd rfl (hvc.2 id)
      · obtain ⟨k, -, hk, heq⟩ := hvc
        exact ⟨k, hk, Child.id.inj heq⟩
    · exact ih hid

/-! ### One instance for each element -/

variable {f : DocumentFragment}

theorem mem_instances_iff (hac : g.Acyclic root) (hok : (normalize g root).outcome = .ok f)
    {i : Instance} : i ∈ f.instances ↔ ∃ h, g.HasInstance root h ∧ i = g.instanceAt root h := by
  rw [instances_of_normalize hac hok, List.mem_map]
  simp only [mem_firstVisits hac, eq_comm]

theorem nodup_instance_ids (hac : g.Acyclic root) (hok : (normalize g root).outcome = .ok f) :
    (f.instances.map (·.id)).Nodup := by
  rw [instances_of_normalize hac hok, List.map_map]
  refine List.Nodup.map_on (fun h hh k hk heq => ?_) (nodup_firstVisits root)
  rw [Function.comp_apply, Function.comp_apply, instanceAt_id, instanceAt_id] at heq
  exact distinctIds_of_normalize hac hok h hh k hk heq

theorem children_standFor (hac : g.Acyclic root) (hok : (normalize g root).outcome = .ok f)
    {h : Handle} {e : Element} (hh : g.HasInstance root h) (he : g.find? h = some e) :
    List.Forall₂ (StandsFor g root (g.instanceAt root)) (g.spliced e.children)
      (g.instanceAt root h).children := by
  obtain ⟨b, hb⟩ := blockAt_of_normalize hac hok ((mem_firstVisits hac).mpr hh)
  obtain ⟨-, -, -, -, hrefs⟩ := blockAt_eq_ok he hb
  rw [instanceAt_of_blockAt hb]
  have hbelow := fun v hv => hasInstance_of_mem_spliced (v := v)
    (fun k hk => hasInstance_of_mem_structural hac hh he hk) hv
  have hboth := (List.forall₂_and_left _ _).mpr ⟨hbelow, mapM_eq_ok.mp hrefs⟩
  exact hboth.imp fun v c hvc => standsFor_of_referenceTo instanceAt_id hvc.1 hvc.2

theorem refsTo_standFor {vs : List Value}
    (hvs : ∀ v ∈ vs, ∃ h, v = .element h ∧ g.HasInstance root h) :
    List.Forall₂ (StandsFor g root (g.instanceAt root)) vs
      (g.refsTo root (vs.filterMap Value.handle?)) := by
  induction vs with
  | nil => exact .nil
  | cons v vs ih =>
    obtain ⟨h, rfl, hh⟩ := hvs v (by simp)
    refine .cons ⟨h, rfl, hh, ?_⟩ (ih fun w hw => hvs w (List.mem_cons_of_mem _ hw))
    rw [instanceAt_id]

theorem top_standFor (hac : g.Acyclic root) (hok : (normalize g root).outcome = .ok f) :
    List.Forall₂ (StandsFor g root (g.instanceAt root))
      ((g.spliced [root]).filter fun v => !v.isLeaf) f.children := by
  obtain ⟨blocks, -, rfl⟩ := normalize_eq_ok hac hok
  have hstructural : g.structural [root] =
      ((g.spliced [root]).filter fun v => !v.isLeaf).filterMap Value.handle? := by
    rw [structural, List.filterMap_filter]
    refine List.filterMap_congr fun v _ => ?_
    by_cases hl : v.isLeaf <;> simp [hl, handle?_of_isLeaf]
  show List.Forall₂ _ _ (g.refsTo root (g.structural [root]))
  rw [hstructural]
  refine refsTo_standFor fun v hv => ?_
  obtain ⟨hmem, hl⟩ := List.mem_filter.mp hv
  have htop : ∀ k ∈ g.structural [root], g.HasInstance root k :=
    fun k hk => hasInstance_of_mem_structural_root hac hk
  exact (hasInstance_of_mem_spliced htop hmem).resolve_left (by simpa using hl)

theorem instanceAt_inj (hac : g.Acyclic root) (hok : (normalize g root).outcome = .ok f)
    {h k : Handle} (hh : g.HasInstance root h) (hk : g.HasInstance root k)
    (heq : g.instanceAt root h = g.instanceAt root k) : h = k := by
  have hid := congrArg Instance.id heq
  rw [instanceAt_id, instanceAt_id] at hid
  rw [← mem_firstVisits hac] at hh hk
  exact distinctIds_of_normalize hac hok h hh k hk hid

theorem instanceAt_shows (hac : g.Acyclic root) (hok : (normalize g root).outcome = .ok f)
    {h : Handle} {e : Element} (hh : g.HasInstance root h) (he : g.find? h = some e) :
    g.text e.component = .ok (g.instanceAt root h).component ∧
      g.label? e = .ok (g.instanceAt root h).label := by
  obtain ⟨b, hb⟩ := blockAt_of_normalize hac hok ((mem_firstVisits hac).mpr hh)
  obtain ⟨-, -, hcomponent, hlabel, -⟩ := blockAt_eq_ok he hb
  rw [instanceAt_of_blockAt hb]
  exact ⟨hcomponent, hlabel⟩

/-- Every link, at the top or in an instance, names the instance of an element below the root. -/
theorem exists_instance_of_link (hac : g.Acyclic root) (hok : (normalize g root).outcome = .ok f)
    {id : String} (hid : .id id ∈ f.children ++ f.instances.flatMap (·.children)) :
    ∃ k, g.HasInstance root k ∧ id = (g.instanceAt root k).id := by
  rcases List.mem_append.mp hid with htop | hbelow
  · exact exists_of_link (top_standFor hac hok) htop
  · obtain ⟨i, hi, hid⟩ := List.mem_flatMap.mp hbelow
    obtain ⟨h, hh, rfl⟩ := (mem_instances_iff hac hok).mp hi
    obtain ⟨e, he, -⟩ := hh.2
    exact exists_of_link (children_standFor hac hok hh he) hid

/-- **Identity.** If there are records, then every element below the root that is no fragment has one
instance, with the id that it asks for if it asks for one; no two instances have the same id; and every
link names the instance of the element at its place. -/
theorem exists_materialized (hac : g.Acyclic root) (hok : (normalize g root).outcome = .ok f) :
    ∃ made, Materialized g root f made :=
  ⟨g.instanceAt root,
    { ids := nodup_instance_ids hac hok
      mem_iff := fun i => mem_instances_iff hac hok
      inj := fun h k hh hk heq => instanceAt_inj hac hok hh hk heq
      shows := fun h e hh he => instanceAt_shows hac hok hh he
      named := fun h id _ hw => (instanceAt_id h).trans (idOf_of_wantedId? hw)
      top := top_standFor hac hok
      below := fun h e hh he => children_standFor hac hok hh he
      links := fun id hid => by
        obtain ⟨k, hk, rfl⟩ := exists_instance_of_link hac hok hid
        have hmem := (mem_instances_iff hac hok).mpr ⟨k, hk, rfl⟩
        refine ⟨g.instanceAt root k, ⟨hmem, rfl⟩, fun i ⟨hi, hid⟩ => ?_⟩
        exact List.inj_on_of_nodup_map (nodup_instance_ids hac hok) hi hmem hid }⟩

theorem exists_materialized_sharedGraph : ∃ f, sharedGraph.Acyclic sharedRoot ∧
    (normalize sharedGraph sharedRoot).outcome = .ok f ∧ f.equals sharedRecords = true ∧
      ∃ made, Materialized sharedGraph sharedRoot f made := by
  obtain ⟨f, hok, hsame⟩ := normalize_sharedGraph
  exact ⟨f, acyclic_sharedGraph, hok, hsame, exists_materialized acyclic_sharedGraph hok⟩

end ViewGraph
