import ViewGraph.Proofs.Identity

/-!
# Links and rendering

The links of an instance are made before anything below it is rendered, and what rendering its children refers to is
thrown away.  Nevertheless both are the same: an id that was given once is kept, and both walks pass over the same
children.

* `Progress.Step`, `Progress.Leads`: what a normalization can do to its state.
* `Allocator.KeptBy a b`: `b` has the same id for every key of `a`.  This is what a step preserves.
* `Linked p vs links q`: on the way from `p` to `q` the elements among the spliced children `vs` were referred to.
* `linked_childRefs`, `linked_flatten`: so it is for both walks.
* `Rendered instances i links`: rendering what is below the instance `i` referred to `links`.
* `links_final`: whatever happens in between, the two walks give the same links; and so it is for every instance.
-/

namespace ViewGraph

open ViewGraph.Graph Relation

/-! ### Definitions -/

/-- Does a reference lead to an instance? -/
def Child.isLink : Child → Bool
  | .id _ => true
  | _ => false

/-- An id that was given is kept. -/
def Allocator.KeptBy {κ : Type} [DecidableEq κ] (a b : Allocator κ) : Prop :=
  ∀ k id, a.find? k = some id → b.find? k = some id

/-- References to some elements by the ids that they have. -/
def Named (ids : Ids) (hs : List Handle) (links : List Child) : Prop :=
  List.Forall₂ (fun h c => ∃ id, ids.find? h = some id ∧ c = .id id) hs links

namespace Progress

/-- What a normalization does at a time. -/
inductive Step (g : Graph) (p : Progress) : Progress → Prop
  /-- Some element asks for its id. -/
  | ask {h : Handle} {id : String} {ids : Ids} (hok : (resolve g p.ids h).outcome = .ok (id, ids)) :
    Step g p { p with ids := ids }
  /-- An id is noted as rendered. -/
  | mark (id : String) : Step g p { p with rendered := id :: p.rendered }
  /-- Records of attributes and styles are added. -/
  | write {records : DocumentFragment} (hsame : records.instances = p.records.instances) :
    Step g p { p with records := records }
  | add (i : Instance) :
    Step g p { p with records := { p.records with instances := p.records.instances ++ [i] } }

/-- A normalization can get from one state to the other, step by step. -/
def Leads (g : Graph) : Progress → Progress → Prop := ReflTransGen (Step g)

/-- A normalization of the graph below a root can get to this state. -/
def Reached (g : Graph) (root : Value) (p : Progress) : Prop :=
  ∃ claims, g.claims root = .ok claims ∧ Leads g (.ofReserved (claims.map (·.1))) p

end Progress

open Progress

/-- On the way from one state to the other, the elements among some children were referred to by the ids that they
have from then on. -/
structure Linked (g : Graph) (p : Progress) (vs : List Value) (links : List Child) (q : Progress) : Prop where
  leads : Leads g p q
  named : Named q.ids (g.structural vs) links

/-- Whatever the state is in which the references to some children are made, and whatever a normalization does before
these are rendered, the links among the references are those that rendering gives: the ids of the elements among
the children. -/
def LinksFinal (g : Graph) (vs : List Value) : Prop :=
  ∀ (p : Progress) refs ids, (childRefs g g.depth false p.ids vs).outcome = .ok (refs, ids) →
    ∀ q, Leads g { p with ids := ids } q → ∀ links r, (flatten g g.depth q vs).outcome = .ok (links, r) →
      refs.filter Child.isLink = links ∧ Named r.ids (g.structural vs) links

/-- `i` was added when its element was entered in the state `p`, and rendering the children of the element, which
came next, referred to `links`. -/
def RenderedFrom (g : Graph) (i : Instance) (e : Element) (p : Progress) (links : List Child)
    (r : Progress) : Prop :=
  ∃ q, (enter g p i.id e).outcome = .ok q ∧ q.records.instances = p.records.instances ++ [i] ∧
    (flatten g g.depth q e.children).outcome = .ok (links, r)

/-- `i` was rendered on the way to some instances, and rendering what is below it referred to `links`. -/
def Rendered (g : Graph) (root : Value) (instances : List Instance) (i : Instance) (links : List Child) : Prop :=
  ∃ h e p r, g.HasInstance root h ∧ g.find? h = some e ∧ Reached g root p ∧ RenderedFrom g i e p links r ∧
    r.records.instances <+: instances

/-! ### What a step preserves -/

namespace Allocator

variable {κ : Type} [DecidableEq κ] {a b c : Allocator κ}

theorem KeptBy.refl (a : Allocator κ) : a.KeptBy a := fun _ _ h => h

theorem KeptBy.trans (hab : a.KeptBy b) (hbc : b.KeptBy c) : a.KeptBy c := fun k id h => hbc k id (hab k id h)

theorem keptBy_assign (a : Allocator κ) (k : κ) (wanted : Option String) :
    a.KeptBy (a.assign k wanted).allocator :=
  fun _ _ hfind => find?_assign_of_find? hfind k wanted

end Allocator

variable {g : Graph}

theorem resolve_eq_ok {ids ids' : Ids} {h : Handle} {id : String}
    (hok : (resolve g ids h).outcome = .ok (id, ids')) :
    id = (ids.assign h (g.wantedId? h)).id ∧ ids' = (ids.assign h (g.wantedId? h)).allocator := by
  unfold resolve at hok
  rw [Logged.outcome_bind] at hok
  obtain ⟨wanted, hwanted, hok⟩ := Logged.bind_eq_ok.mp hok
  obtain rfl := wantedId?_of_askedId? (ofShown_eq_ok.mp hwanted)
  obtain ⟨hid, hids⟩ := Prod.mk.inj (Except.ok.inj hok)
  exact ⟨hid.symm, hids.symm⟩

namespace Progress

variable {p q r : Progress}

/-- **Step.** No step takes an id back. -/
theorem Step.keptBy (h : Step g p q) : p.ids.KeptBy q.ids := by
  cases h with
  | ask hok =>
    obtain ⟨-, rfl⟩ := resolve_eq_ok hok
    exact Allocator.keptBy_assign _ _ _
  | mark => exact .refl _
  | write => exact .refl _
  | add => exact .refl _

theorem Step.instances (h : Step g p q) : p.records.instances <+: q.records.instances := by
  cases h with
  | ask => exact List.prefix_rfl
  | mark => exact List.prefix_rfl
  | write hsame => rw [hsame]
  | add i => exact List.prefix_append _ _

namespace Leads

theorem refl (p : Progress) : Leads g p p := ReflTransGen.refl

theorem trans (h : Leads g p q) (h' : Leads g q r) : Leads g p r := ReflTransGen.trans h h'

theorem of_step (h : Step g p q) : Leads g p q := ReflTransGen.single h

/-- **Run.** An id that was given is kept for ever. -/
theorem keptBy (h : Leads g p q) : p.ids.KeptBy q.ids := by
  induction h with
  | refl => exact .refl _
  | tail _ hstep ih => exact ih.trans hstep.keptBy

theorem instances (h : Leads g p q) : p.records.instances <+: q.records.instances := by
  induction h with
  | refl => exact List.prefix_rfl
  | tail _ hstep ih => exact ih.trans hstep.instances

end Leads

theorem Reached.leads {root : Value} (hp : Reached g root p) (h : Leads g p q) : Reached g root q := by
  obtain ⟨claims, hclaims, hstart⟩ := hp
  exact ⟨claims, hclaims, hstart.trans h⟩

end Progress

/-! ### References by id -/

namespace Named

variable {ids ids' : Ids} {hs : List Handle} {links links' : List Child}

theorem mono (hkept : ids.KeptBy ids') (h : Named ids hs links) : Named ids' hs links :=
  h.imp fun h _ ⟨id, hid, hc⟩ => ⟨id, hkept h id hid, hc⟩

/-- There is only one way to refer to elements by their ids. -/
theorem unique (h : Named ids hs links) (h' : Named ids hs links') : links = links' := by
  induction h generalizing links' with
  | nil =>
    cases h'
    rfl
  | cons hc _ ih =>
    cases h' with
    | cons hc' hrest =>
      obtain ⟨id, hid, rfl⟩ := hc
      obtain ⟨id', hid', rfl⟩ := hc'
      rw [Option.some.inj (hid.symm.trans hid'), ih hrest]

end Named

namespace Linked

variable {p q r : Progress} {v : Value} {vs : List Value} {links links' more : List Child}

theorem of_structural_eq_nil (hvs : g.structural vs = []) : Linked g p vs [] p where
  leads := .refl p
  named := by
    rw [hvs]
    exact .nil

theorem cons (h : Linked g p [v] links q) (h' : Linked g q vs more r) : Linked g p (v :: vs) (links ++ more) r where
  leads := h.leads.trans h'.leads
  named := by
    rw [structural_cons]
    exact List.rel_append (h.named.mono h'.leads.keptBy) h'.named

theorem concrete {h : Handle} {e : Element} (hr : g.roleOf v = .concrete h e) {id : String} {ids : Ids}
    (hok : (resolve g p.ids h).outcome = .ok (id, ids)) : Linked g p [v] [.id id] { p with ids := ids } where
  leads := .of_step (.ask hok)
  named := by
    obtain ⟨rfl, rfl⟩ := resolve_eq_ok hok
    rw [structural_concrete hr]
    exact .cons ⟨_, Allocator.find?_assign _ _ _, rfl⟩ .nil

theorem fragment {cs : List Value} (hg : g.Grounded [v]) (hr : g.roleOf v = .fragment cs)
    (h : Linked g p cs links q) : Linked g p [v] links q where
  leads := h.leads
  named := by
    rw [structural_fragment hg hr]
    exact h.named

theorem leads_on (h : Linked g p vs links q) (hqr : Leads g q r) : Linked g p vs links r where
  leads := h.leads.trans hqr
  named := h.named.mono hqr.keptBy

/-- What was referred to once is referred to in the same way ever after. -/
theorem unique {s : Progress} (h : Linked g p vs links q) (hqr : Leads g q r) (h' : Linked g r vs links' s) :
    links = links' :=
  ((h.leads_on hqr).named.mono h'.leads.keptBy).unique h'.named

end Linked

/-! ### The references to children -/

theorem Logged.collect_cons_eq_ok {ε α β σ : Type} {one : σ → α → Logged ε (List β × σ)} {s t : σ} {a : α}
    {rest : List α} {bs : List β} (hok : (collect one s (a :: rest)).outcome = .ok (bs, t)) :
    ∃ first s' more, (one s a).outcome = .ok (first, s') ∧
      (collect one s' rest).outcome = .ok (more, t) ∧ bs = first ++ more := by
  rw [outcome_collect_cons] at hok
  obtain ⟨⟨first, s'⟩, hfirst, hok⟩ := bind_eq_ok.mp hok
  obtain ⟨⟨more, t'⟩, hmore, hok⟩ := bind_eq_ok.mp hok
  obtain ⟨rfl, rfl⟩ := Prod.mk.inj (Except.ok.inj hok)
  exact ⟨first, s', more, hfirst, hmore, rfl⟩

theorem isLink_of_leafChild {l : Leaf} {c : Child} (h : leafChild l = .ok c) : c.isLink = false := by
  cases c with
  | id id => exact absurd rfl (leafChild_ne_id h id)
  | _ => rfl

/-- **Step.** The links that a child gives refer to the elements it stands for, if those that `below` makes do so
for its own children. -/
theorem linked_childRef {below : Ids → List Value → Logged Failure (List Child × Ids)} {p : Progress} {v : Value}
    (hg : g.Grounded [v]) {inFragment : Bool} {refs : List Child} {ids : Ids}
    (hok : (childRef g below inFragment p.ids v).outcome = .ok (refs, ids))
    (hbelow : ∀ k e, v = .element k → g.find? k = some e →
      (below p.ids e.children).outcome = .ok (refs, ids) →
      Linked g p e.children (refs.filter Child.isLink) { p with ids := ids }) :
    Linked g p [v] (refs.filter Child.isLink) { p with ids := ids } := by
  unfold childRef at hok
  cases hr : g.roleOf v with
  | leaf l =>
    simp only [hr] at hok
    split_ifs at hok
    · obtain ⟨rfl, rfl⟩ := Prod.mk.inj (Except.ok.inj hok)
      exact .of_structural_eq_nil (structural_leaf hr)
    · rw [Logged.outcome_bind] at hok
      obtain ⟨c, hc, hok⟩ := Logged.bind_eq_ok.mp hok
      obtain ⟨rfl, rfl⟩ := Prod.mk.inj (Except.ok.inj hok)
      rw [List.filter_cons_of_neg (by simp [isLink_of_leafChild hc]), List.filter_nil]
      exact .of_structural_eq_nil (structural_leaf hr)
  | fragment cs =>
    simp only [hr] at hok
    obtain ⟨k, e, rfl, he, -, rfl⟩ := roleOf_eq_fragment hr
    exact (hbelow k e rfl he hok).fragment hg hr
  | concrete h e =>
    simp only [hr] at hok
    rw [Logged.outcome_bind] at hok
    obtain ⟨⟨id, ids'⟩, hid, hok⟩ := Logged.bind_eq_ok.mp hok
    obtain ⟨rfl, rfl⟩ := Prod.mk.inj (Except.ok.inj hok)
    exact .concrete hr hid
  | unsupported =>
    simp only [hr] at hok
    obtain ⟨rfl, rfl⟩ := Prod.mk.inj (Except.ok.inj hok)
    exact .of_structural_eq_nil (structural_unsupported hr)

/-- **Run.** The links among the references to some children refer to the elements among them. -/
theorem linked_childRefs {n : ℕ} {vs : List Value} (hn : g.Nested n vs) (hg : g.Grounded vs) {inFragment : Bool}
    {p : Progress} {refs : List Child} {ids : Ids}
    (hok : (childRefs g n inFragment p.ids vs).outcome = .ok (refs, ids)) :
    Linked g p vs (refs.filter Child.isLink) { p with ids := ids } := by
  induction n generalizing vs inFragment p refs ids with
  | zero => exact hn.elim
  | succ n ih =>
    unfold childRefs at hok
    induction vs generalizing p refs ids with
    | nil =>
      obtain ⟨rfl, rfl⟩ := Prod.mk.inj (Except.ok.inj hok)
      exact .of_structural_eq_nil structural_nil
    | cons v vs ihv =>
      obtain ⟨first, ids', more, hfirst, hmore, rfl⟩ := Logged.collect_cons_eq_ok hok
      -- Between two children only the ids have changed, so the state in between is one of the run.
      have head : Linked g p [v] (first.filter Child.isLink) { p with ids := ids' } :=
        linked_childRef hg.head hfirst fun k e hk he hcs =>
          ih (hn k e (by simp [hk]) he) (hg.children (by simp [hk]) he) hcs
      have tail := ihv (hn.subset (List.subset_cons_self v vs)) hg.tail (p := { p with ids := ids' }) hmore
      rw [List.filter_append]
      exact head.cons tail

/-! ### Rendering children -/

/-- The records of attributes leave the instances alone. -/
theorem instances_addDeclaration (source : String) (r : DocumentFragment) (d : Declaration) :
    (r.addDeclaration source d).instances = r.instances := by
  unfold DocumentFragment.addDeclaration DocumentFragment.breakpoint
  cases r.breakpoints <;> rfl

theorem instances_addStyles {id : String} {r r' : DocumentFragment} {v : Value}
    (hok : r.addStyles id v = .ok r') : r'.instances = r.instances := by
  unfold DocumentFragment.addStyles at hok
  obtain ⟨items, -, hok⟩ := Logged.bind_eq_ok.mp hok
  rw [foldlM_bind_pure] at hok
  obtain ⟨ds, -, hok⟩ := Logged.bind_eq_ok.mp hok
  obtain rfl := Except.ok.inj hok
  refine List.foldlRecOn ds _ (motive := fun s : DocumentFragment => s.instances = r.instances) rfl fun s hs d _ => ?_
  rw [instances_addDeclaration, hs]

theorem instances_addAttributes {id : String} {r r' : DocumentFragment} {attributes : List (String × Value)}
    (hok : (r.addAttributes g id attributes).outcome = .ok r') : r'.instances = r.instances := by
  induction attributes generalizing r with
  | nil => rw [← Except.ok.inj hok]
  | cons a rest ih =>
    obtain ⟨name, v⟩ := a
    unfold DocumentFragment.addAttributes at hok
    split_ifs at hok
    · exact ih hok
    · rw [Logged.outcome_bind] at hok
      obtain ⟨s, hs, hok⟩ := Logged.bind_eq_ok.mp hok
      rw [ih hok, instances_addStyles hs]
    · rw [Logged.outcome_bind] at hok
      obtain ⟨prop, -, hok⟩ := Logged.bind_eq_ok.mp hok
      rw [ih hok]

/-- Entering an element adds records of its attributes, refers to its children, and adds its instance. -/
theorem enter_eq_ok {p q : Progress} {id : String} {e : Element} (hok : (enter g p id e).outcome = .ok q) :
    ∃ (records : DocumentFragment) (i : Instance) (ids : Ids),
      id = i.id ∧ records.instances = p.records.instances ∧
      (childRefs g g.depth false p.ids e.children).outcome = .ok (i.children, ids) ∧
      q = ⟨ids, id :: p.rendered, { records with instances := records.instances ++ [i] }⟩ := by
  unfold enter at hok
  rw [Logged.outcome_bind] at hok
  obtain ⟨records, hrecords, hok⟩ := Logged.bind_eq_ok.mp hok
  rw [Logged.outcome_bind] at hok
  obtain ⟨component, -, hok⟩ := Logged.bind_eq_ok.mp hok
  rw [Logged.outcome_bind] at hok
  obtain ⟨label, -, hok⟩ := Logged.bind_eq_ok.mp hok
  rw [Logged.outcome_bind] at hok
  obtain ⟨⟨refs, ids⟩, hrefs, hok⟩ := Logged.bind_eq_ok.mp hok
  exact ⟨records, ⟨id, component, label, refs⟩, ids, rfl, instances_addAttributes hrecords, hrefs,
    (Except.ok.inj hok).symm⟩

/-- What comes after the references to the children, up to the instance itself. -/
theorem leads_enter_of_refs (p : Progress) (ids : Ids) (id : String) {records : DocumentFragment}
    (hsame : records.instances = p.records.instances) (i : Instance) :
    Leads g { p with ids := ids }
      ⟨ids, id :: p.rendered, { records with instances := records.instances ++ [i] }⟩ :=
  ((Leads.of_step (.write (p := { p with ids := ids }) hsame)).trans (.of_step (.mark id))).trans (.of_step (.add i))

theorem leads_enter {p q : Progress} {id : String} {e : Element} (hg : g.Grounded e.children)
    (hok : (enter g p id e).outcome = .ok q) : Leads g p q := by
  obtain ⟨records, i, ids, -, hsame, hrefs, rfl⟩ := enter_eq_ok hok
  exact (linked_childRefs hg hg hrefs).leads.trans (leads_enter_of_refs p ids id hsame _)

/-- Rendering an element refers to it by its id. Unless it was rendered, it is entered, and what is below it is
rendered. -/
theorem render_eq_ok {below : Progress → List Value → Logged Failure (List Child × Progress)} {p q : Progress}
    {h : Handle} {e : Element} {links : List Child} (hok : (render g below p h e).outcome = .ok (links, q)) :
    ∃ id ids, (resolve g p.ids h).outcome = .ok (id, ids) ∧ links = [.id id] ∧
      (q = { p with ids := ids } ∨ ∃ entered inner, (enter g { p with ids := ids } id e).outcome = .ok entered ∧
        (below entered e.children).outcome = .ok (inner, q)) := by
  unfold render at hok
  rw [Logged.outcome_bind] at hok
  obtain ⟨⟨id, ids⟩, hid, hok⟩ := Logged.bind_eq_ok.mp hok
  refine ⟨id, ids, hid, ?_⟩
  dsimp only at hok
  split_ifs at hok
  · obtain ⟨rfl, rfl⟩ := Prod.mk.inj (Except.ok.inj hok)
    exact ⟨rfl, .inl rfl⟩
  · rw [Logged.outcome_bind] at hok
    obtain ⟨entered, hentered, hok⟩ := Logged.bind_eq_ok.mp hok
    rw [Logged.outcome_bind] at hok
    obtain ⟨⟨inner, q'⟩, hinner, hok⟩ := Logged.bind_eq_ok.mp hok
    obtain ⟨rfl, rfl⟩ := Prod.mk.inj (Except.ok.inj hok)
    exact ⟨rfl, .inr ⟨entered, inner, hentered, hinner⟩⟩

/-- Rendering a child does nothing, or renders what stands in a fragment, or renders an element. -/
theorem flattenOne_eq_ok {below : Progress → List Value → Logged Failure (List Child × Progress)}
    {p q : Progress} {v : Value} {links : List Child} (hok : (flattenOne g below p v).outcome = .ok (links, q)) :
    (g.structural [v] = [] ∧ links = [] ∧ q = p) ∨
      (∃ cs, g.roleOf v = .fragment cs ∧ (below p cs).outcome = .ok (links, q)) ∨
        ∃ h e, g.roleOf v = .concrete h e ∧ (render g below p h e).outcome = .ok (links, q) := by
  unfold flattenOne at hok
  cases hr : g.roleOf v with
  | leaf l =>
    simp only [hr] at hok
    obtain ⟨rfl, rfl⟩ := Prod.mk.inj (Except.ok.inj hok)
    exact .inl ⟨structural_leaf hr, rfl, rfl⟩
  | unsupported =>
    simp only [hr] at hok
    obtain ⟨rfl, rfl⟩ := Prod.mk.inj (Except.ok.inj hok)
    exact .inl ⟨structural_unsupported hr, rfl, rfl⟩
  | fragment cs =>
    simp only [hr] at hok
    exact .inr (.inl ⟨cs, rfl, hok⟩)
  | concrete h e =>
    simp only [hr] at hok
    exact .inr (.inr ⟨h, e, rfl, hok⟩)

/-- **Step.** A child that is rendered is referred to, if `below` does so for its own children. -/
theorem linked_flattenOne {below : Progress → List Value → Logged Failure (List Child × Progress)}
    {p q : Progress} {v : Value} (hg : g.Grounded [v]) {links : List Child}
    (hok : (flattenOne g below p v).outcome = .ok (links, q))
    (hbelow : ∀ k e, v = .element k → g.find? k = some e → ∀ p links q,
      (below p e.children).outcome = .ok (links, q) → Linked g p e.children links q) :
    Linked g p [v] links q := by
  rcases flattenOne_eq_ok hok with ⟨hnone, rfl, rfl⟩ | ⟨cs, hr, hcs⟩ | ⟨h, e, hr, hrender⟩
  · exact .of_structural_eq_nil hnone
  · obtain ⟨k, e, rfl, he, -, rfl⟩ := roleOf_eq_fragment hr
    exact (hbelow k e rfl he p links q hcs).fragment hg hr
  · obtain ⟨id, ids, hid, rfl, hrest⟩ := render_eq_ok hrender
    have here := Linked.concrete hr hid
    rcases hrest with rfl | ⟨entered, inner, hentered, hinner⟩
    · exact here
    · have hge := hg.of_concrete hr
      obtain ⟨rfl, he, -⟩ := roleOf_eq_concrete.mp hr
      have hrest := (hbelow h e rfl he entered inner q hinner).leads
      exact here.leads_on ((leads_enter hge hentered).trans hrest)

/-- **Run.** Rendering some children refers to the elements among them. -/
theorem linked_flatten {n : ℕ} {vs : List Value} (hn : g.Nested n vs) (hg : g.Grounded vs) {p q : Progress}
    {links : List Child} (hok : (flatten g n p vs).outcome = .ok (links, q)) : Linked g p vs links q := by
  induction n generalizing vs p links q with
  | zero => exact hn.elim
  | succ n ih =>
    unfold flatten at hok
    induction vs generalizing p links q with
    | nil =>
      obtain ⟨rfl, rfl⟩ := Prod.mk.inj (Except.ok.inj hok)
      exact .of_structural_eq_nil structural_nil
    | cons v vs ihv =>
      obtain ⟨first, p', more, hfirst, hmore, rfl⟩ := Logged.collect_cons_eq_ok hok
      have head : Linked g p [v] first p' :=
        linked_flattenOne hg.head hfirst fun k e hk he p links q hbelow =>
          ih (hn k e (by simp [hk]) he) (hg.children (by simp [hk]) he) hbelow
      exact head.cons (ihv (hn.subset (List.subset_cons_self v vs)) hg.tail hmore)

/-! ### Instances as they are rendered -/

theorem Logged.collect_congr {ε α β σ : Type} {one one' : σ → α → Logged ε (List β × σ)} {l : List α}
    (h : ∀ a ∈ l, ∀ s, one s a = one' s a) (s : σ) : collect one s l = collect one' s l := by
  induction l generalizing s with
  | nil => rfl
  | cons a l ih =>
    simp only [collect, h a List.mem_cons_self, ih fun b hb => h b (List.mem_cons_of_mem a hb)]

/-- What stands in each other only so deep is rendered in the same way if more is allowed. -/
theorem flatten_of_nested {n m : ℕ} {vs : List Value} (hn : g.Nested n vs) (hm : n ≤ m) (p : Progress) :
    flatten g m p vs = flatten g n p vs := by
  induction n generalizing m vs p with
  | zero => exact hn.elim
  | succ n ih =>
    obtain ⟨m, rfl⟩ : ∃ m', m = m' + 1 := ⟨m - 1, by omega⟩
    refine Logged.collect_congr (fun v hv p => ?_) p
    have hbelow : ∀ k e, v = .element k → g.find? k = some e → ∀ p,
        flatten g m p e.children = flatten g n p e.children :=
      fun k e hk he p => ih (hn k e (hk ▸ hv) he) (by omega) p
    unfold flattenOne
    cases hr : g.roleOf v with
    | fragment cs =>
      obtain ⟨k, e, rfl, he, -, rfl⟩ := roleOf_eq_fragment hr
      exact hbelow k e rfl he p
    | concrete h e =>
      obtain ⟨rfl, he, -⟩ := roleOf_eq_concrete.mp hr
      simp only [render, hbelow h e rfl he]
    | _ => rfl

theorem linksFinal_of_grounded {vs : List Value} (hg : g.Grounded vs) : LinksFinal g vs := by
  intro p refs ids hrefs q hq links r hlinks
  have first := linked_childRefs hg hg hrefs
  have second := linked_flatten hg hg hlinks
  exact ⟨first.unique hq second, second.named⟩

/-- The links of an instance are those that rendering gives. -/
theorem RenderedFrom.links {i : Instance} {e : Element} {p r : Progress} {links : List Child}
    (hg : g.Grounded e.children) (h : RenderedFrom g i e p links r) : i.children.filter Child.isLink = links := by
  obtain ⟨q, hq, hadded, hlinks⟩ := h
  obtain ⟨records, j, ids, -, hsame, hrefs, rfl⟩ := enter_eq_ok hq
  obtain rfl : j = i := by
    simpa only [hsame, List.append_cancel_left_eq, List.cons.injEq, and_true] using hadded
  exact (linksFinal_of_grounded hg p _ ids hrefs _ (leads_enter_of_refs p ids _ hsame _) links r hlinks).1

section Instances

variable (g) (root : Value)

/-- Whatever instance is new on the way from one state to the other was rendered on this way. -/
def Explained (p q : Progress) : Prop :=
  ∀ i ∈ q.records.instances, i ∈ p.records.instances ∨ ∃ links, Rendered g root q.records.instances i links

variable {g root} {p q r : Progress}

theorem Explained.of_instances_eq (h : q.records.instances = p.records.instances) : Explained g root p q :=
  fun _ hi => .inl (h ▸ hi)

theorem Explained.trans (h : Explained g root p q) (h' : Explained g root q r)
    (hqr : q.records.instances <+: r.records.instances) : Explained g root p r := by
  intro i hi
  rcases h' i hi with hi | hi
  · rcases h i hi with hi | ⟨links, k, e, s, t, hk, he, hs, hi, ht⟩
    · exact .inl hi
    · exact .inr ⟨links, k, e, s, t, hk, he, hs, hi, ht.trans hqr⟩
  · exact .inr hi

/-- An element that is entered adds its instance. -/
theorem Explained.of_enter {h : Handle} {e : Element} {id : String} {entered : Progress} {links : List Child}
    (hh : g.HasInstance root h) (he : g.find? h = some e) (hp : Reached g root p)
    (hentered : (enter g p id e).outcome = .ok entered)
    (hbelow : (flatten g g.depth entered e.children).outcome = .ok (links, q))
    (hrest : Explained g root entered q) : Explained g root p q := by
  intro i hi
  rcases hrest i hi with hi | hi
  · obtain ⟨records, j, ids, rfl, hsame, hrefs, rfl⟩ := enter_eq_ok hentered
    rcases List.mem_append.mp hi with hi | hi
    · exact .inl (hsame ▸ hi)
    · obtain rfl := List.mem_singleton.mp hi
      refine .inr ⟨links, h, e, p, q, hh, he, hp, ⟨_, hentered, ?_, hbelow⟩, List.prefix_rfl⟩
      simp only [hsame]
  · exact .inr hi

/-- **Step.** The instances that are new once a child was rendered were rendered with it. -/
theorem explained_flattenOne {n : ℕ} {v : Value} (hg : g.Grounded [v])
    (hroot : ∀ k, g.ReachesFrom [v] k → g.Reaches root k)
    (hn : ∀ k e, v = .element k → g.find? k = some e → g.Nested n e.children) (hnd : n ≤ g.depth)
    {links : List Child} (hp : Reached g root p) (hok : (flattenOne g (flatten g n) p v).outcome = .ok (links, q))
    (hbelow : ∀ k e, v = .element k → g.find? k = some e → ∀ p links q, Reached g root p →
      (flatten g n p e.children).outcome = .ok (links, q) → Explained g root p q) : Explained g root p q := by
  rcases flattenOne_eq_ok hok with ⟨-, -, rfl⟩ | ⟨cs, hr, hcs⟩ | ⟨h, e, hr, hrender⟩
  · exact .of_instances_eq rfl
  · obtain ⟨k, e, rfl, he, -, rfl⟩ := roleOf_eq_fragment hr
    exact hbelow k e rfl he p links q hp hcs
  · obtain ⟨id, ids, hid, -, hrest⟩ := render_eq_ok hrender
    rcases hrest with rfl | ⟨entered, inner, hentered, hinner⟩
    · exact .of_instances_eq rfl
    · have hge := hg.of_concrete hr
      obtain ⟨rfl, he, hf⟩ := roleOf_eq_concrete.mp hr
      have hreach : g.Reaches root h := hroot h ((reachesFrom_element he).mpr (.inl rfl))
      have hasked := hp.leads (.of_step (.ask hid))
      have hrest := hbelow h e rfl he entered inner q (hasked.leads (leads_enter hge hentered)) hinner
      -- `Rendered` speaks of the depth of the graph, which is more than is left on this level.
      rw [← flatten_of_nested (hn h e rfl he) hnd] at hinner
      have hall : Explained g root { p with ids := ids } q :=
        .of_enter ⟨hreach, e, he, hf⟩ he hasked hentered hinner hrest
      exact hall

/-- **Run.** The instances that are new once some children were rendered were rendered with them. -/
theorem explained_flatten {n : ℕ} {vs : List Value} (hn : g.Nested n vs) (hnd : n ≤ g.depth) (hg : g.Grounded vs)
    (hroot : ∀ k, g.ReachesFrom vs k → g.Reaches root k) {links : List Child} (hp : Reached g root p)
    (hok : (flatten g n p vs).outcome = .ok (links, q)) : Explained g root p q := by
  induction n generalizing vs p links q with
  | zero => exact hn.elim
  | succ n ih =>
    unfold flatten at hok
    induction vs generalizing p links q with
    | nil =>
      obtain ⟨rfl, rfl⟩ := Prod.mk.inj (Except.ok.inj hok)
      exact .of_instances_eq rfl
    | cons v vs ihv =>
      obtain ⟨first, p', more, hfirst, hmore, rfl⟩ := Logged.collect_cons_eq_ok hok
      have hdeep : ∀ k e, v = .element k → g.find? k = some e → g.Nested n e.children :=
        fun k e hk he => hn k e (by simp [hk]) he
      have hground : ∀ k e, v = .element k → g.find? k = some e → g.Grounded e.children :=
        fun k e hk he => hg.children (by simp [hk]) he
      have head : Explained g root p p' :=
        explained_flattenOne hg.head (fun k hk => hroot k (hk.mono (by simp))) hdeep (by omega) hp hfirst
          fun k e hk he p links q hp hbelow => by
            refine ih (hdeep k e hk he) (by omega) (hground k e hk he) (fun m hm => hroot m ?_) hp hbelow
            exact ReachesFrom.mono (by simp [hk]) ((reachesFrom_element he).mpr (.inr hm))
      -- The children after the first are rendered in a state that can be reached too.
      have hhead : Leads g p p' := (linked_flattenOne hg.head hfirst fun k e hk he p links q hbelow =>
        linked_flatten (hdeep k e hk he) (hground k e hk he) hbelow).leads
      have tail := ihv (hn.subset (List.subset_cons_self v vs)) hg.tail
        (fun k hk => hroot k (hk.mono (List.subset_cons_self v vs))) (hp.leads hhead) hmore
      have htail : Linked g p' vs more q :=
        linked_flatten (hn.subset (List.subset_cons_self v vs)) hg.tail (by unfold flatten; exact hmore)
      exact head.trans tail htail.leads.instances

/-- Every instance was rendered, from the first state on. -/
theorem rendered_of_normalize (hac : g.Acyclic root) {f : DocumentFragment}
    (hok : (normalize g root).outcome = .ok f) {i : Instance} (hi : i ∈ f.instances) :
    ∃ links, Rendered g root f.instances i links := by
  unfold normalize at hok
  rw [Logged.outcome_bind] at hok
  obtain ⟨claims, hclaims, hok⟩ := Logged.bind_eq_ok.mp hok
  rw [Logged.outcome_bind] at hok
  obtain ⟨⟨children, p⟩, hflat, hok⟩ := Logged.bind_eq_ok.mp hok
  obtain rfl := Except.ok.inj hok
  have hstart : Reached g root (.ofReserved (claims.map (·.1))) := by
    refine ⟨claims, ?_, .refl _⟩
    rw [Logged.outcome_ofExcept] at hclaims
    cases hc : g.claims root with
    | error d => simp [hc, Except.mapError] at hclaims
    | ok claims' =>
      rw [hc] at hclaims
      rw [Except.ok.inj hclaims]
  exact (explained_flatten hac.grounded le_rfl hac.grounded (fun k hk => hk) hstart hflat i hi).resolve_left
    List.not_mem_nil

end Instances

/-- **Links.** Below a root without cycles, the links that are made for the children of an element are those that
rendering the children refers to, however much was done in between.  So the links of every instance are those that
rendering what is below it, which came right after, referred to. -/
theorem links_final {root : Value} (hac : g.Acyclic root) :
    (∀ h e, g.Reaches root h → g.find? h = some e → LinksFinal g e.children) ∧
      ∀ f, (normalize g root).outcome = .ok f → ∀ i ∈ f.instances, ∃ links,
        Rendered g root f.instances i links ∧ i.children.filter Child.isLink = links := by
  have hground : ∀ h e, g.Reaches root h → g.find? h = some e → g.Grounded e.children :=
    fun h e hh he => (hac.grounded.of_reaches hh).children (by simp) he
  refine ⟨fun h e hh he => linksFinal_of_grounded (hground h e hh he), fun f hok i hi => ?_⟩
  obtain ⟨links, hrendered⟩ := rendered_of_normalize hac hok hi
  refine ⟨links, hrendered, ?_⟩
  obtain ⟨h, e, p, r, hh, he, -, hfrom, -⟩ := hrendered
  exact hfrom.links (hground h e hh.1 he)

/-- What stands in the box of the shared graph. -/
def sharedChildren : List Value := [.element ⟨2⟩, .str "b", .element ⟨0⟩]

/-- The box is given its id after its children were referred to, and before they are rendered. -/
theorem walks_sharedChildren : ∃ refs ids q links r,
    (childRefs sharedGraph sharedGraph.depth false (Progress.ofReserved ["1"]).ids sharedChildren).outcome =
        .ok (refs, ids) ∧
      Leads sharedGraph { Progress.ofReserved ["1"] with ids := ids } q ∧ q.ids.ids ≠ ids.ids ∧
      (flatten sharedGraph sharedGraph.depth q sharedChildren).outcome = .ok (links, r) ∧
      refs = [.id "1", .id "0", .text "b" none, .id "1"] := by
  have hall : (childRefs sharedGraph sharedGraph.depth false (Progress.ofReserved ["1"]).ids
      sharedChildren).outcome.toOption.any (fun first =>
        (resolve sharedGraph first.2 ⟨3⟩).outcome.toOption.any (fun asked =>
          (flatten sharedGraph sharedGraph.depth { Progress.ofReserved ["1"] with ids := asked.2 }
            sharedChildren).outcome.toOption.any (fun _ =>
              asked.2.ids != first.2.ids && first.1 == [.id "1", .id "0", .text "b" none, .id "1"]))) = true := by
    decide +kernel
  obtain ⟨⟨refs, ids⟩, hrefs, hall⟩ := exists_ok_of_any hall
  obtain ⟨⟨id, asked⟩, hasked, hall⟩ := exists_ok_of_any hall
  obtain ⟨⟨links, r⟩, hlinks, hall⟩ := exists_ok_of_any hall
  obtain ⟨hne, hshown⟩ := Bool.and_eq_true_iff.mp hall
  exact ⟨refs, ids, _, links, r, hrefs, .of_step (.ask hasked), by simpa using hne, hlinks, by simpa using hshown⟩

theorem links_final_sharedGraph : sharedGraph.Acyclic sharedRoot ∧
    (∃ refs ids q links r,
      (childRefs sharedGraph sharedGraph.depth false (Progress.ofReserved ["1"]).ids sharedChildren).outcome =
          .ok (refs, ids) ∧
        Leads sharedGraph { Progress.ofReserved ["1"] with ids := ids } q ∧ q.ids.ids ≠ ids.ids ∧
        (flatten sharedGraph sharedGraph.depth q sharedChildren).outcome = .ok (links, r) ∧
        refs = [.id "1", .id "0", .text "b" none, .id "1"] ∧ refs.filter Child.isLink = links) ∧
    ∃ f, (normalize sharedGraph sharedRoot).outcome = .ok f ∧ f.equals sharedRecords = true ∧
      ∀ i ∈ f.instances, ∃ links,
        Rendered sharedGraph sharedRoot f.instances i links ∧ i.children.filter Child.isLink = links := by
  obtain ⟨hfinal, hinstances⟩ := links_final acyclic_sharedGraph
  obtain ⟨f, hok, hsame⟩ := normalize_sharedGraph
  obtain ⟨refs, ids, q, links, r, hrefs, hq, hne, hlinks, hshown⟩ := walks_sharedChildren
  have hroot : sharedGraph.Reaches sharedRoot ⟨3⟩ := ⟨⟨3⟩, by simp [sharedRoot], rfl, .refl⟩
  refine ⟨acyclic_sharedGraph, ⟨refs, ids, q, links, r, hrefs, hq, hne, hlinks, hshown, ?_⟩, f, hok, hsame,
    hinstances f hok⟩
  exact (hfinal ⟨3⟩ _ hroot rfl _ refs ids hrefs q hq links r hlinks).1

end ViewGraph
