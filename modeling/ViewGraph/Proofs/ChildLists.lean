import ViewGraph.Proofs.Identity

/-!
# The children of an instance

What stands in the list of children of an instance, child by child in the order of the source.

* `RefersTo g idOf inFragment vs cs`: the children `vs` of an element give the references `cs`, once the id
  of every element is known. In a fragment the leaves fall away.
* `RefersTo.unique`: they give no others.
* `refersTo_of_mapM`: the references to spliced children are these.
* `exists_childrenListed`: so it is for every instance of a graph that has records, and at the top for the
  root, which stands alone in a fragment.
-/

namespace ViewGraph

open ViewGraph.Graph

/-! ### Definitions -/

/-- The references that some children give, from left to right. An element that is no fragment gives its id, a
fragment what it gives for its own children, and what is no child nothing. -/
inductive RefersTo (g : Graph) (idOf : Handle → String) : Bool → List Value → List Child → Prop
  | nil {inFragment : Bool} : RefersTo g idOf inFragment [] []
  | text {s : String} {vs : List Value} {cs : List Child} (rest : RefersTo g idOf false vs cs) :
    RefersTo g idOf false (.str s :: vs) (.text s none :: cs)
  | placeholder {s : String} {vs : List Value} {cs : List Child} (rest : RefersTo g idOf false vs cs) :
    RefersTo g idOf false (.wrapped .placeholder (.str s) :: vs) (.text s (some true) :: cs)
  | expression {s : String} {vs : List Value} {cs : List Child} (rest : RefersTo g idOf false vs cs) :
    RefersTo g idOf false (.wrapped .expression (.str s) :: vs) (.expression s :: cs)
  /-- The leaves of a fragment fall away. -/
  | dropped {v : Value} {vs : List Value} {cs : List Child} (hl : v.isLeaf = true)
    (rest : RefersTo g idOf true vs cs) : RefersTo g idOf true (v :: vs) cs
  | concrete {inFragment : Bool} {h : Handle} {e : Element} {vs : List Value} {cs : List Child}
    (he : g.find? h = some e) (hf : e.isFragment = false) (rest : RefersTo g idOf inFragment vs cs) :
    RefersTo g idOf inFragment (.element h :: vs) (.id (idOf h) :: cs)
  | fragment {inFragment : Bool} {h : Handle} {e : Element} {vs : List Value} {inner cs : List Child}
    (he : g.find? h = some e) (hf : e.isFragment = true) (inside : RefersTo g idOf true e.children inner)
    (rest : RefersTo g idOf inFragment vs cs) :
    RefersTo g idOf inFragment (.element h :: vs) (inner ++ cs)
  | unsupported {inFragment : Bool} {v : Value} {vs : List Value} {cs : List Child} (hl : v.isLeaf = false)
    (hnone : ∀ h, v = .element h → g.find? h = none) (rest : RefersTo g idOf inFragment vs cs) :
    RefersTo g idOf inFragment (v :: vs) cs

/-- The instances of some records are made of the elements below a root, in the order of their first visits,
and each lists what the children of its element give and nothing else. -/
structure ChildrenListed (g : Graph) (root : Value) (f : DocumentFragment) (made : Handle → Instance) :
    Prop where
  instances : f.instances = (g.firstVisits root).map made
  /-- No two elements have the same id. -/
  distinct : ∀ h k, g.HasInstance root h → g.HasInstance root k → (made h).id = (made k).id → h = k
  /-- An instance shows its element. -/
  shows : ∀ h e, g.HasInstance root h → g.find? h = some e →
    g.text e.component = .ok (made h).component ∧ g.label? e = .ok (made h).label
  below : ∀ h e, g.HasInstance root h → g.find? h = some e →
    ∀ cs, RefersTo g (fun k => (made k).id) false e.children cs ↔ cs = (made h).children
  /-- The root stands alone in a fragment. -/
  top : ∀ cs, RefersTo g (fun k => (made k).id) true [root] cs ↔ cs = f.children

variable {g : Graph} {root : Value} {idOf : Handle → String}

/-! ### There is one list at most -/

@[simp] theorem isLeaf_str (s : String) : (Value.str s).isLeaf = true := rfl

@[simp] theorem isLeaf_placeholder (v : Value) : (Value.wrapped .placeholder v).isLeaf = true := rfl

@[simp] theorem isLeaf_expression (v : Value) : (Value.wrapped .expression v).isLeaf = true := rfl

@[simp] theorem isLeaf_element (h : Handle) : (Value.element h).isLeaf = false := rfl

theorem RefersTo.unique {inFragment : Bool} {vs : List Value} {cs cs' : List Child}
    (h : RefersTo g idOf inFragment vs cs) (h' : RefersTo g idOf inFragment vs cs') : cs = cs' := by
  induction h generalizing cs' with
  | nil =>
    cases h'
    rfl
  | text _ ih =>
    cases h' with
    | text rest => rw [ih rest]
    | unsupported hl => simp at hl
  | placeholder _ ih =>
    cases h' with
    | placeholder rest => rw [ih rest]
    | unsupported hl => simp at hl
  | expression _ ih =>
    cases h' with
    | expression rest => rw [ih rest]
    | unsupported hl => simp at hl
  | dropped hl _ ih =>
    cases h' with
    | dropped _ rest => exact ih rest
    | concrete => simp at hl
    | fragment => simp at hl
    | unsupported hl' _ rest => exact ih rest
  | @concrete _ h e vs cs he hf _ ih =>
    cases h' with
    | dropped hl => simp at hl
    | concrete _ _ rest => rw [ih rest]
    | fragment he' hf' =>
      obtain rfl := Option.some.inj (he.symm.trans he')
      simp [hf] at hf'
    | unsupported _ hnone => simp [hnone h rfl] at he
  | @fragment _ h e vs inner cs he hf _ _ ihInside ih =>
    cases h' with
    | dropped hl => simp at hl
    | concrete he' hf' =>
      obtain rfl := Option.some.inj (he.symm.trans he')
      simp [hf] at hf'
    | fragment he' _ inside rest =>
      obtain rfl := Option.some.inj (he.symm.trans he')
      rw [ihInside inside, ih rest]
    | unsupported _ hnone => simp [hnone h rfl] at he
  | unsupported hl hnone _ ih =>
    cases h' with
    | text => simp at hl
    | placeholder => simp at hl
    | expression => simp at hl
    | dropped _ rest => exact ih rest
    | concrete he => simp [hnone _ rfl] at he
    | fragment he => simp [hnone _ rfl] at he
    | unsupported _ _ rest => exact ih rest

/-! ### The references to spliced children -/

theorem mapM_singleton_eq_ok {α β ε : Type} {F : α → Except ε β} {a : α} {bs : List β} :
    [a].mapM F = .ok bs ↔ ∃ b, F a = .ok b ∧ bs = [b] := by
  rw [mapM_eq_ok, List.forall₂_cons_left_iff]
  constructor
  · rintro ⟨b, rest, hb, hrest, rfl⟩
    cases hrest
    exact ⟨b, hb, rfl⟩
  · rintro ⟨b, hb, rfl⟩
    exact ⟨b, [], hb, .nil, rfl⟩

/-- A placeholder that has a reference holds a text. -/
theorem textChild_placeholder {payload : Value} {c : Child}
    (h : textChild .text [("value", payload), ("placeholder", .bool true)] = .ok c) :
    ∃ s, payload = .str s ∧ c = .text s (some true) := by
  cases payload with
  | str s => exact ⟨s, rfl, (Except.ok.inj h).symm⟩
  | _ => exact nomatch h

theorem textChild_expression {payload : Value} {c : Child}
    (h : textChild .expression [("value", payload)] = .ok c) :
    ∃ s, payload = .str s ∧ c = .expression s := by
  cases payload with
  | str s => exact ⟨s, rfl, (Except.ok.inj h).symm⟩
  | _ => exact nomatch h

/-- A leaf that has a reference gives it. -/
theorem refersTo_leaf {v : Value} {c : Child} {vs : List Value} {cs : List Child} (hl : v.isLeaf = true)
    (hc : referenceTo idOf v = .ok c) (rest : RefersTo g idOf false vs cs) :
    RefersTo g idOf false (v :: vs) (c :: cs) := by
  cases v with
  | str s =>
    obtain rfl := Except.ok.inj hc
    exact .text rest
  | wrapped kind payload =>
    cases kind with
    | placeholder =>
      obtain ⟨s, rfl, rfl⟩ := textChild_placeholder hc
      exact .placeholder rest
    | expression =>
      obtain ⟨s, rfl, rfl⟩ := textChild_expression hc
      exact .expression rest
    | _ => simp [Value.isLeaf, Value.leaf?] at hl
  | _ => simp [Value.isLeaf, Value.leaf?] at hl

theorem find?_of_roleOf_unsupported {v : Value} (hr : g.roleOf v = .unsupported) :
    v.isLeaf = false ∧ ∀ h, v = .element h → g.find? h = none := by
  constructor
  · by_contra hl
    obtain ⟨l, hl⟩ := Option.ne_none_iff_exists'.mp (by simpa [Value.isLeaf] using hl)
    simp [roleOf_eq_leaf.mpr hl] at hr
  · rintro h rfl
    cases he : g.find? h with
    | none => rfl
    | some e =>
      rw [roleOf_element he] at hr
      split_ifs at hr

/-- **Spliced children.** The references to spliced children are those that the children give. -/
theorem refersTo_of_mapM {vs : List Value} (hg : g.Grounded vs) {inFragment : Bool} {cs : List Child}
    (h : ((g.spliced vs).filter fun w => !(inFragment && w.isLeaf)).mapM (referenceTo idOf) = .ok cs) :
    RefersTo g idOf inFragment vs cs := by
  induction hg using Grounded.rec_children generalizing inFragment cs with
  | step vs hg ih =>
    induction vs generalizing cs with
    | nil =>
      obtain rfl : [] = cs := by simpa [pure, Except.pure] using h
      exact .nil
    | cons v vs ihv =>
      have hv := hg.head
      rw [spliced_cons, List.filter_append, List.mapM_append] at h
      obtain ⟨first, hfirst, h⟩ := Logged.bind_eq_ok.mp h
      obtain ⟨more, hmore, h⟩ := Logged.bind_eq_ok.mp h
      obtain rfl := Except.ok.inj h
      have rest := ihv hg.tail (fun k e hk he => ih k e (List.mem_cons_of_mem _ hk) he) hmore
      cases hr : g.roleOf v with
      | leaf l =>
        have hl := isLeaf_of_roleOf_leaf hr
        cases inFragment with
        | true =>
          obtain rfl : [] = first := by simpa [spliced_leaf hr, hl, pure, Except.pure] using hfirst
          exact .dropped hl rest
        | false =>
          rw [spliced_leaf hr, List.filter_cons_of_pos (by simp), List.filter_nil] at hfirst
          obtain ⟨c, hc, rfl⟩ := mapM_singleton_eq_ok.mp hfirst
          exact refersTo_leaf hl hc rest
      | unsupported =>
        obtain ⟨hl, hnone⟩ := find?_of_roleOf_unsupported hr
        obtain rfl : [] = first := by simpa [spliced_unsupported hr, pure, Except.pure] using hfirst
        exact .unsupported hl hnone rest
      | concrete k e =>
        obtain ⟨rfl, he, hf⟩ := roleOf_eq_concrete.mp hr
        rw [spliced_concrete hr, List.filter_cons_of_pos (by simp), List.filter_nil] at hfirst
        obtain ⟨c, hc, rfl⟩ := mapM_singleton_eq_ok.mp hfirst
        obtain rfl := Except.ok.inj hc
        exact .concrete he hf rest
      | fragment ws =>
        -- Whether or not the fragment stands in another one, its leaves fall away.
        obtain ⟨k, e, rfl, he, hf, rfl⟩ := roleOf_eq_fragment hr
        have habsorb : ((g.spliced e.children).filter fun w => !(inFragment && w.isLeaf) && !w.isLeaf) =
            (g.spliced e.children).filter fun w => !(true && w.isLeaf) :=
          List.filter_congr fun w _ => by cases w.isLeaf <;> simp
        rw [spliced_fragment hv hr, List.filter_filter, habsorb] at hfirst
        exact .fragment he hf (ih k e (by simp) he hfirst) rest

/-- The references to the elements among spliced children. -/
theorem mapM_referenceTo_structural (vs : List Value) :
    ((g.spliced vs).filter fun w => !w.isLeaf).mapM (referenceTo idOf) =
      .ok ((g.structural vs).map fun h => Child.id (idOf h)) := by
  have hall : ∀ ws : List Value, (∀ w ∈ ws, w.isLeaf = true ∨ ∃ h e, g.roleOf w = .concrete h e) →
      (ws.filter fun w => !w.isLeaf).mapM (referenceTo idOf) =
        .ok ((ws.filterMap Value.handle?).map fun h => .id (idOf h)) := by
    intro ws hws
    induction ws with
    | nil => rfl
    | cons w ws ih =>
      have hrest := ih fun w hw => hws w (List.mem_cons_of_mem _ hw)
      rcases hws w (by simp) with hl | ⟨h, e, hr⟩
      · rw [List.filter_cons_of_neg (by simp [hl]), List.filterMap_cons_none (handle?_of_isLeaf hl), hrest]
      · obtain ⟨rfl, -, -⟩ := roleOf_eq_concrete.mp hr
        rw [List.filter_cons_of_pos (by simp), List.mapM_cons, hrest]
        rfl
  exact hall _ fun w hw => role_of_mem_spliced hw

/-! ### Every instance -/

variable {f : DocumentFragment}

theorem refersTo_children (hac : g.Acyclic root) (hok : (normalize g root).outcome = .ok f)
    {h : Handle} {e : Element} (hh : g.HasInstance root h) (he : g.find? h = some e) :
    RefersTo g (g.idOf root) false e.children (g.instanceAt root h).children := by
  obtain ⟨b, hb⟩ := blockAt_of_normalize hac hok ((mem_firstVisits hac).mpr hh)
  obtain ⟨-, -, -, -, hrefs⟩ := blockAt_eq_ok he hb
  have hgrounded : g.Grounded e.children := (hac.grounded.of_reaches hh.1).children (by simp) he
  rw [instanceAt_of_blockAt hb]
  exact refersTo_of_mapM hgrounded (by simpa using hrefs)

theorem refersTo_top (hac : g.Acyclic root) (hok : (normalize g root).outcome = .ok f) :
    RefersTo g (g.idOf root) true [root] f.children := by
  obtain ⟨blocks, -, rfl⟩ := normalize_eq_ok hac hok
  refine refersTo_of_mapM hac.grounded ?_
  simp only [Bool.true_and]
  exact mapM_referenceTo_structural [root]

/-- **Children.** If there are records, then the instance of every element lists in the order of the source
what the children of the element give: a text, a placeholder and an expression themselves, an element its
id, a fragment the ids of the elements in it, and anything else nothing. At the top it is the same for the
root alone in a fragment. -/
theorem exists_childrenListed (hac : g.Acyclic root) (hok : (normalize g root).outcome = .ok f) :
    ∃ made, ChildrenListed g root f made := by
  have hids : (fun k => (g.instanceAt root k).id) = g.idOf root := funext instanceAt_id
  have hiff : ∀ {inFragment : Bool} {vs : List Value} {listed : List Child},
      RefersTo g (g.idOf root) inFragment vs listed →
        ∀ cs, RefersTo g (fun k => (g.instanceAt root k).id) inFragment vs cs ↔ cs = listed := by
    intro inFragment vs listed hlisted cs
    rw [hids]
    exact ⟨fun h => h.unique hlisted, fun h => h ▸ hlisted⟩
  exact ⟨g.instanceAt root,
    { instances := instances_of_normalize hac hok
      distinct := fun h k hh hk heq => by
        rw [instanceAt_id, instanceAt_id] at heq
        rw [← mem_firstVisits hac] at hh hk
        exact distinctIds_of_normalize hac hok h hh k hk heq
      shows := fun h e hh he => instanceAt_shows hac hok hh he
      below := fun h e hh he => hiff (refersTo_children hac hok hh he)
      top := hiff (refersTo_top hac hok) }⟩

theorem exists_childrenListed_sharedGraph : ∃ f, sharedGraph.Acyclic sharedRoot ∧
    (normalize sharedGraph sharedRoot).outcome = .ok f ∧ f.equals sharedRecords = true ∧
      ∃ made, ChildrenListed sharedGraph sharedRoot f made := by
  obtain ⟨f, hok, hsame⟩ := normalize_sharedGraph
  exact ⟨f, acyclic_sharedGraph, hok, hsame, exists_childrenListed acyclic_sharedGraph hok⟩

end ViewGraph
