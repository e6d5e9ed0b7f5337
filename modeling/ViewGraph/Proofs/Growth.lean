import ViewGraph.Builder
import ViewGraph.Proofs.Acceptance
import ViewGraph.Proofs.Transparency

/-!
# Children that are given as an attribute

An element that is built takes up the children that its attribute `children` stands for, after the others.  An
element that keeps the attribute has no records of it.  Here is what these children add.  A number among them with
too many digits stands for no child, and then the element is not built at all.

* `Element.GrownTo`, `Graph.GrownTo`: an element, and all elements of a graph, in which the attribute became
  children.
* `Builder.attributeReferences`: the references to these children.
* `detached_of_soundProps`: none of them is an element, if the attributes were loaded.
* `GrownTo.spliced`, `GrownTo.listing`: so the same elements are met.
* `GrownTo.blockAt`: the instance of an element refers to these children too, after the others.
* `GrownTo.outcome_normalize`: the records are the same but for these references.
-/

namespace ViewGraph

open ViewGraph.Graph

/-! ### Definitions -/

/-- A value that is no element, and that holds a text if it is a leaf. -/
structure Value.Detached (v : Value) : Prop where
  handle : v.handle? = none
  leaf : v.isLeaf = true → v.IsLeafValue

/-- The reference that a value gives by itself, if it is a leaf. -/
def Value.reference? (v : Value) : Option Child := v.leaf?.bind fun l => (leafChild l).toOption

namespace Builder

variable (props : List (String × Value))

/-- The children that the attribute of that name stands for. -/
def attributeChildren : Shown (List Value) :=
  flattenOne ((Table.find? Element.childrenAttribute props).getD .null)

/-- The references to the leaves among them. -/
def attributeReferences : List Child :=
  match attributeChildren props with
  | .ok children => children.filterMap Value.reference?
  | .error _ => []

end Builder

/-- The attribute `children` of an element became children, among which there is no element. -/
structure Element.GrownTo (e e' : Element) : Prop where
  component : e'.component = e.component
  props : e'.props = e.props.filter fun (name, _) => name ≠ Element.childrenAttribute
  children : ∃ more, Builder.attributeChildren e.props = .ok more ∧ e'.children = e.children ++ more ∧
    ∀ v ∈ more, v.Detached

/-- Every element of a graph became such an element. -/
structure Graph.GrownTo (g g' : Graph) : Prop where
  size : g'.nodes.size = g.nodes.size
  find? : ∀ h, Option.Rel Element.GrownTo (g.find? h) (g'.find? h)

/-- An instance that refers to more children. -/
def Instance.withMore (i : Instance) (more : List Child) : Instance :=
  { i with children := i.children ++ more }

/-- A block whose instance refers to more children. -/
def Block.withMore (b : Block) (more : List Child) : Block := { b with inst := b.inst.withMore more }

/-- Records whose instances refer to more children. -/
def DocumentFragment.withMore (f : DocumentFragment) (more : List (List Child)) : DocumentFragment :=
  { f with instances := List.zipWith Instance.withMore f.instances more }

/-! ### Values without elements -/

variable {number : Number → Bool}

section Detached

theorem Value.Detached.str (s : String) : (Value.str s).Detached := ⟨rfl, fun _ => .text s⟩

mutual

/-- No element is among the children that JSON data stand for. -/
theorem detached_of_isJson : ∀ v : Value, v.isJson number = true →
    ∀ {ws : List Value}, Builder.flattenOne v = .ok ws → ∀ w ∈ ws, w.Detached
  | .null, _, _, h => by
    obtain rfl := Except.ok.inj h
    simp
  | .bool _, _, _, h => by
    obtain rfl := Except.ok.inj h
    simp
  | .int _, _, _, h => by
    obtain ⟨text, -, h⟩ := Logged.bind_eq_ok.mp h
    obtain rfl := Except.ok.inj h
    exact List.forall_mem_singleton.mpr (.str _)
  | .float _, _, _, h => by
    obtain rfl := Except.ok.inj h
    exact List.forall_mem_singleton.mpr (.str _)
  | .str s, _, _, h => by
    obtain rfl := Except.ok.inj h
    exact List.forall_mem_singleton.mpr (.str s)
  | .list items, hv, _, h => by
    rw [Builder.flattenOne] at h
    exact detached_of_allJson items (by simpa [Value.isJson] using hv) h
  | .dict members, _, _, h => by
    obtain rfl := Except.ok.inj h
    exact List.forall_mem_singleton.mpr ⟨rfl, by simp [Value.isLeaf, Value.leaf?]⟩
  | .tuple _, hv, _, _ => by simp [Value.isJson] at hv
  | .wrapped _ _, hv, _, _ => by simp [Value.isJson] at hv
  | .action _ _, hv, _, _ => by simp [Value.isJson] at hv
  | .page _ _, hv, _, _ => by simp [Value.isJson] at hv
  | .style _ _ _, hv, _, _ => by simp [Value.isJson] at hv
  | .fragment, hv, _, _ => by simp [Value.isJson] at hv
  | .component _, hv, _, _ => by simp [Value.isJson] at hv
  | .element _, hv, _, _ => by simp [Value.isJson] at hv

theorem detached_of_allJson : ∀ vs : List Value, Value.allJson number vs = true →
    ∀ {ws : List Value}, Builder.flatten vs = .ok ws → ∀ w ∈ ws, w.Detached
  | [], _, _, h => by
    obtain rfl := Except.ok.inj h
    simp
  | v :: rest, hvs, _, h => by
    obtain ⟨hv, hrest⟩ : v.isJson number = true ∧ Value.allJson number rest = true := by
      simpa [Value.allJson] using hvs
    obtain ⟨children, hchildren, h⟩ := Logged.bind_eq_ok.mp h
    obtain ⟨more, hmore, h⟩ := Logged.bind_eq_ok.mp h
    obtain rfl := Except.ok.inj h
    exact List.forall_mem_append.mpr
      ⟨detached_of_isJson v hv hchildren, detached_of_allJson rest hrest hmore⟩

end

/-- A typed value is passed as it is. -/
theorem flattenOne_of_isTyped {v : Value} (hv : v.IsTyped) : Builder.flattenOne v = .ok [v] := by
  cases hv <;> rfl

theorem detached_of_isTyped {v : Value} (hv : v.IsTyped) : v.Detached := by
  cases hv with
  | wrapped kind s =>
    refine ⟨rfl, fun hl => ?_⟩
    cases kind with
    | expression => exact .expression s
    | placeholder => exact .placeholder s
    | _ => simp [Value.isLeaf, Value.leaf?] at hl
  | _ => exact ⟨rfl, by simp [Value.isLeaf, Value.leaf?]⟩

mutual

/-- JSON data whose numbers have few digits stand for children. -/
theorem exists_flattenOne : ∀ v : Value, v.isShortDocument = true → ∃ ws, Builder.flattenOne v = .ok ws
  | .null, _ => ⟨_, rfl⟩
  | .bool _, _ => ⟨_, rfl⟩
  | .int n, h => by
    obtain ⟨text, htext⟩ := (exists_showInt_iff n).mpr h
    exact ⟨_, Logged.bind_eq_ok.mpr ⟨text, htext, rfl⟩⟩
  | .float _, _ => ⟨_, rfl⟩
  | .str _, _ => ⟨_, rfl⟩
  | .list items, h => by
    rw [Builder.flattenOne]
    exact exists_flatten items h
  | .dict _, _ => ⟨_, rfl⟩
  | .tuple _, h => by simp [Value.isShortDocument, Value.isJson] at h
  | .wrapped _ _, _ => ⟨_, rfl⟩
  | .action _ _, _ => ⟨_, rfl⟩
  | .page _ _, _ => ⟨_, rfl⟩
  | .style _ _ _, _ => ⟨_, rfl⟩
  | .fragment, _ => ⟨_, rfl⟩
  | .component _, _ => ⟨_, rfl⟩
  | .element _, _ => ⟨_, rfl⟩

theorem exists_flatten : ∀ vs : List Value, Value.allJson Number.isShown vs = true →
    ∃ ws, Builder.flatten vs = .ok ws
  | [], _ => ⟨_, rfl⟩
  | v :: rest, h => by
    obtain ⟨hv, hrest⟩ := Bool.and_eq_true_iff.mp h
    rw [Builder.flatten, exists_map₂_eq_ok_iff]
    exact ⟨exists_flattenOne v hv, exists_flatten rest hrest⟩

end

/-- None of the children that an attribute stands for is an element, if the attributes were loaded. -/
theorem detached_of_soundProps {props : List (String × Value)} (hprops : SoundProps number props)
    {more : List Value} (hmore : Builder.attributeChildren props = .ok more) : ∀ v ∈ more, v.Detached := by
  unfold Builder.attributeChildren at hmore
  cases hfind : Table.find? Element.childrenAttribute props with
  | none =>
    rw [hfind] at hmore
    obtain rfl := Except.ok.inj hmore
    simp
  | some v =>
    rw [hfind] at hmore
    rcases hprops.values _ (Table.mem_of_find? hfind) with hv | hv
    · exact detached_of_isJson v hv hmore
    · obtain rfl := Except.ok.inj ((flattenOne_of_isTyped hv).symm.trans hmore)
      exact List.forall_mem_singleton.mpr (detached_of_isTyped hv)

/-- Attributes whose numbers have few digits stand for children. -/
theorem exists_attributeChildren {props : List (String × Value)} (hprops : SoundProps Number.isShown props) :
    ∃ more, Builder.attributeChildren props = .ok more := by
  unfold Builder.attributeChildren
  cases hfind : Table.find? Element.childrenAttribute props with
  | none => exact ⟨_, rfl⟩
  | some v =>
    rcases hprops.values _ (Table.mem_of_find? hfind) with hv | hv
    · exact exists_flattenOne v hv
    · exact ⟨_, flattenOne_of_isTyped hv⟩

variable {g : Graph} {vs : List Value}

theorem roleOf_of_detached {v : Value} (hv : v.Detached) :
    (∃ l, g.roleOf v = .leaf l) ∨ v.isLeaf = false ∧ g.roleOf v = .unsupported := by
  cases hl : v.leaf? with
  | some l => exact .inl ⟨l, roleOf_eq_leaf.mpr hl⟩
  | none =>
    refine .inr ⟨by simp [Value.isLeaf, hl], ?_⟩
    have hhandle := hv.handle
    cases v with
    | element h => simp [Value.handle?] at hhandle
    | _ => simp [roleOf, hl, nodeRole]

theorem spliced_detached (hvs : ∀ v ∈ vs, v.Detached) : g.spliced vs = vs.filter (·.isLeaf) := by
  induction vs with
  | nil => rfl
  | cons v vs ih =>
    obtain ⟨hv, hvs⟩ := List.forall_mem_cons.mp hvs
    rw [spliced_cons, ih hvs]
    rcases roleOf_of_detached (g := g) hv with ⟨l, hr⟩ | ⟨hl, hr⟩
    · rw [spliced_leaf hr, List.filter_cons_of_pos (isLeaf_of_roleOf_leaf hr)]
      rfl
    · rw [spliced_unsupported hr, List.filter_cons_of_neg (by simp [hl])]
      rfl

theorem structural_detached (hvs : ∀ v ∈ vs, v.Detached) : g.structural vs = [] := by
  rw [structural, spliced_detached hvs, List.filterMap_eq_nil_iff]
  exact fun v hv => (hvs v (List.mem_filter.mp hv).1).handle

theorem listing_detached (hvs : ∀ v ∈ vs, v.Detached) : g.listing vs = [] := by
  induction vs with
  | nil => rfl
  | cons v vs ih =>
    obtain ⟨hv, hvs⟩ := List.forall_mem_cons.mp hvs
    rw [listing_cons, ih hvs]
    rcases roleOf_of_detached (g := g) hv with ⟨l, hr⟩ | ⟨-, hr⟩
    · rw [listing_leaf hr, List.append_nil]
    · rw [listing_unsupported hr, List.append_nil]

theorem Graph.Nested.append_detached {n : ℕ} {ws : List Value} (hn : g.Nested n vs)
    (hws : ∀ w ∈ ws, w.Detached) : g.Nested n (vs ++ ws) := by
  cases n with
  | zero => exact hn.elim
  | succ n =>
    intro k e hk he
    rcases List.mem_append.mp hk with hk | hk
    · exact hn k e hk he
    · exact absurd (hws _ hk).handle (by simp [Value.handle?])

end Detached

/-! ### The references to leaves -/

theorem referenceTo_of_isLeafValue {v : Value} (hv : v.IsLeafValue) (idOf : Handle → String) :
    ∃ c, referenceTo idOf v = .ok c ∧ v.reference? = some c := by
  cases hv with
  | text s => exact ⟨.text s none, rfl, rfl⟩
  | placeholder s => exact ⟨.text s (some true), rfl, rfl⟩
  | expression s => exact ⟨.expression s, rfl, rfl⟩

/-- Leaves refer to themselves, whichever ids the elements have. -/
theorem mapM_referenceTo_detached {vs : List Value} (hvs : ∀ v ∈ vs, v.Detached) (idOf : Handle → String) :
    (vs.filter (·.isLeaf)).mapM (referenceTo idOf) =
      .ok (vs.filterMap Value.reference?) := by
  induction vs with
  | nil => rfl
  | cons v vs ih =>
    obtain ⟨hv, hvs⟩ := List.forall_mem_cons.mp hvs
    by_cases hl : v.isLeaf = true
    · obtain ⟨c, hc, hleaf⟩ := referenceTo_of_isLeafValue (hv.leaf hl) idOf
      rw [List.filter_cons_of_pos hl, List.mapM_cons, hc, ih hvs, List.filterMap_cons_some hleaf]
      rfl
    · have hnone : v.leaf? = none := by simpa [Value.isLeaf] using hl
      rw [List.filter_cons_of_neg hl, ih hvs, List.filterMap_cons_none (by rw [Value.reference?, hnone]; rfl)]

/-! ### The other attributes -/

/-- An attribute of that name has no record. -/
theorem attributeRecords_filter (g : Graph) (id : String) (props : List (String × Value)) :
    attributeRecords g id (props.filter fun (name, _) => name ≠ Element.childrenAttribute) =
      attributeRecords g id props := by
  induction props with
  | nil => rfl
  | cons a rest ih =>
    obtain ⟨name, v⟩ := a
    by_cases hname : name = Element.childrenAttribute
    · have hreserved : isReserved name = true := by rw [hname]; decide
      rw [List.filter_cons_of_neg (by simp [hname]), ih, attributeRecords, if_pos hreserved]
    · rw [List.filter_cons_of_pos (by simp [hname]), attributeRecords, attributeRecords, ih]

theorem find?_filter_children {name : String} (hname : name ≠ Element.childrenAttribute)
    (props : List (String × Value)) :
    Table.find? name (props.filter fun (name, _) => name ≠ Element.childrenAttribute) =
      Table.find? name props := by
  induction props with
  | nil => rfl
  | cons a rest ih =>
    obtain ⟨other, v⟩ := a
    by_cases hother : other = Element.childrenAttribute
    · have hne : name ≠ other := fun heq => hname (heq.trans hother)
      rw [List.filter_cons_of_neg (by simp [hother]), ih, Table.find?_cons, if_neg hne]
    · rw [List.filter_cons_of_pos (by simp [hother]), Table.find?_cons, Table.find?_cons, ih]

/-! ### Records with more references -/

theorem mapM_withMore {α ε : Type} (F : α → Except ε Block) (more : α → List Child) (l : List α) :
    l.mapM (fun a => (F a).map (·.withMore (more a))) =
      (l.mapM F).map fun blocks => List.zipWith Block.withMore blocks (l.map more) := by
  induction l with
  | nil => rfl
  | cons a l ih =>
    rw [List.mapM_cons, List.mapM_cons, ih]
    cases F a with
    | error e => rfl
    | ok b =>
      cases l.mapM F with
      | error e => rfl
      | ok blocks => rfl

/-- What a block holds besides the references is the same. -/
theorem flatMap_withMore {β : Type} {F : Block → List β} (hF : ∀ b more, F (b.withMore more) = F b)
    {blocks : List Block} {more : List (List Child)} (hlength : blocks.length = more.length) :
    (List.zipWith Block.withMore blocks more).flatMap F = blocks.flatMap F := by
  induction blocks generalizing more with
  | nil => rfl
  | cons b blocks ih =>
    cases more with
    | nil => simp at hlength
    | cons m more =>
      rw [List.zipWith_cons_cons, List.flatMap_cons, List.flatMap_cons, hF, ih (by simpa using hlength)]

theorem ofBlocks_withMore {blocks : List Block} {more : List (List Child)}
    (hlength : blocks.length = more.length) :
    DocumentFragment.ofBlocks (List.zipWith Block.withMore blocks more) =
      (DocumentFragment.ofBlocks blocks).withMore more := by
  have hinstances : (List.zipWith Block.withMore blocks more).map (·.inst) =
      List.zipWith Instance.withMore (blocks.map (·.inst)) more := by
    rw [List.map_zipWith, List.zipWith_map_left]
    rfl
  rw [DocumentFragment.ofBlocks, hinstances, flatMap_withMore (fun _ _ => rfl) hlength,
    flatMap_withMore (fun _ _ => rfl) hlength]
  rfl

theorem withMore_eq_self {i : Instance} {more : List Child} : i.withMore more = i ↔ more = [] := by
  constructor
  · intro h
    have hchildren := congrArg (·.children) h
    simpa [Instance.withMore] using hchildren
  · rintro rfl
    simp [Instance.withMore]

theorem zipWith_withMore_eq_self {instances : List Instance} {more : List (List Child)}
    (hlength : instances.length = more.length) :
    List.zipWith Instance.withMore instances more = instances ↔ ∀ m ∈ more, m = [] := by
  induction instances generalizing more with
  | nil =>
    obtain rfl : more = [] := List.eq_nil_of_length_eq_zero hlength.symm
    simp
  | cons i instances ih =>
    cases more with
    | nil => simp at hlength
    | cons m more =>
      rw [List.zipWith_cons_cons, List.cons.injEq, withMore_eq_self, ih (by simpa using hlength),
        List.forall_mem_cons]

/-- Records are left as they are exactly if there is nothing more to refer to. -/
theorem DocumentFragment.withMore_eq_self {f : DocumentFragment} {more : List (List Child)}
    (hlength : f.instances.length = more.length) : f.withMore more = f ↔ ∀ m ∈ more, m = [] := by
  rw [← zipWith_withMore_eq_self hlength]
  exact ⟨fun h => congrArg (·.instances) h, fun h => by rw [DocumentFragment.withMore, h]⟩

/-! ### The same walk -/

namespace Graph.GrownTo

variable {g g' : Graph} (hgrown : g.GrownTo g')

include hgrown

theorem exists_find? {h : Handle} {e : Element} (he : g.find? h = some e) :
    ∃ e', g'.find? h = some e' ∧ e.GrownTo e' := by
  have hrel := hgrown.find? h
  rw [he] at hrel
  generalize g'.find? h = found at hrel ⊢
  cases hrel with
  | some hee' => exact ⟨_, rfl, hee'⟩

theorem exists_of_find? {h : Handle} {e' : Element} (he' : g'.find? h = some e') :
    ∃ e, g.find? h = some e ∧ e.GrownTo e' := by
  have hrel := hgrown.find? h
  rw [he'] at hrel
  generalize g.find? h = found at hrel ⊢
  cases hrel with
  | some hee' => exact ⟨_, rfl, hee'⟩

theorem depth : g'.depth = g.depth := by
  rw [Graph.depth, Graph.depth, hgrown.size]

theorem nested {n : ℕ} {vs : List Value} (hn : g.Nested n vs) : g'.Nested n vs := by
  induction n generalizing vs with
  | zero => exact hn.elim
  | succ n ih =>
    intro k e' hk he'
    obtain ⟨e, he, hee'⟩ := hgrown.exists_of_find? he'
    obtain ⟨more, -, hchildren, hmore⟩ := hee'.children
    rw [hchildren]
    exact (ih (hn k e hk he)).append_detached hmore

theorem grounded {vs : List Value} (hg : g.Grounded vs) : g'.Grounded vs := by
  unfold Grounded
  rw [hgrown.depth]
  exact hgrown.nested hg

theorem roleOf_concrete {v : Value} {h : Handle} {e : Element} (hr : g.roleOf v = .concrete h e) :
    ∃ e', g'.roleOf v = .concrete h e' ∧ e.GrownTo e' := by
  obtain ⟨rfl, he, hf⟩ := roleOf_eq_concrete.mp hr
  obtain ⟨e', he', hee'⟩ := hgrown.exists_find? he
  refine ⟨e', roleOf_eq_concrete.mpr ⟨rfl, he', ?_⟩, hee'⟩
  rwa [Element.isFragment, hee'.component]

theorem roleOf_fragment {v : Value} {cs : List Value} (hr : g.roleOf v = .fragment cs) :
    ∃ ws, g'.roleOf v = .fragment (cs ++ ws) ∧ ∀ w ∈ ws, w.Detached := by
  obtain ⟨h, e, rfl, he, hf, rfl⟩ := roleOf_eq_fragment hr
  obtain ⟨e', he', hee'⟩ := hgrown.exists_find? he
  have hf' : e'.isFragment = true := by rwa [Element.isFragment, hee'.component]
  obtain ⟨more, -, hchildren, hmore⟩ := hee'.children
  exact ⟨more, by rw [roleOf_element he', if_pos hf', hchildren], hmore⟩

theorem roleOf_unsupported {v : Value} (hr : g.roleOf v = .unsupported) :
    g'.roleOf v = .unsupported := by
  cases hl : v.leaf? with
  | some l => simp [roleOf, hl] at hr
  | none =>
    cases v with
    | element h =>
      cases he' : g'.find? h with
      | none => simp [roleOf, nodeRole, Value.leaf?, he']
      | some e' =>
        obtain ⟨e, he, -⟩ := hgrown.exists_of_find? he'
        rw [roleOf_element he] at hr
        split_ifs at hr
    | _ => simp [roleOf, hl, nodeRole]

/-- The same children are spliced. -/
theorem spliced {vs : List Value} (hg : g.Grounded vs) : g'.spliced vs = g.spliced vs := by
  induction hg using Grounded.rec_children with
  | step vs hg ih =>
    induction vs with
    | nil => rfl
    | cons v vs ihv =>
      have htail := ihv hg.tail fun h e hh he => ih h e (List.mem_cons_of_mem _ hh) he
      have hv : g.Grounded [v] := hg.head
      rw [spliced_cons, htail, spliced_cons v vs]
      congr 1
      cases hr : g.roleOf v with
      | leaf l => rw [spliced_leaf hr, spliced_leaf (roleOf_eq_leaf.mpr (roleOf_eq_leaf.mp hr))]
      | unsupported => rw [spliced_unsupported hr, spliced_unsupported (hgrown.roleOf_unsupported hr)]
      | concrete h e =>
        obtain ⟨e', hr', -⟩ := hgrown.roleOf_concrete hr
        rw [spliced_concrete hr, spliced_concrete hr']
      | fragment cs =>
        -- The leaves that the fragment gained fall away with those that it had.
        obtain ⟨ws, hr', hws⟩ := hgrown.roleOf_fragment hr
        obtain ⟨h, e, rfl, he, -, rfl⟩ := roleOf_eq_fragment hr
        have hgone : (ws.filter (·.isLeaf)).filter (fun w => !w.isLeaf) = [] := by
          rw [List.filter_filter, List.filter_eq_nil_iff]
          simp
        rw [spliced_fragment hv hr, spliced_fragment (hgrown.grounded hv) hr', spliced_append,
          spliced_detached hws, List.filter_append, hgone, List.append_nil, ih h e (by simp) he]

/-- The same elements are met. -/
theorem listing {vs : List Value} (hg : g.Grounded vs) : g'.listing vs = g.listing vs := by
  induction hg using Grounded.rec_children with
  | step vs hg ih =>
    induction vs with
    | nil => rfl
    | cons v vs ihv =>
      have htail := ihv hg.tail fun h e hh he => ih h e (List.mem_cons_of_mem _ hh) he
      have hv : g.Grounded [v] := hg.head
      rw [listing_cons, htail, listing_cons v vs]
      congr 1
      cases hr : g.roleOf v with
      | leaf l => rw [listing_leaf hr, listing_leaf (roleOf_eq_leaf.mpr (roleOf_eq_leaf.mp hr))]
      | unsupported => rw [listing_unsupported hr, listing_unsupported (hgrown.roleOf_unsupported hr)]
      | concrete h e =>
        obtain ⟨e', hr', hee'⟩ := hgrown.roleOf_concrete hr
        obtain ⟨rfl, he, -⟩ := roleOf_eq_concrete.mp hr
        obtain ⟨more, -, hchildren, hmore⟩ := hee'.children
        rw [listing_concrete hv hr, listing_concrete (hgrown.grounded hv) hr', hchildren, listing_append,
          listing_detached hmore, List.append_nil, ih h e (by simp) he]
      | fragment cs =>
        obtain ⟨ws, hr', hws⟩ := hgrown.roleOf_fragment hr
        obtain ⟨h, e, rfl, he, -, rfl⟩ := roleOf_eq_fragment hr
        rw [listing_fragment hv hr, listing_fragment (hgrown.grounded hv) hr', listing_append,
          listing_detached hws, List.append_nil, ih h e (by simp) he]

variable {root : Value}

/-- The elements below a root have the same ids. -/
theorem sameWalk (hac : g.Acyclic root) (hplain : PlainlyNamed g root) : SameWalk g g' root where
  acyclic := hac
  acyclic' := acyclic_of_nested (hgrown.nested hac.grounded)
  top := by rw [structural, structural, hgrown.spliced hac.grounded]
  visits := by rw [firstVisits, firstVisits, hgrown.listing hac.grounded]
  find? := fun h e hh he => by
    obtain ⟨e', he', hee'⟩ := hgrown.exists_find? he
    have hg : g.Grounded e.children := (hac.grounded.of_reaches hh.1).children (by simp) he
    refine ⟨e', he', ?_⟩
    obtain ⟨more, -, hchildren, hmore⟩ := hee'.children
    rw [hchildren, structural, spliced_append, List.filterMap_append, hgrown.spliced hg, ← structural,
      ← structural, structural_detached hmore, List.append_nil]
  texts := hplain.sameTexts fun h e e' hh he he' => by
    obtain ⟨e'', he'', hee'⟩ := hgrown.exists_find? he
    obtain rfl := Option.some.inj (he'.symm.trans he'')
    rw [hee'.props]
    exact ⟨find?_filter_children (by decide) _, find?_filter_children (by decide) _, hee'.component⟩

section Records

variable (hac : g.Acyclic root) (hplain : PlainlyNamed g root)

include hac hplain

/-- **Elements.** The instance of an element refers to more children, and has the same records otherwise. -/
theorem blockAt {h : Handle} (hh : h ∈ g.firstVisits root) : g'.blockAt root h =
    (g.blockAt root h).map (·.withMore (Builder.attributeReferences (g.attributesAt h))) := by
  have hw := hgrown.sameWalk hac hplain
  have hi := (mem_firstVisits hac).mp hh
  obtain ⟨e, he, -⟩ := hi.2
  obtain ⟨e', he', hee'⟩ := hgrown.exists_find? he
  obtain ⟨-, hlabel, hcomponent⟩ := hw.texts h e e' hi he he'
  have hg : g.Grounded e.children := (hac.grounded.of_reaches hi.1).children (by simp) he
  have hstructural : g.structural e.children ⊆ g.firstVisits root := fun k hk =>
    (mem_firstVisits hac).mpr (hasInstance_of_mem_structural hac hi he hk)
  have hat : g.attributesAt h = e.props := by simp [attributesAt, he]
  obtain ⟨more, hmore, hchildren, hdetached⟩ := hee'.children
  have hreferences : Builder.attributeReferences e.props = more.filterMap Value.reference? := by
    rw [Builder.attributeReferences, hmore]
  have hrefs : (g'.spliced e'.children).mapM (referenceTo (g'.idOf root)) = do
      let refs ← (g.spliced e.children).mapM (referenceTo (g.idOf root))
      return refs ++ Builder.attributeReferences e.props := by
    rw [hchildren, spliced_append, hgrown.spliced hg, spliced_detached hdetached, List.mapM_append,
      hw.sameLinks.referenceTo hstructural, mapM_referenceTo_detached hdetached, hreferences]
    rfl
  simp only [Graph.blockAt, he, he', blockOf, hat, hee'.props, hw.sameLinks.idOf hh, hlabel, hcomponent, hrefs,
    attributeRecords_congr g g', attributeRecords_filter]
  cases attributeRecords g (g.idOf root h) e.props with
  | error failure => rfl
  | ok records =>
    cases ofShown (g.text e.component) with
    | error failure => rfl
    | ok component =>
      cases ofShown (g.label? e) with
      | error failure => rfl
      | ok label =>
        cases (g.spliced e.children).mapM (referenceTo (g.idOf root)) <;> rfl

/-- **Growth.** The instances refer to more children, and the records are the same otherwise. -/
theorem outcome_normalize : (normalize g' root).outcome = (normalize g root).outcome.map
    (·.withMore ((g.firstVisits root).map fun h => Builder.attributeReferences (g.attributesAt h))) := by
  have hw := hgrown.sameWalk hac hplain
  have hblocks : (g.firstVisits root).mapM (g'.blockAt root) =
      ((g.firstVisits root).mapM (g.blockAt root)).map fun blocks => List.zipWith Block.withMore blocks
        ((g.firstVisits root).map fun h => Builder.attributeReferences (g.attributesAt h)) := by
    rw [← mapM_withMore, mapM_congr fun h hh => hgrown.blockAt hac hplain hh]
  rw [ViewGraph.outcome_normalize hac, ViewGraph.outcome_normalize hw.acyclic', hw.visits,
    hw.noteAll (List.Subset.refl _), hw.sameLinks.refsTo_top, hblocks]
  cases g.noteAll [] (g.firstVisits root) with
  | error d => rfl
  | ok claims =>
    cases hok : (g.firstVisits root).mapM (g.blockAt root) with
    | error failure => rfl
    | ok blocks =>
      have hlength : blocks.length =
          ((g.firstVisits root).map fun h => Builder.attributeReferences (g.attributesAt h)).length := by
        rw [List.length_map, (mapM_eq_ok.mp hok).length_eq]
      show Except.ok { DocumentFragment.ofBlocks (List.zipWith Block.withMore blocks
        ((g.firstVisits root).map fun h => Builder.attributeReferences (g.attributesAt h))) with
          children := g.refsTo root (g.structural [root]) } = _
      rw [ofBlocks_withMore hlength]
      rfl

end Records

end Graph.GrownTo

end ViewGraph
