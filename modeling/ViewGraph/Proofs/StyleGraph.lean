import ViewGraph.Proofs.PropIds

/-!
# The graph of styles

Style sources, their selections and the declarations under them are linked by ids only.

* `styled root`: the elements below a root that have a style attribute, whatever it holds.
* `Declares idOf h s`: the style record `s` is a declaration of the element at `h`.
* `StyleGraph root f idOf`: the style records of `f` belong to the instances of these elements, and every
  link among them leads to one of them.
* `exists_styleGraph`: this is so for the records of every graph that has records.
-/

namespace ViewGraph

open ViewGraph.Graph

/-! ### Definitions -/

section Defs

variable (g : Graph) (root : Value) (f : DocumentFragment) (idOf : Handle → String)

/-- The value of the style attribute of the element at a handle, if it has one. -/
def Graph.styleAttribute? (h : Handle) : Option Value :=
  Table.find? Element.styleAttribute (g.attributesAt h)

/-- The elements below a root that have a style attribute, in the order of their first visits. -/
def Graph.styled : List Handle := (g.firstVisits root).filter fun h => (g.styleAttribute? h).isSome

/-- A style record is one of the declarations in the style attribute of the element at a handle, under the
source of the element. -/
def Declares (h : Handle) (s : StyleDecl) : Prop :=
  ∃ v ds d, g.styleAttribute? h = some v ∧ declarations v = .ok ds ∧ d ∈ ds ∧
    s = ⟨"base", idOf h ++ ":ws:style", d.state, d.property, d.value⟩

/-- The style records of some records belong to the instances of the elements below a root that have a style
attribute. -/
structure StyleGraph : Prop where
  complete : ∀ h, h ∈ g.firstVisits root ↔ g.HasInstance root h
  once : (g.firstVisits root).Nodup
  instances : List.Forall₂ (IsInstanceOf g idOf) (g.firstVisits root) f.instances
  sources : f.styleSources = (g.styled root).map fun h => ⟨idOf h ++ ":ws:style"⟩
  selections : f.styleSourceSelections =
    (g.styled root).map fun h => ⟨idOf h, [idOf h ++ ":ws:style"]⟩
  sourceIds : (f.styleSources.map (·.id)).Nodup
  /-- Every selection names one instance. -/
  selected : ∀ s ∈ f.styleSourceSelections, ∃! i, i ∈ f.instances ∧ i.id = s.instanceId
  declared : ∀ s, s ∈ f.styles ↔ ∃ h ∈ g.styled root, Declares g idOf h s
  /-- Every style record refers to a source that is there, and to the base breakpoint. -/
  links : ∀ s ∈ f.styles, ⟨s.styleSourceId⟩ ∈ f.styleSources ∧ s.breakpointId = "base"
  /-- It belongs to one element. -/
  owner : ∀ s ∈ f.styles, ∃! h, h ∈ g.styled root ∧ s.styleSourceId = idOf h ++ ":ws:style"
  breakpoints : f.breakpoints = if f.styles.isEmpty then [] else [⟨"base", ""⟩]

end Defs

/-! ### Sources -/

theorem styleSourceId_eq (id : String) : styleSourceId id = id ++ ":ws:style" := by
  rw [styleSourceId, String.append_assoc]
  rfl

theorem styleSourceId_injective {id id' : String} (h : id ++ ":ws:style" = id' ++ ":ws:style") :
    id = id' := by
  rw [← String.toList_inj, String.toList_append, String.toList_append] at h
  exact String.toList_inj.mp (List.append_cancel_right h)

/-- What is said once for each entry that has something is said for these entries in their order. -/
theorem flatMap_toList_eq {α β γ : Type} (o : α → Option β) (c : α → γ) (l : List α) :
    (l.flatMap fun a => (o a).toList.map fun _ => c a) = (l.filter fun a => (o a).isSome).map c := by
  induction l with
  | nil => rfl
  | cons a l ih =>
    rw [List.flatMap_cons, ih]
    cases h : o a with
    | none => rw [List.filter_cons_of_neg (by simp [h])]; rfl
    | some b => rw [List.filter_cons_of_pos (by simp [h])]; rfl

variable {g : Graph} {root : Value} {f : DocumentFragment} {idOf : Handle → String}

theorem mem_styled {h : Handle} :
    h ∈ g.styled root ↔ h ∈ g.firstVisits root ∧ (g.styleAttribute? h).isSome = true :=
  List.mem_filter

theorem styleAttributes_eq_toList (hnames : g.NamesOnce) {h : Handle} (hc : g.Concrete h) :
    g.styleAttributes h = (g.styleAttribute? h).toList := by
  obtain ⟨e, he, -⟩ := hc
  have hat : g.attributesAt h = e.props := by simp [attributesAt, he]
  rw [styleAttributes, styleAttribute?, hat]
  exact styleAttributes_eq (hnames h e he)

/-- What is recorded once for each style attribute is recorded for the elements that have one. -/
theorem flatMap_styleAttributes {γ : Type} (hac : g.Acyclic root) (hnames : g.NamesOnce) (c : Handle → γ) :
    ((g.firstVisits root).flatMap fun h => (g.styleAttributes h).map fun _ => c h) =
      (g.styled root).map c := by
  rw [styled, ← flatMap_toList_eq]
  refine List.flatMap_congr fun h hh => ?_
  rw [styleAttributes_eq_toList hnames ((mem_firstVisits hac).mp hh).2]

theorem Declares.isSome {h : Handle} {s : StyleDecl} (hd : Declares g idOf h s) :
    (g.styleAttribute? h).isSome = true := by
  obtain ⟨v, ds, d, hv, -⟩ := hd
  simp [hv]

/-- The style records of one element are its declarations. -/
theorem mem_styles_of_contributes (hnames : g.NamesOnce) {h : Handle} (hconcrete : g.Concrete h) {b : Block}
    (hc : Contributes g root h b) {s : StyleDecl} :
    s ∈ b.styles.flatMap (fun ds => ds.map (·.toStyle (styleSourceId b.inst.id))) ↔
      Declares g (g.idOf root) h s := by
  have hstyles := mapM_eq_ok.mp hc.styles
  rw [styleAttributes_eq_toList hnames hconcrete] at hstyles
  cases hv : g.styleAttribute? h with
  | none =>
    rw [hv, Option.toList_none, List.forall₂_nil_left_iff] at hstyles
    simp [Declares, hstyles, hv]
  | some v =>
    simp only [hv, Option.toList_some, List.forall₂_cons_left_iff, List.forall₂_nil_left_iff] at hstyles
    obtain ⟨ds, -, hds, rfl, hb⟩ := hstyles
    rw [hb, hc.id, styleSourceId_eq, List.flatMap_singleton, List.mem_map]
    constructor
    · rintro ⟨d, hd, rfl⟩
      exact ⟨v, ds, d, hv, hds, hd, rfl⟩
    · rintro ⟨v', ds', d, hv', hds', hd, rfl⟩
      obtain rfl := Option.some.inj (hv.symm.trans hv')
      obtain rfl := Except.ok.inj (hds.symm.trans hds')
      exact ⟨d, hd, rfl⟩

/-! ### The records of blocks -/

section Blocks

variable {blocks : List Block} (hall : List.Forall₂ (Contributes g root) (g.firstVisits root) blocks)

/-- There is a breakpoint once there is a declaration. -/
theorem breakpoints_ofBlocks (blocks : List Block) :
    (DocumentFragment.ofBlocks blocks).breakpoints =
      if (DocumentFragment.ofBlocks blocks).styles.isEmpty then [] else [⟨"base", ""⟩] := by
  have hsame : (DocumentFragment.ofBlocks blocks).styles.isEmpty =
      ((blocks.flatMap fun b => b.styles.map (b.inst.id, ·)).flatMap (·.2)).isEmpty := by
    rw [Bool.eq_iff_iff, List.isEmpty_iff, List.isEmpty_iff]
    simp [DocumentFragment.ofBlocks, DocumentFragment.ofParts, List.flatMap_eq_nil_iff]
  rw [hsame]
  rfl

include hall

theorem styleSources_ofBlocks (hac : g.Acyclic root) (hnames : g.NamesOnce) :
    (DocumentFragment.ofBlocks blocks).styleSources =
      (g.styled root).map fun h => ⟨g.idOf root h ++ ":ws:style"⟩ := by
  calc (DocumentFragment.ofBlocks blocks).styleSources
      = blocks.flatMap fun b => b.styles.map fun _ => ⟨styleSourceId b.inst.id⟩ := sources_ofBlocks blocks
    _ = (g.firstVisits root).flatMap (sourcesOf g (g.idOf root)) :=
        (flatMap_eq_of_forall₂ (hall.imp fun h b hc => hc.sources)).symm
    _ = (g.styled root).map fun h => ⟨g.idOf root h ++ ":ws:style"⟩ := by
        simp only [← styleSourceId_eq]
        exact flatMap_styleAttributes hac hnames _

theorem selections_ofBlocks (hac : g.Acyclic root) (hnames : g.NamesOnce) :
    (DocumentFragment.ofBlocks blocks).styleSourceSelections =
      (g.styled root).map fun h => ⟨g.idOf root h, [g.idOf root h ++ ":ws:style"]⟩ := by
  calc (DocumentFragment.ofBlocks blocks).styleSourceSelections
      = blocks.flatMap fun b => b.styles.map fun _ => ⟨b.inst.id, [styleSourceId b.inst.id]⟩ :=
        sourceSelections_ofBlocks blocks
    _ = (g.firstVisits root).flatMap (selectionsOf g (g.idOf root)) :=
        (flatMap_eq_of_forall₂ (hall.imp fun h b hc => hc.selections)).symm
    _ = (g.styled root).map fun h => ⟨g.idOf root h, [g.idOf root h ++ ":ws:style"]⟩ := by
        simp only [← styleSourceId_eq]
        exact flatMap_styleAttributes hac hnames _

/-- The style records are the declarations of the elements, each under the source of its element. -/
theorem mem_styles_ofBlocks (hac : g.Acyclic root) (hnames : g.NamesOnce) {s : StyleDecl} :
    s ∈ (DocumentFragment.ofBlocks blocks).styles ↔
      ∃ h ∈ g.styled root, Declares g (g.idOf root) h s := by
  have hone : ∀ h ∈ g.firstVisits root, ∀ b, Contributes g root h b →
      (s ∈ b.styles.flatMap (fun ds => ds.map (·.toStyle (styleSourceId b.inst.id))) ↔
        Declares g (g.idOf root) h s) := fun h hh b hc =>
    mem_styles_of_contributes hnames ((mem_firstVisits hac).mp hh).2 hc
  rw [styles_ofBlocks, List.mem_flatMap]
  constructor
  · rintro ⟨b, hb, hs⟩
    obtain ⟨h, hh, hc⟩ := exists_of_mem_forall₂ hall hb
    have hd := (hone h hh b hc).mp hs
    exact ⟨h, mem_styled.mpr ⟨hh, hd.isSome⟩, hd⟩
  · rintro ⟨h, hh, hd⟩
    obtain ⟨b, hb, hc⟩ := exists_of_mem_forall₂ hall.flip (mem_styled.mp hh).1
    exact ⟨b, hb, (hone h (mem_styled.mp hh).1 b hc).mpr hd⟩

end Blocks

/-! ### The whole -/

/-- **Styles.** If there are records, then each instance whose element has a style attribute has one style
source and one selection of it, in the order of the instances, whatever the attribute holds.  No two sources
have the same id, every selection names one instance, every declaration belongs to one element and refers to
its source, and there is one breakpoint if there is a declaration. -/
theorem exists_styleGraph (hac : g.Acyclic root) (hnames : g.NamesOnce)
    (hok : (normalize g root).outcome = .ok f) : ∃ idOf, StyleGraph g root f idOf := by
  obtain ⟨blocks, hall, hf⟩ := contributes_of_normalize hac hok
  have hsources : f.styleSources = (g.styled root).map fun h => ⟨g.idOf root h ++ ":ws:style"⟩ := by
    rw [hf]
    exact styleSources_ofBlocks hall hac hnames
  have hselections : f.styleSourceSelections =
      (g.styled root).map fun h => ⟨g.idOf root h, [g.idOf root h ++ ":ws:style"]⟩ := by
    rw [hf]
    exact selections_ofBlocks hall hac hnames
  have hdeclared : ∀ s, s ∈ f.styles ↔ ∃ h ∈ g.styled root, Declares g (g.idOf root) h s := by
    rw [hf]
    exact fun s => mem_styles_ofBlocks hall hac hnames
  have hdistinct := distinctIds_of_normalize hac hok
  exact ⟨g.idOf root,
    { complete := fun h => mem_firstVisits hac
      once := nodup_firstVisits root
      instances := by
        rw [hf]
        exact List.forall₂_map_right_iff.mpr (hall.imp fun h b hc => hc.inst)
      sources := hsources
      selections := hselections
      sourceIds := by
        rw [hsources, List.map_map]
        refine List.Nodup.map_on (fun h hh k hk heq => ?_) ((nodup_firstVisits root).filter _)
        exact hdistinct h (mem_styled.mp hh).1 k (mem_styled.mp hk).1 (styleSourceId_injective heq)
      selected := by
        rw [hselections]
        intro s hs
        obtain ⟨h, hh, rfl⟩ := List.mem_map.mp hs
        have hmem := (mem_instances_iff hac hok).mpr ⟨h, (mem_firstVisits hac).mp (mem_styled.mp hh).1, rfl⟩
        refine ⟨g.instanceAt root h, ⟨hmem, instanceAt_id h⟩, fun i ⟨hi, hid⟩ => ?_⟩
        exact List.inj_on_of_nodup_map (nodup_instance_ids hac hok) hi hmem (hid.trans (instanceAt_id h).symm)
      declared := hdeclared
      links := by
        intro s hs
        obtain ⟨h, hh, v, ds, d, -, -, -, rfl⟩ := (hdeclared s).mp hs
        rw [hsources]
        exact ⟨List.mem_map.mpr ⟨h, hh, rfl⟩, rfl⟩
      owner := by
        intro s hs
        obtain ⟨h, hh, v, ds, d, -, -, -, rfl⟩ := (hdeclared s).mp hs
        refine ⟨h, ⟨hh, rfl⟩, fun k ⟨hk, hid⟩ => ?_⟩
        exact hdistinct k (mem_styled.mp hk).1 h (mem_styled.mp hh).1 (styleSourceId_injective hid).symm
      breakpoints := by
        rw [hf]
        exact breakpoints_ofBlocks blocks }⟩

/-- A box with a text, a link and an image.  The text has two declarations and stands in the link too; the
style attribute of the link is null, and that of the image is empty. -/
def styledGraph : Graph := ⟨#[
  ⟨.str "Text", [("ws:style", .list
    [.style "color" (.str "red") none, .style "top" (.int 0) (some ":hover")])], [.str "a"]⟩,
  ⟨.str "Link", [("ws:style", .null)], [.element ⟨0⟩]⟩,
  ⟨.str "Image", [("ws:id", .str "x"), ("ws:style", .list [])], []⟩,
  ⟨.str "Box", [("size", .int 2)], [.element ⟨0⟩, .element ⟨1⟩, .element ⟨2⟩]⟩]⟩

def styledRecords : DocumentFragment :=
  { children := [.id "0"]
    instances := [⟨"0", "Box", none, [.id "1", .id "2", .id "x"]⟩, ⟨"1", "Text", none, [.text "a" none]⟩,
      ⟨"2", "Link", none, [.id "1"]⟩, ⟨"x", "Image", none, []⟩]
    props := [⟨"0:size", "0", "size", .number (.whole 2)⟩]
    breakpoints := [⟨"base", ""⟩]
    styleSources := [⟨"1:ws:style"⟩, ⟨"2:ws:style"⟩, ⟨"x:ws:style"⟩]
    styleSourceSelections := [⟨"1", ["1:ws:style"]⟩, ⟨"2", ["2:ws:style"]⟩, ⟨"x", ["x:ws:style"]⟩]
    styles := [⟨"base", "1:ws:style", none, "color", .str "red"⟩,
      ⟨"base", "1:ws:style", some ":hover", "top", .int 0⟩] }

theorem exists_styleGraph_styledGraph : ∃ f, styledGraph.Acyclic (.element ⟨3⟩) ∧ styledGraph.NamesOnce ∧
    (normalize styledGraph (.element ⟨3⟩)).outcome = .ok f ∧ f.equals styledRecords = true ∧
      ∃ idOf, StyleGraph styledGraph (.element ⟨3⟩) f idOf := by
  have hac : styledGraph.Acyclic (.element ⟨3⟩) := acyclic_of_index_lt (by decide) _
  have hnames : styledGraph.NamesOnce := namesOnce_of_forall (by decide)
  have hsame : (normalize styledGraph (.element ⟨3⟩)).outcome.toOption.any (·.equals styledRecords) = true := by
    decide +kernel
  cases hok : (normalize styledGraph (.element ⟨3⟩)).outcome with
  | error e => simp [hok, Except.toOption] at hsame
  | ok f =>
    refine ⟨f, hac, hnames, rfl, by simpa [hok, Except.toOption] using hsame, ?_⟩
    exact exists_styleGraph hac hnames hok

end ViewGraph
