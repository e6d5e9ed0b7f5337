import Mathlib.Data.List.Forall2
import ViewGraph.Normalization
import ViewGraph.Proofs.Splicing

/-!
# The records of one element

A normalization adds to its records as it goes.  Here is what one element adds to them, whatever is
there already.

* `Block`: the records of one element.
* `blockOf`: the block of an element, once the id of every element is known.
* `DocumentFragment.ofBlocks`: the records of several blocks.
* `outcome_addAttributes`: what the attributes of an element add are the parts of its block.
-/

namespace ViewGraph

/-! ### Definitions -/

/-- The records of one element: its instance, its attributes, and the declarations of each of its style
attributes. -/
structure Block where
  inst : Instance
  props : List PropRecord
  styles : List (List Declaration)

/-- The declarations that a style attribute holds. -/
def declarations (value : Value) : Except Failure (List Declaration) := do
  let items ← styleItems value
  items.mapM declarationOf

/-- The records of attributes, and the declarations of each style attribute among them. -/
def attributeRecords (g : Graph) (id : String) :
    List (String × Value) → Except Failure (List PropRecord × List (List Declaration))
  | [] => return ([], [])
  | (name, v) :: rest =>
    if isReserved name then attributeRecords g id rest
    else if name = Element.styleAttribute then do
      let ds ← declarations v
      let (props, styles) ← attributeRecords g id rest
      return (props, ds :: styles)
    else do
      let prop ← (createProp g.text (.str id) (.str name) v).outcome
      let (props, styles) ← attributeRecords g id rest
      return (prop :: props, styles)

/-- The reference to a spliced child: a leaf gives its own, and an element its id. -/
def referenceTo (idOf : Handle → String) (v : Value) : Except Failure Child :=
  match v.leaf? with
  | some l => leafChild l
  | none => .ok (.id (v.handle?.elim "" idOf))

/-- The block of an element under an id. -/
def blockOf (g : Graph) (idOf : Handle → String) (id : String) (e : Element) :
    Except Failure Block := do
  let (props, styles) ← attributeRecords g id e.props
  let component ← ofShown (g.text e.component)
  let label ← ofShown (g.label? e)
  let children ← (g.spliced e.children).mapM (referenceTo idOf)
  return ⟨⟨id, component, label, children⟩, props, styles⟩

/-- A declaration of a style source, under the base breakpoint. -/
def Declaration.toStyle (source : String) (d : Declaration) : StyleDecl :=
  ⟨baseBreakpointId, source, d.state, d.property, d.value⟩

namespace DocumentFragment

/-- Records from instances, attributes, and the declarations of style attributes with the ids of their
instances. -/
def ofParts (instances : List Instance) (props : List PropRecord)
    (styles : List (String × List Declaration)) : DocumentFragment :=
  { instances := instances
    props := props
    breakpoints := if (styles.flatMap (·.2)).isEmpty then [] else [baseBreakpoint]
    styleSources := styles.map fun s => ⟨styleSourceId s.1⟩
    styleSourceSelections := styles.map fun s => ⟨s.1, [styleSourceId s.1]⟩
    styles := styles.flatMap fun s => s.2.map (·.toStyle (styleSourceId s.1)) }

/-- The records of several blocks. -/
def ofBlocks (blocks : List Block) : DocumentFragment :=
  ofParts (blocks.map (·.inst)) (blocks.flatMap (·.props))
    (blocks.flatMap fun b => b.styles.map (b.inst.id, ·))

end DocumentFragment

theorem styles_ofBlocks (blocks : List Block) : (DocumentFragment.ofBlocks blocks).styles =
    blocks.flatMap fun b => b.styles.flatMap fun ds => ds.map (·.toStyle (styleSourceId b.inst.id)) := by
  simp only [DocumentFragment.ofBlocks, DocumentFragment.ofParts, List.flatMap_assoc, List.flatMap_map]

theorem sources_ofBlocks (blocks : List Block) : (DocumentFragment.ofBlocks blocks).styleSources =
    blocks.flatMap fun b => b.styles.map fun _ => ⟨styleSourceId b.inst.id⟩ := by
  simp only [DocumentFragment.ofBlocks, DocumentFragment.ofParts, List.map_flatMap, List.map_map]
  rfl

theorem sourceSelections_ofBlocks (blocks : List Block) :
    (DocumentFragment.ofBlocks blocks).styleSourceSelections =
      blocks.flatMap fun b => b.styles.map fun _ => ⟨b.inst.id, [styleSourceId b.inst.id]⟩ := by
  simp only [DocumentFragment.ofBlocks, DocumentFragment.ofParts, List.map_flatMap, List.map_map]
  rfl

/-- The record of an attribute is its content, checked with its id and its name. -/
theorem outcome_createProp (g : Graph) (id name : String) (v : Value) :
    (createProp g.text (.str id) (.str name) v).outcome = classify v >>= fun (kind, content) =>
      ofChecked kind.className (checkPropOf kind
        [("id", .str (propId id name)), ("instance_id", .str id), ("name", .str name), ("value", content)]) := by
  unfold createProp
  simp only [Logged.outcome_bind, Logged.outcome_ofExcept, Logged.outcome_tell, Graph.text_str]
  rfl

/-! ### Lists of computations -/

/-- A list of computations succeeds if each of them does. -/
theorem mapM_eq_ok {α β ε : Type} {f : α → Except ε β} {l : List α} {bs : List β} :
    l.mapM f = .ok bs ↔ List.Forall₂ (fun a b => f a = .ok b) l bs := by
  induction l generalizing bs with
  | nil => cases bs <;> simp [pure, Except.pure]
  | cons a l ih =>
    rw [List.mapM_cons, List.forall₂_cons_left_iff]
    constructor
    · intro h
      obtain ⟨b, hb, h⟩ := Logged.bind_eq_ok.mp h
      obtain ⟨rest, hrest, h⟩ := Logged.bind_eq_ok.mp h
      exact ⟨b, rest, hb, ih.mp hrest, (Except.ok.inj h).symm⟩
    · rintro ⟨b, rest, hb, hrest, rfl⟩
      exact Logged.bind_eq_ok.mpr ⟨b, hb, Logged.bind_eq_ok.mpr ⟨rest, ih.mpr hrest, rfl⟩⟩

/-- A list of computations succeeds if each of them can. -/
theorem exists_mapM_eq_ok {α β ε : Type} {f : α → Except ε β} {l : List α}
    (h : ∀ a ∈ l, ∃ b, f a = .ok b) : ∃ bs, l.mapM f = .ok bs := by
  induction l with
  | nil => exact ⟨[], rfl⟩
  | cons a l ih =>
    obtain ⟨b, hb⟩ := h a (by simp)
    obtain ⟨bs, hbs⟩ := ih fun c hc => h c (List.mem_cons_of_mem _ hc)
    exact ⟨b :: bs, by rw [List.mapM_cons, hb, hbs]; rfl⟩

theorem foldlM_bind_pure {α β γ ε : Type} (f : α → Except ε β) (add : γ → β → γ) (l : List α) (r : γ) :
    (l.foldlM (fun r a => do return add r (← f a)) r) = do
      let bs ← l.mapM f
      return bs.foldl add r := by
  induction l generalizing r with
  | nil => simp
  | cons a l ih =>
    simp only [List.foldlM_cons, List.mapM_cons, List.foldl_cons, ih, bind_assoc, pure_bind]

/-! ### Styles -/

namespace DocumentFragment

variable {insts : List Instance} {props : List PropRecord} {styles : List (String × List Declaration)}

/-- The shared breakpoint is the base one, whether it is there already or not. -/
theorem breakpoint_ofParts :
    (ofParts insts props styles).breakpoint =
      (baseBreakpointId, { ofParts insts props styles with breakpoints := [baseBreakpoint] }) := by
  unfold breakpoint ofParts
  by_cases h : (styles.flatMap (·.2)).isEmpty <;> simp [h, baseBreakpoint]

theorem addDeclaration_ofParts (id : String) (ds : List Declaration) (d : Declaration) :
    addDeclaration (styleSourceId id) (ofParts insts props (styles ++ [(id, ds)])) d =
      ofParts insts props (styles ++ [(id, ds ++ [d])]) := by
  rw [addDeclaration, breakpoint_ofParts]
  simp [ofParts, Declaration.toStyle]

theorem foldl_addDeclaration (id : String) (new ds : List Declaration) :
    ds.foldl (addDeclaration (styleSourceId id)) (ofParts insts props (styles ++ [(id, new)])) =
      ofParts insts props (styles ++ [(id, new ++ ds)]) := by
  induction ds generalizing new with
  | nil => simp
  | cons d ds ih =>
    rw [List.foldl_cons, addDeclaration_ofParts, ih, List.append_assoc]
    rfl

theorem addStyles_ofParts (id : String) (v : Value) :
    (ofParts insts props styles).addStyles id v = do
      let ds ← declarations v
      return ofParts insts props (styles ++ [(id, ds)]) := by
  have start : (ofParts insts props styles).addStyleSource id =
      ofParts insts props (styles ++ [(id, [])]) := by
    have hsame : List.flatMap (fun s => s.2) (styles ++ [(id, [])]) =
        styles.flatMap (fun s => s.2) := by
      simp [List.flatMap_append]
    simp only [addStyleSource, ofParts, hsame]
    simp
  unfold addStyles declarations
  simp only [start, foldlM_bind_pure, foldl_addDeclaration, List.nil_append, bind_assoc]

/-- The attributes of an instance add their records at the end. -/
theorem outcome_addAttributes (g : Graph) (id : String) (attributes : List (String × Value)) :
    ((ofParts insts props styles).addAttributes g id attributes).outcome = do
      let (ps, dss) ← attributeRecords g id attributes
      return ofParts insts (props ++ ps) (styles ++ dss.map (id, ·)) := by
  induction attributes generalizing props styles with
  | nil => simp [addAttributes, attributeRecords]
  | cons a rest ih =>
    obtain ⟨name, v⟩ := a
    unfold addAttributes attributeRecords
    split_ifs with hr hs
    · exact ih
    · simp only [Logged.outcome_bind, Logged.outcome_ofExcept, addStyles_ofParts, bind_assoc, pure_bind]
      congr 1
      funext ds
      rw [ih]
      congr 1
      funext ⟨ps, dss⟩
      simp
    · simp only [Logged.outcome_bind, bind_assoc, pure_bind]
      congr 1
      funext p
      have hadd : { ofParts insts props styles with
          props := (ofParts insts props styles).props ++ [p] } = ofParts insts (props ++ [p]) styles := rfl
      rw [hadd, ih]
      congr 1
      funext ⟨ps, dss⟩
      simp

/-- A block is there once its attributes are and its instance is added. -/
theorem ofBlocks_concat (blocks : List Block) (b : Block) :
    { ofParts (blocks.map (·.inst)) (blocks.flatMap (·.props) ++ b.props)
        (blocks.flatMap (fun b => b.styles.map (b.inst.id, ·)) ++ b.styles.map (b.inst.id, ·)) with
      instances := blocks.map (·.inst) ++ [b.inst] } = ofBlocks (blocks ++ [b]) := by
  simp only [ofBlocks, List.map_append, List.flatMap_append, List.map_singleton, List.flatMap_singleton]
  rfl

end DocumentFragment

end ViewGraph
