import ViewGraph.Proofs.Acceptance

/-!
# The data of records

Records of JSON data are dumped one by one.  Data of any kind in them are dumped as their finite part, but a
number that is itself the content of an attribute is dumped as it is.

* `PropContent.dumped`: the data of the content of an attribute.
* `dumpedProp`, `dumpedStyle`, `dumpedFragment`: the data of an attribute, of a style declaration and of a whole
  fragment.
* `dumpFragment_eq`: a fragment has these data.
-/

namespace ViewGraph

open ViewGraph.Graph

/-! ### Definitions -/

/-- The data of the content of an attribute. -/
def PropContent.dumped : PropContent → Value
  | .action items => .list (items.map fun members => (Value.dict members).finitePart)
  | .json value => value.finitePart
  | c => c.data

/-- The data of an attribute. -/
def dumpedProp (p : PropRecord) : Value := .dict
  [("id", .str p.id), ("instanceId", .str p.instanceId), ("name", .str p.name),
   ("type", .str p.content.kind.tag), ("value", p.content.dumped)]

/-- The members of a style declaration. -/
def dumpedMembers (s : StyleDecl) : List (String × Value) :=
  [("breakpointId", .str s.breakpointId), ("styleSourceId", .str s.styleSourceId)] ++
    s.state.toList.map (fun state => ("state", .str state)) ++ [("property", .str s.property)] ++
      if s.value.isNull then [] else [("value", s.value)]

/-- The data of a style declaration. -/
def dumpedStyle (s : StyleDecl) : Value := .dict (dumpedMembers { s with value := s.value.finitePart })

/-- The members of a fragment without assets, data sources and resources. -/
def dumpedFragment (f : DocumentFragment) : List (String × Value) :=
  [("children", .list (f.children.map (dumpChild {}))),
   ("instances", .list (f.instances.map (dumpInstance {}))),
   ("props", .list (f.props.map dumpedProp)),
   ("breakpoints", .list (f.breakpoints.map (dumpBreakpoint {}))),
   ("styleSources", .list (f.styleSources.map (dumpStyleSource {}))),
   ("styleSourceSelections", .list (f.styleSourceSelections.map (dumpSelection {}))),
   ("styles", .list (f.styles.map dumpedStyle)),
   ("assets", .list []), ("dataSources", .list []), ("resources", .list [])]

variable {number : Number → Bool} {g : Graph}

/-! ### Attributes -/

theorem dumpContent_eq {c : PropContent} (hc : c.IsData number) : dumpContent g false c = .ok c.dumped := by
  cases c with
  | action items =>
    have hitems : items.mapM (fun members => g.plain false (.dict members)) =
        .ok (items.map fun members => (Value.dict members).finitePart) :=
      mapM_eq_ok.mpr (List.forall₂_map_right_iff.mpr (List.forall₂_same.mpr fun members hmembers =>
        Value.plain_of_isJson _ _ (hc members hmembers)))
    rw [dumpContent, hitems]
    rfl
  | json v => exact Value.plain_of_isJson _ v hc
  | _ => rfl

/-- A content with finite numbers only is dumped as it is. -/
theorem dumped_eq_data {c : PropContent} (hc : c.IsData Number.isFinite) : c.dumped = c.data := by
  cases c with
  | action items =>
    refine congrArg Value.list (List.map_congr_left fun members hmembers => ?_)
    exact Value.finitePart_of_isStrictDocument _ (hc members hmembers)
  | json v => exact Value.finitePart_of_isStrictDocument v hc
  | _ => rfl

theorem dumpProp_eq {p : PropRecord} (hp : p.content.IsData number) :
    dumpProp g {} p = .ok (dumpedProp p) := by
  unfold dumpProp
  rw [dumpContent_eq hp]
  rfl

/-! ### Styles -/

theorem dumpStyleDecl_eq {s : StyleDecl} (hs : s.value.isJson number = true) :
    dumpStyleDecl g {} s = .ok (dumpedStyle s) := by
  unfold dumpStyleDecl Graph.plain dumpedStyle
  rw [Value.plain_of_isJson _ s.value hs]
  obtain ⟨breakpoint, source, state, property, value⟩ := s
  show Except.ok (dumpSparse {} _) = _
  cases state <;> cases hnull : value.finitePart.isNull <;>
    simp [dumpSparse, dumpTable, dumpedMembers, Entry.of, Entry.ofText?, Entry.name, Value.ofText?, hnull,
      Field.plain, Field.breakpointId, Field.styleSourceId]

/-- A style declaration with finite numbers only is dumped as it is. -/
theorem dumpedStyle_eq {s : StyleDecl} (hs : s.value.isJson Number.isFinite = true) :
    dumpedStyle s = .dict (dumpedMembers s) := by
  rw [dumpedStyle, Value.finitePart_of_isStrictDocument s.value hs]

/-! ### Fragments -/

/-- **Fragments.** A fragment of JSON data has its data. -/
theorem dumpFragment_eq {f : DocumentFragment} (hassets : f.assets = []) (hdataSources : f.dataSources = [])
    (hresources : f.resources = []) (hprops : ∀ p ∈ f.props, p.content.IsData number)
    (hstyles : ∀ s ∈ f.styles, s.value.isJson number = true) :
    dumpFragment g {} f = .ok (.dict (dumpedFragment f)) := by
  have hpropsDumped : f.props.mapM (dumpProp g {}) = .ok (f.props.map dumpedProp) :=
    mapM_eq_ok.mpr (List.forall₂_map_right_iff.mpr (List.forall₂_same.mpr fun p hp => dumpProp_eq (hprops p hp)))
  have hstylesDumped : f.styles.mapM (dumpStyleDecl g {}) = .ok (f.styles.map dumpedStyle) :=
    mapM_eq_ok.mpr (List.forall₂_map_right_iff.mpr (List.forall₂_same.mpr fun s hs =>
      dumpStyleDecl_eq (hstyles s hs)))
  unfold dumpFragment
  rw [hassets, hdataSources, hresources, hpropsDumped, hstylesDumped]
  rfl

end ViewGraph
