import ViewGraph.Proofs.Agreement
import ViewGraph.Proofs.Identity
import ViewGraph.Proofs.Planting
import ViewGraph.Proofs.Rendering
import ViewGraph.Proofs.Shown
import ViewGraph.Record.Dump

/-!
# Documents that are accepted

The checks of the loader are all that rendering needs, but for the ids that the elements ask for.

* `PropContent.IsData`: what the content of an attribute that was loaded holds.
* `PropContent.data`: the content as a value.
* `exists_record`, `exists_declarations`, `exists_referenceTo`: the records of an attribute, of a style
  attribute and of a child that were loaded.
* `exists_label`, `exists_text_of_isTyped`: labels and typed values that were loaded have texts.
* `exists_blockOf`: the records of a sound element.
* `renderable_of_loadInto`: a document that is accepted can be rendered.
-/

namespace ViewGraph

open ViewGraph.Graph

variable {number : Number → Bool} {g : Graph}

/-! ### Attributes -/

/-- Where the content of an attribute can hold tables or data of any kind, it holds JSON data. -/
def PropContent.IsData (number : Number → Bool) : PropContent → Prop
  | .action items => ∀ members ∈ items, (Value.dict members).isJson number = true
  | .page target => (dumpPage target).isJson number = true
  | .json v => v.isJson number = true
  | _ => True

/-- The content of an attribute as a value. -/
def PropContent.data : PropContent → Value
  | .expression value | .parameter value | .resource value | .asset value | .string value => .str value
  | .action items => .list (items.map .dict)
  | .page target => dumpPage target
  | .number value => value.toValue
  | .boolean value => .bool value
  | .json value => value

/-- The record of an attribute is made once its content is. -/
theorem createProp_of_checkContent {i n : String} {v content : Value} {kind : PropKind}
    {c : PropContent} (hkind : classify v = .ok (kind, content))
    (hc : checkContent kind [("id", .str (propId i n)), ("instance_id", .str i), ("name", .str n),
      ("value", content)] = .valid c) :
    (createProp g.text (.str i) (.str n) v).outcome = .ok ⟨propId i n, i, n, c⟩ := by
  rw [outcome_createProp, hkind]
  show ofChecked kind.className (checkPropOf kind _) = _
  unfold checkPropOf
  rw [hc]
  rfl

theorem isJson_ofTexts (texts : List String) : (ofTexts texts).isJson number = true := by
  refine Value.isJson_list.mpr fun v hv => ?_
  obtain ⟨s, -, rfl⟩ := List.mem_map.mp hv
  rfl

/-- A typed value that is loaded has a content. -/
theorem exists_content_of_isTyped {v : Value} (hv : v.IsTyped) (id i n : Value) :
    ∃ kind content c, classify v = .ok (kind, content) ∧
      checkContent kind [("id", id), ("instance_id", i), ("name", n), ("value", content)] = .valid c ∧
        c.IsData number ∧ c.kind = kind ∧ c.data = content ∧ content.isJson number = true := by
  cases hv with
  | wrapped kind s =>
    cases kind with
    | expression => exact ⟨_, _, .expression s, rfl, rfl, trivial, rfl, rfl, rfl⟩
    | parameter => exact ⟨_, _, .parameter s, rfl, rfl, trivial, rfl, rfl, rfl⟩
    | resource => exact ⟨_, _, .resource s, rfl, rfl, trivial, rfl, rfl, rfl⟩
    | asset => exact ⟨_, _, .asset s, rfl, rfl, trivial, rfl, rfl, rfl⟩
    | placeholder => exact ⟨_, _, .json (.str s), rfl, rfl, rfl, rfl, rfl, rfl⟩
  | action args code =>
    have hargs : (Value.list (args.map .str)).isJson number = true := isJson_ofTexts args
    have hmembers : (Value.dict [("type", .str "execute"), ("args", .list (args.map .str)),
        ("code", .str code)]).isJson number = true :=
      Value.isJson_dict.mpr ⟨by simp, by simpa [Value.isJson] using hargs⟩
    refine ⟨.action, _, .action [_], rfl, rfl, ?_, rfl, rfl, Value.isJson_list.mpr ?_⟩
    · intro members hmem
      obtain rfl := List.mem_singleton.mp hmem
      exact hmembers
    · intro v hv
      obtain rfl := List.mem_singleton.mp hv
      exact hmembers
  | page id => exact ⟨_, _, .page (.page id), rfl, rfl, rfl, rfl, rfl, rfl⟩
  | anchored id anchor =>
    by_cases hanchor : (Value.str anchor).isTrue
    · refine ⟨.page, .dict [("pageId", .str id), ("instanceId", .str anchor)],
        .page (.anchored [("pageId", id), ("instanceId", anchor)]), ?_, rfl, ?_, rfl, rfl, ?_⟩
      · simp only [classify, Value.pagePayload, if_pos hanchor]
      · exact Value.isJson_dict.mpr ⟨by simp, by simp [Value.isJson]⟩
      · exact Value.isJson_dict.mpr ⟨by simp, by simp [Value.isJson]⟩
    · refine ⟨.page, .str id, .page (.page id), ?_, rfl, rfl, rfl, rfl, rfl⟩
      simp only [classify, Value.pagePayload, if_neg hanchor]

/-- JSON data have a content. -/
theorem exists_content_of_isJson {v : Value} (hv : v.isJson number = true) (id i n : Value) :
    ∃ kind content c, classify v = .ok (kind, content) ∧
      checkContent kind [("id", id), ("instance_id", i), ("name", n), ("value", content)] = .valid c ∧
        c.IsData number ∧ c.kind = kind ∧ c.data = content ∧ content.isJson number = true := by
  cases v with
  | null => exact ⟨_, _, .json .null, rfl, rfl, hv, rfl, rfl, hv⟩
  | bool b => exact ⟨_, _, .boolean b, rfl, rfl, trivial, rfl, rfl, hv⟩
  | int m => exact ⟨_, _, .number (.whole m), rfl, rfl, trivial, rfl, rfl, hv⟩
  | float x => exact ⟨_, _, .number (.real x), rfl, rfl, trivial, rfl, rfl, hv⟩
  | str s => exact ⟨_, _, .string s, rfl, rfl, trivial, rfl, rfl, hv⟩
  | list items => exact ⟨_, _, .json (.list items), rfl, rfl, hv, rfl, rfl, hv⟩
  | dict members => exact ⟨_, _, .json (.dict members), rfl, rfl, hv, rfl, rfl, hv⟩
  | _ => simp [Value.isJson] at hv

/-- An attribute that is loaded has its record, with the content that it is classified as. -/
theorem exists_record {v : Value} (hv : v.isJson number = true ∨ v.IsTyped) (i n : String) :
    ∃ kind content c, classify v = .ok (kind, content) ∧
      (createProp g.text (.str i) (.str n) v).outcome = .ok ⟨propId i n, i, n, c⟩ ∧
        c.IsData number ∧ c.kind = kind ∧ c.data = content ∧ content.isJson number = true := by
  have hcontent := hv.elim
    (fun h => exists_content_of_isJson h (.str (propId i n)) (.str i) (.str n))
    (fun h => exists_content_of_isTyped h (.str (propId i n)) (.str i) (.str n))
  obtain ⟨kind, content, c, hkind, hc, hdata, hclass⟩ := hcontent
  exact ⟨kind, content, c, hkind, createProp_of_checkContent hkind hc, hdata, hclass⟩

theorem exists_createProp {v : Value} (hv : v.isJson number = true ∨ v.IsTyped) (i n : String) :
    ∃ p, (createProp g.text (.str i) (.str n) v).outcome = .ok p ∧ p.content.IsData number ∧
      p.content.data.isJson number = true := by
  obtain ⟨-, -, c, -, hp, hdata, -, rfl, hjson⟩ := exists_record (g := g) hv i n
  exact ⟨_, hp, hdata, hjson⟩

theorem exists_declarationOf {item : Value} (h : item.IsDeclaration) : ∃ d, declarationOf item = .ok d := by
  obtain ⟨members, d, rfl, hd⟩ := h
  exact ⟨d, ofChecked_eq_ok.mpr hd⟩

theorem styleItems_list (items : List Value) : styleItems (.list items) = .ok items := by
  cases items <;> rfl

/-- A style attribute that is loaded has its declarations. -/
theorem exists_declarations {v : Value}
    (hv : v = .null ∨ ∃ items, v = .list items ∧ ∀ item ∈ items, item.IsDeclaration) :
    ∃ ds, declarations v = .ok ds := by
  unfold declarations
  rcases hv with rfl | ⟨items, rfl, hitems⟩
  · exact ⟨[], rfl⟩
  · rw [styleItems_list]
    exact exists_mapM_eq_ok fun item hitem => exists_declarationOf (hitems item hitem)

theorem exists_attributeRecords {props : List (String × Value)} (hprops : SoundProps number props)
    (id : String) : ∃ records, attributeRecords g id props = .ok records := by
  obtain ⟨-, hvalues, -, hstyles⟩ := hprops
  induction props with
  | nil => exact ⟨_, rfl⟩
  | cons a rest ih =>
    obtain ⟨name, v⟩ := a
    obtain ⟨hv, hvalues⟩ := List.forall_mem_cons.mp hvalues
    obtain ⟨records, hrest⟩ := ih hvalues fun w hw => hstyles w (List.mem_cons_of_mem _ hw)
    unfold attributeRecords
    rw [hrest]
    split_ifs with hreserved hstyle
    · exact ⟨_, rfl⟩
    · obtain ⟨ds, hds⟩ := exists_declarations (hstyles v (by simp [hstyle]))
      exact ⟨_, by rw [hds]; rfl⟩
    · obtain ⟨p, hp, -⟩ := exists_createProp (g := g) hv id name
      exact ⟨_, by rw [hp]; rfl⟩

/-! ### Children -/

/-- The leaves among spliced children stood there before. -/
theorem mem_of_mem_spliced_of_isLeaf {vs : List Value} {v : Value} (hv : v ∈ g.spliced vs)
    (hl : v.isLeaf = true) : v ∈ vs := by
  unfold spliced depth splicedUpTo at hv
  obtain ⟨w, hw, hvw⟩ := List.mem_flatMap.mp hv
  split at hvw
  · exact List.mem_singleton.mp hvw ▸ hw
  · exact absurd hl (by simpa using (List.mem_filter.mp hvw).2)
  · exact List.mem_singleton.mp hvw ▸ hw
  · exact absurd hvw List.not_mem_nil

/-- A child refers to what it is, if it is an element or a leaf that was loaded. -/
theorem exists_referenceTo {v : Value} (hv : v.isLeaf = true → v.IsLeafValue) (idOf : Handle → String) :
    ∃ c, referenceTo idOf v = .ok c := by
  by_cases hl : v.isLeaf = true
  · cases hv hl with
    | text s => exact ⟨.text s none, rfl⟩
    | placeholder s => exact ⟨.text s (some true), rfl⟩
    | expression s => exact ⟨.expression s, rfl⟩
  · have hnone : v.leaf? = none := by simpa [Value.isLeaf] using hl
    unfold referenceTo
    rw [hnone]
    exact ⟨_, rfl⟩

/-! ### Texts -/

theorem exists_text_component {component : Value} (h : component = .fragment ∨ ∃ name, component = .str name) :
    ∃ text, g.text component = .ok text := by
  rcases h with rfl | ⟨name, rfl⟩
  · exact ⟨_, rfl⟩
  · exact ⟨name, text_str g name⟩

/-- A label that is loaded has a text. -/
theorem exists_label {e : Element} (he : SoundProps number e.props) : ∃ label, g.label? e = .ok label := by
  unfold Graph.label?
  cases hfind : Table.find? Element.labelAttribute e.props with
  | none => exact ⟨none, rfl⟩
  | some v =>
    rcases he.label v (Table.mem_of_find? hfind) with rfl | ⟨s, rfl⟩
    · exact ⟨none, rfl⟩
    · simp only [text_str]
      split_ifs
      · exact ⟨some s, rfl⟩
      · exact ⟨none, rfl⟩

/-- A typed value that is loaded has a text. -/
theorem exists_text_of_isTyped {v : Value} (hv : v.IsTyped) : ∃ text, g.text v = .ok text := by
  cases hv with
  | action args code =>
    have hshort : (Value.list (args.map .str)).isShortDocument = true := isJson_ofTexts args
    obtain ⟨text, htext⟩ := (Value.exists_inner_iff (g.elementText (g.nodes.size + 1) []) _ hshort).mpr hshort
    rw [Graph.text, Graph.displayed, Value.display, Value.inner, htext]
    · exact ⟨_, rfl⟩
    all_goals simp
  | _ => exact ⟨_, rfl⟩

/-- **Elements.** A sound element has its records, whichever ids the elements are given. -/
theorem exists_blockOf {e : Element} (he : g.SoundElement number e) (idOf : Handle → String)
    (id : String) : ∃ b, blockOf g idOf id e = .ok b := by
  have hleaf : ∀ v ∈ g.spliced e.children, v.isLeaf = true → v.IsLeafValue := by
    intro v hv hl
    rcases he.children v (mem_of_mem_spliced_of_isLeaf hv hl) with h | ⟨k, rfl, -⟩
    · exact h
    · simp [Value.isLeaf, Value.leaf?] at hl
  obtain ⟨records, hrecords⟩ := exists_attributeRecords (g := g) he.props id
  obtain ⟨refs, hrefs⟩ := exists_mapM_eq_ok fun v hv => exists_referenceTo (hleaf v hv) idOf
  obtain ⟨component, hcomponent⟩ := exists_text_component (g := g) he.component
  obtain ⟨label, hlabel⟩ := exists_label (g := g) he.props
  exact ⟨_, by unfold blockOf; rw [hrecords, hcomponent, hlabel, hrefs]; rfl⟩

/-! ### The whole -/

theorem ne_unsupported_of_leaf_or_element {v : Value}
    (hv : v.IsLeafValue ∨ ∃ k, v = .element k ∧ (g.find? k).isSome) : g.roleOf v ≠ .unsupported := by
  rcases hv with hv | ⟨k, rfl, hk⟩
  · obtain ⟨l, hl⟩ := roleOf_of_isLeafValue (g := g) hv
    simp [hl]
  · obtain ⟨e, he⟩ := Option.isSome_iff_exists.mp hk
    rw [roleOf_element he]
    split_ifs <;> simp

/-- What stands for a sound tree can be rendered. -/
theorem renderable_of_stands {t : Tree} {root : Value} (hs : g.Stands root t) (ht : t.Sound number) :
    g.Renderable root where
  acyclic := acyclic_of_stands hs ht
  supported :=
    { here := fun v hv => by
        obtain rfl := List.mem_singleton.mp hv
        exact ne_unsupported_of_leaf_or_element (leaf_or_element_of_stands hs ht)
      below := fun h e hr he v hv =>
        ne_unsupported_of_leaf_or_element ((sound_of_reaches t hs ht hr he).children v hv) }
  blocks := fun h e hr he => exists_blockOf (sound_of_reaches t hs ht hr he)

/-- A document that is accepted is planted as a sound tree. -/
theorem exists_sound_of_loadInto {doc root : Value} {g₀ : Graph} (hdoc : doc.isJson number = true)
    (hload : Document.loadInto g₀ doc = .ok (g, root)) :
    ∃ t, Document.Loads doc t ∧ t.Sound number ∧ t.plant g₀ = (g, root) := by
  obtain ⟨t, ht, hplant⟩ := Logged.bind_eq_ok.mp hload
  have hloads := Document.loads_of_load doc ht
  exact ⟨t, hloads, Document.sound_of_loads t hloads hdoc, Except.ok.inj hplant⟩

theorem renderable_of_loadInto {doc root : Value} {g₀ : Graph} (hdoc : doc.isJson number = true)
    (hload : Document.loadInto g₀ doc = .ok (g, root)) : g.Renderable root := by
  obtain ⟨t, -, ht, hplant⟩ := exists_sound_of_loadInto hdoc hload
  exact renderable_of_stands (stands_of_plant ht hplant).1 ht

/-- What is found by evaluation to be rendered to such records is rendered to them. -/
theorem exists_rendered_with (doc : Value) (good : DocumentFragment → Bool)
    (h : ((Document.loadInto .empty doc).toOption.bind fun r =>
      (normalize r.1 r.2).outcome.toOption).any good = true) : ∃ g root f,
      Document.loadInto .empty doc = .ok (g, root) ∧ (normalize g root).outcome = .ok f ∧ good f = true := by
  cases hload : Document.loadInto .empty doc with
  | error e => simp [hload, Except.toOption] at h
  | ok r =>
    obtain ⟨g, root⟩ := r
    cases hok : (normalize g root).outcome with
    | error e => simp [hload, hok, Except.toOption] at h
    | ok f => exact ⟨g, root, f, rfl, hok, by simpa [hload, hok, Except.toOption] using h⟩

theorem exists_rendered (doc : Value) (h : ((Document.loadInto .empty doc).toOption.bind fun r =>
    (normalize r.1 r.2).outcome.toOption).isSome = true) : ∃ g root f,
      Document.loadInto .empty doc = .ok (g, root) ∧ (normalize g root).outcome = .ok f := by
  obtain ⟨g, root, f, hload, hok, -⟩ := exists_rendered_with doc (fun _ => true) (by rwa [Option.any_true])
  exact ⟨g, root, f, hload, hok⟩

end ViewGraph
