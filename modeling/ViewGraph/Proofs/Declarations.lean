import ViewGraph.Proofs.Acceptance
import ViewGraph.Proofs.Declared
import ViewGraph.Proofs.Dumping

/-!
# Declarations from the document to the data

A style declaration that is written in a document is checked, planted, lowered to a record and dumped.  What
is read of it in the end is what was written, but for a value that is null: the dump leaves it out.

* `Reading`: what is read of a declaration, as it is written, as a record, or dumped.
* `reading_of_checkDeclarationFields`: the check reads what is written.
* `reading_of_normalize`: the style records of a tree that was planted are read as its declarations.
* `reading_dumpedMembers`: a record is dumped as it is read, without its value if that is null.
* `styles_survive`: the dump of a document holds its declarations, in order.
-/

namespace ViewGraph

open ViewGraph.Graph

/-! ### Definitions -/

/-- What is read of a declaration. -/
structure Reading where
  property : Option Value
  value : Option Value
  state : Option Value

/-- The reading without a value that is null. -/
def Reading.sparse (r : Reading) : Reading := { r with value := r.value.filter fun v => !v.isNull }

/-- What is read of a table. A state that is null is none. -/
def Value.reading : Value → Reading
  | .dict members =>
    { property := Table.find? "property" members
      value := Table.find? "value" members
      state := (Table.find? "state" members).filter fun v => !v.isNull }
  | _ => ⟨none, none, none⟩

def Declaration.reading (d : Declaration) : Reading :=
  ⟨some (.str d.property), some d.value, d.state.map .str⟩

def StyleDecl.reading (s : StyleDecl) : Reading :=
  ⟨some (.str s.property), some s.value, s.state.map .str⟩

variable {number : Number → Bool} {g : Graph}

/-! ### What a check reads -/

/-- A table that is checked as a declaration is read as one. -/
theorem reading_of_checkDeclarationFields {members : List (String × Value)} {d : Declaration}
    (h : checkDeclarationFields members = .valid d) : (Value.dict members).reading = d.reading := by
  obtain ⟨ofState, state, h1, hstate, rfl⟩ := Checked.seq_eq_valid.mp h
  obtain ⟨ofValue, value, h2, hvalue, rfl⟩ := Checked.seq_eq_valid.mp h1
  obtain ⟨ofProperty, property, h3, hproperty, rfl⟩ := Checked.seq_eq_valid.mp h2
  obtain rfl := Checked.valid.inj h3
  obtain ⟨v, hv, hv'⟩ := check_eq_valid.mp hvalue
  obtain rfl := Checked.valid.inj hv'
  obtain ⟨w, hw, hw'⟩ := check_eq_valid.mp hproperty
  obtain rfl := checkText_eq_valid.mp hw'
  simp only [Value.reading, Declaration.reading, hv, hw, checkOr_text_eq_valid hstate]

theorem reading_of_declarationOf {item : Value} (hitem : item.IsDeclaration) {d : Declaration}
    (h : declarationOf item = .ok d) : item.reading = d.reading := by
  obtain ⟨members, d', rfl, hd'⟩ := hitem
  obtain rfl : d' = d := Checked.valid.inj (hd'.symm.trans (ofChecked_eq_ok.mp h))
  exact reading_of_checkDeclarationFields hd'

theorem reading_of_mapM_declarationOf {items : List Value} (hitems : ∀ item ∈ items, item.IsDeclaration)
    {ds : List Declaration} (h : items.mapM declarationOf = .ok ds) :
    ds.map Declaration.reading = items.map Value.reading := by
  have hall := mapM_eq_ok.mp h
  clear h
  induction hall with
  | nil => rfl
  | cons hd _ ih =>
    obtain ⟨hitem, hitems⟩ := List.forall_mem_cons.mp hitems
    rw [List.map_cons, List.map_cons, reading_of_declarationOf hitem hd, ih hitems]

/-! ### From the tree to the records -/

/-- The style records of an element with sound attributes are read as its items. -/
theorem reading_of_stylesOf {idOf : Handle → String} {h : Handle} {ss : List StyleDecl}
    (hprops : SoundProps number (g.attributesAt h)) (hss : stylesOf g idOf h = .ok ss) :
    ss.map StyleDecl.reading = (styleItemsIn (g.attributesAt h)).map Value.reading := by
  obtain ⟨dss, hdss, hss⟩ := Logged.bind_eq_ok.mp hss
  obtain rfl := Except.ok.inj hss
  rw [List.map_map]
  show dss.flatten.map Declaration.reading = _
  rw [styleAttributes, styleAttributes_eq hprops.names] at hdss
  unfold styleItemsIn
  cases hfind : Table.find? Element.styleAttribute (g.attributesAt h) with
  | none =>
    rw [hfind] at hdss
    obtain rfl := Except.ok.inj hdss
    rfl
  | some v =>
    rw [hfind] at hdss
    have hone := mapM_eq_ok.mp hdss
    simp only [Option.toList_some, List.forall₂_cons_left_iff, List.forall₂_nil_left_iff] at hone
    obtain ⟨ds, -, hds, rfl, rfl⟩ := hone
    rw [List.flatten_cons, List.flatten_nil, List.append_nil]
    rcases hprops.styles v (Table.mem_of_find? hfind) with rfl | ⟨items, rfl, hitems⟩
    · obtain rfl := Except.ok.inj hds
      rfl
    · unfold declarations at hds
      rw [styleItems_list] at hds
      exact reading_of_mapM_declarationOf hitems hds

/-- The items of a sound style attribute are JSON data. -/
theorem isJson_of_mem_styleItemsIn {props : List (String × Value)} (hprops : SoundProps number props)
    {item : Value} (hitem : item ∈ styleItemsIn props) : item.isJson number = true := by
  unfold styleItemsIn at hitem
  split at hitem
  · rename_i items hfind
    rcases hprops.values _ (Table.mem_of_find? hfind) with hjson | htyped
    · exact Value.isJson_list.mp hjson item hitem
    · cases htyped
  · exact absurd hitem List.not_mem_nil

section Planted

variable {t : Tree} {g₀ : Graph} {root : Value} {f : DocumentFragment} (ht : t.Sound number)
  (hplant : t.plant g₀ = (g, root))

include ht hplant

/-- **Records.** The style records of a tree that was planted are read as the items of its attributes. -/
theorem reading_of_normalize (hok : (normalize g root).outcome = .ok f) :
    f.styles.map StyleDecl.reading = (t.attributes.flatMap styleItemsIn).map Value.reading := by
  obtain ⟨-, hac⟩ := stands_of_plant ht hplant
  obtain ⟨blocks, hall, rfl⟩ := contributes_of_normalize hac hok
  have hsound : ∀ h ∈ g.firstVisits root, SoundProps number (g.attributesAt h) :=
    fun h hh => soundProps_of_mem_firstVisits ht hplant hh
  have hboth := (List.forall₂_and_left _ _).mpr ⟨hsound, hall⟩
  have hreading := hboth.imp fun h b hhb => (reading_of_stylesOf hhb.1 hhb.2.decls).symm
  calc (DocumentFragment.ofBlocks blocks).styles.map StyleDecl.reading
      = (g.firstVisits root).flatMap fun h => (styleItemsIn (g.attributesAt h)).map Value.reading := by
        rw [styles_ofBlocks, List.map_flatMap, flatMap_eq_of_forall₂ hreading]
    _ = (t.attributes.flatMap styleItemsIn).map Value.reading := by
        rw [← attributes_of_firstVisits ht hplant, List.flatMap_map, List.map_flatMap]

/-- The values of the style records are JSON data. -/
theorem isJson_of_mem_styles (hok : (normalize g root).outcome = .ok f) {s : StyleDecl}
    (hs : s ∈ f.styles) : s.value.isJson number = true := by
  have hmem : s.reading ∈ (t.attributes.flatMap styleItemsIn).map Value.reading :=
    reading_of_normalize ht hplant hok ▸ List.mem_map_of_mem hs
  obtain ⟨item, hitem, hreading⟩ := List.mem_map.mp hmem
  obtain ⟨props, hprops, hitem⟩ := List.mem_flatMap.mp hitem
  rw [← attributes_of_firstVisits ht hplant] at hprops
  obtain ⟨h, hh, rfl⟩ := List.mem_map.mp hprops
  have hjson := isJson_of_mem_styleItemsIn (soundProps_of_mem_firstVisits ht hplant hh) hitem
  have hvalue : item.reading.value = some s.value := congrArg Reading.value hreading
  cases item with
  | dict members => exact Value.isJson_of_find? hjson hvalue
  | _ => simp [Value.reading] at hvalue

/-- The contents of the attribute records are JSON data. -/
theorem content_of_mem_props (hok : (normalize g root).outcome = .ok f) {p : PropRecord} (hp : p ∈ f.props) :
    p.content.IsData number ∧ p.content.data.isJson number = true := by
  obtain ⟨-, hac⟩ := stands_of_plant ht hplant
  obtain ⟨blocks, hall, rfl⟩ := contributes_of_normalize hac hok
  obtain ⟨b, hb, hp⟩ := List.mem_flatMap.mp hp
  obtain ⟨h, hh, hc⟩ := exists_of_mem_forall₂ hall hb
  obtain ⟨a, ha, hp⟩ := exists_of_mem_forall₂ (mapM_eq_ok.mp hc.props) hp
  have hvalue := (soundProps_of_mem_firstVisits ht hplant hh).values a (List.mem_of_mem_filter ha)
  obtain ⟨p', hp', hdata⟩ := exists_createProp (g := g) hvalue (g.idOf root h) a.1
  rwa [← Except.ok.inj (hp'.symm.trans hp)]

theorem isData_of_mem_props (hok : (normalize g root).outcome = .ok f) {p : PropRecord} (hp : p ∈ f.props) :
    p.content.IsData number :=
  (content_of_mem_props ht hplant hok hp).1

end Planted

/-- **Dump.** The records of a document are dumped one by one. -/
theorem dumpFragment_of_loadInto {doc root : Value} {g₀ : Graph} {f : DocumentFragment}
    (hdoc : doc.isJson number = true) (hload : Document.loadInto g₀ doc = .ok (g, root))
    (hok : (normalize g root).outcome = .ok f) :
    dumpFragment g {} f = .ok (.dict (dumpedFragment f)) := by
  obtain ⟨t, -, ht, hplant⟩ := exists_sound_of_loadInto hdoc hload
  obtain ⟨blocks, -, hf⟩ := normalize_eq_ok (stands_of_plant ht hplant).2 hok
  exact dumpFragment_eq (by rw [hf]; rfl) (by rw [hf]; rfl) (by rw [hf]; rfl)
    (fun p hp => isData_of_mem_props ht hplant hok hp) fun s hs => isJson_of_mem_styles ht hplant hok hs

/-! ### From the records to the data -/

theorem reading_dumpedMembers (s : StyleDecl) :
    (Value.dict (dumpedMembers s)).reading = s.reading.sparse := by
  obtain ⟨breakpoint, source, state, property, value⟩ := s
  cases state <;> cases hnull : value.isNull <;>
    simp [dumpedMembers, Value.reading, StyleDecl.reading, Reading.sparse, Table.find?_cons,
      Option.filter_some, hnull]

/-- The dump of a style record is checked as the record, if the value of the record is not null. -/
theorem checkStyleDecl_dumpedMembers {s : StyleDecl} (hs : s.value.isNull = false) :
    checkStyleDecl (dumpedMembers s) = .valid s := by
  obtain ⟨breakpoint, source, state, property, value⟩ := s
  have hvalue : (if value.isNull then [] else [("value", value)]) = [("value", value)] := by
    rw [hs]
    rfl
  unfold dumpedMembers
  rw [hvalue]
  cases state <;> rfl

/-- The dump of a style record whose value is null is refused. -/
theorem checkStyleDecl_ne_valid {s : StyleDecl} (hs : s.value.isNull = true) (r : StyleDecl) :
    checkStyleDecl (dumpedMembers s) ≠ .valid r := by
  intro h
  obtain ⟨ofValue, value, -, hvalue, -⟩ := Checked.seq_eq_valid.mp h
  obtain ⟨v, hv, -⟩ := check_eq_valid.mp hvalue
  have hreading := congrArg Reading.value (reading_dumpedMembers s)
  simp [Value.reading, StyleDecl.reading, Reading.sparse, Option.filter_some, hv, hs] at hreading

/-- The entries for styles in the dump of a document are those of its records, and these are read as the
declarations that are written in it. -/
theorem exists_entries {doc root : Value} {g₀ : Graph} {f : DocumentFragment}
    (hdoc : doc.isStrictDocument = true) (hload : Document.loadInto g₀ doc = .ok (g, root))
    (hok : (normalize g root).outcome = .ok f) :
    ∃ data, dumpFragment g {} f = .ok (.dict data) ∧
      Table.find? "styles" data = some (.list (f.styles.map fun s => .dict (dumpedMembers s))) ∧
      f.styles.map StyleDecl.reading = (Document.declared doc).map Value.reading := by
  obtain ⟨t, hloads, ht, hplant⟩ := exists_sound_of_loadInto hdoc hload
  refine ⟨_, dumpFragment_of_loadInto hdoc hload hok, ?_, ?_⟩
  · have hstyles : f.styles.map dumpedStyle = f.styles.map fun s => .dict (dumpedMembers s) :=
      List.map_congr_left fun s hs => dumpedStyle_eq (isJson_of_mem_styles ht hplant hok hs)
    rw [← hstyles]
    rfl
  · rw [reading_of_normalize ht hplant hok, Document.declared_of_loads t hloads]

/-- What is read of the entries is what is read of the records, without the values that are null. -/
theorem reading_of_entries {styles : List StyleDecl} {items : List Value}
    (h : styles.map StyleDecl.reading = items.map Value.reading) :
    (styles.map fun s => Value.dict (dumpedMembers s)).map Value.reading =
      items.map fun item => item.reading.sparse := by
  calc (styles.map fun s => Value.dict (dumpedMembers s)).map Value.reading
      = styles.map fun s => s.reading.sparse := by
        rw [List.map_map]
        exact List.map_congr_left fun s _ => reading_dumpedMembers s
    _ = (styles.map StyleDecl.reading).map Reading.sparse := by
        rw [List.map_map]
        rfl
    _ = items.map fun item => item.reading.sparse := by
        rw [h, List.map_map]
        rfl

/-- **Declarations.** The dump of a document that has records holds the declarations that are written in its
nodes, in their order.  What is read of each is what was written, but for a value that is null, which is
left out.  An entry can be checked as a record again exactly if it has its value. -/
theorem styles_survive {doc root : Value} {g₀ : Graph} {f : DocumentFragment}
    (hdoc : doc.isStrictDocument = true) (hload : Document.loadInto g₀ doc = .ok (g, root))
    (hok : (normalize g root).outcome = .ok f) :
    ∃ data entries, dumpFragment g {} f = .ok (.dict data) ∧
      Table.find? "styles" data = some (.list entries) ∧
      entries.map Value.reading = (Document.declared doc).map (fun item => item.reading.sparse) ∧
      ∀ entry ∈ entries, (∃ s, checkRecord "StyleDecl" checkStyleDecl entry = .valid s) ↔
        entry.reading.value.isSome := by
  obtain ⟨data, hdump, hfind, hreading⟩ := exists_entries hdoc hload hok
  refine ⟨data, _, hdump, hfind, reading_of_entries hreading, fun entry hentry => ?_⟩
  obtain ⟨s, -, rfl⟩ := List.mem_map.mp hentry
  rw [reading_dumpedMembers]
  cases hnull : s.value.isNull with
  | true =>
    refine iff_of_false ?_ (by simp [Reading.sparse, StyleDecl.reading, hnull])
    rintro ⟨r, hr⟩
    exact checkStyleDecl_ne_valid hnull r hr
  | false =>
    refine iff_of_true ⟨s, checkStyleDecl_dumpedMembers hnull⟩ ?_
    simp [Reading.sparse, StyleDecl.reading, hnull]

/-- A box with two declarations, and in a fragment, whose own declaration does not count, a text with a
third one. -/
def stylesDocument : Value := .dict
  [("component", .str "Box"),
   ("props", .dict [("ws:style", .list
     [.dict [("property", .str "color"), ("value", .str "red"), ("state", .str ":hover")],
      .dict [("property", .str "shadow"), ("value", .list [.int 1, .dict [("unit", .str "px")]])]])]),
   ("children", .list
     [.dict [("component", .str "Fragment"),
       ("props", .dict [("ws:style", .list [.dict [("property", .str "top"), ("value", .int 0)]])]),
       ("children", .list [.dict [("component", .str "Text"),
         ("props", .dict [("ws:style", .list
           [.dict [("property", .str "width"), ("value", .null), ("state", .null)]])])]])]])]

theorem styles_survive_stylesDocument : stylesDocument.isStrictDocument = true ∧ ∃ g root f data entries,
    Document.loadInto .empty stylesDocument = .ok (g, root) ∧ (normalize g root).outcome = .ok f ∧
      dumpFragment g {} f = .ok (.dict data) ∧ Table.find? "styles" data = some (.list entries) ∧
      entries.map Value.reading =
        (Document.declared stylesDocument).map (fun item => item.reading.sparse) ∧
      entries.map (fun entry => entry.reading.value.isSome) = [true, true, false] := by
  have hdoc : stylesDocument.isStrictDocument = true := by decide +kernel
  have hdeclared : (Document.declared stylesDocument).map (fun item => item.reading.sparse.value.isSome) =
      [true, true, false] := by decide +kernel
  obtain ⟨g, root, f, hload, hok⟩ := exists_rendered stylesDocument (by decide +kernel)
  obtain ⟨data, entries, hdump, hfind, hreading, -⟩ := styles_survive hdoc hload hok
  refine ⟨hdoc, g, root, f, data, entries, hload, hok, hdump, hfind, hreading, ?_⟩
  have hvalues := congrArg (List.map fun r => r.value.isSome) hreading
  rw [List.map_map, List.map_map] at hvalues
  exact hvalues.trans hdeclared

/-! ### A value that is lost -/

/-- A box with a declaration whose value is null. -/
def nullDocument : Value := .dict
  [("component", .str "Box"),
   ("props", .dict [("ws:style", .list [.dict [("property", .str "color"), ("value", .null)]])])]

/-- What is written does not always come back: where the value is null, no value is read of the entry. -/
theorem not_reading_eq_declared : ¬ ∀ (doc : Value) (g : Graph) (root : Value) (f : DocumentFragment)
    (data : List (String × Value)) (entries : List Value), doc.isStrictDocument = true →
      Document.loadInto .empty doc = .ok (g, root) → (normalize g root).outcome = .ok f →
      dumpFragment g {} f = .ok (.dict data) → Table.find? "styles" data = some (.list entries) →
        entries.map Value.reading = (Document.declared doc).map Value.reading := by
  intro h
  have hdoc : nullDocument.isStrictDocument = true := by decide +kernel
  obtain ⟨g, root, f, hload, hok⟩ := exists_rendered nullDocument (by decide +kernel)
  obtain ⟨data, hdump, hfind, hreading⟩ := exists_entries hdoc hload hok
  have hsame := (reading_of_entries hreading).symm.trans (h _ g root f data _ hdoc hload hok hdump hfind)
  have hvalues := congrArg (List.map fun r => r.value.isSome) hsame
  rw [List.map_map, List.map_map] at hvalues
  revert hvalues
  decide +kernel

end ViewGraph
