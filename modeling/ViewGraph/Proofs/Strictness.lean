import ViewGraph.Proofs.Declarations
import ViewGraph.Proofs.Writing

/-!
# Numbers that are not finite

A document may hold numbers that are not finite, and the writer refuses them.  But the writer only sees the data of
the records, and there such a number is replaced by null, unless it is itself the content of an attribute.  A whole
number with too many digits is refused wherever it stands.

* `isJson_dumpedFragment_iff`: the numbers in the data of a fragment are finite, or contents of attributes.
* `StrictlyWritten f data`: the records of `f` have these data, and what the writer makes of them.
* `exists_strictlyWritten`: this is so for the records of every document.
* `not_refused_of_notFinite`: so a number may be replaced without a word.
-/

namespace ViewGraph

open ViewGraph.Graph

/-! ### Definitions -/

/-- The data of some records of a document, and their texts under every indentation that is null or a number. -/
structure StrictlyWritten (doc : Value) (g : Graph) (f : DocumentFragment) (data : List (String × Value)) : Prop where
  dump : dumpFragment g {} f = .ok (.dict data)
  props : Table.find? "props" data = some (.list (f.props.map dumpedProp))
  styles : Table.find? "styles" data = some (.list (f.styles.map dumpedStyle))
  /-- The value of an attribute is dumped as it is exactly if it is a number or holds finite numbers only. -/
  kept : ∀ p ∈ f.props, p.content.dumped = p.content.data ↔
    p.content.kind = .number ∨ p.content.data.isStrictDocument = true
  /-- The value of a declaration is dumped as it is exactly if it holds finite numbers only. -/
  keptStyles : ∀ s ∈ f.styles, s.value.finitePart = s.value ↔ s.value.isStrictDocument = true
  /-- Where every whole number in a document can be shown, so can those in the data. -/
  short : doc.isShortDocument = true → (Value.dict data).isShortDocument = true
  text : ∀ indent : Value, indent.IsIndent →
    ((∃ text, jsonText g.displayed indent (.dict data) = .ok text) ↔
      (∀ p ∈ f.props, ∀ x, p.content = .number (.real x) → x.isFinite = true) ∧
        (Value.dict data).isShortDocument = true)
  refused : ∀ indent : Value, indent.IsIndent → (Value.dict data).isShortDocument = true →
    ((∃ x indented, jsonText g.displayed indent (.dict data) = .error (.notFinite x indented)) ↔
      ∃ p ∈ f.props, ∃ x, p.content = .number (.real x) ∧ x.isFinite = false)
  tooLarge : ∀ n : Int, n < -wordBound ∨ wordBound ≤ n →
    jsonText g.displayed (.int n) (.dict data) = .error .indentTooLarge

variable {number admitted : Number → Bool} {g : Graph} {f : DocumentFragment}

/-! ### Data without numbers -/

theorem isJson_list_map {α : Type} {l : List α} {F : α → Value} (h : ∀ a ∈ l, (F a).isJson admitted = true) :
    (Value.list (l.map F)).isJson admitted = true := by
  refine Value.isJson_list.mpr fun v hv => ?_
  obtain ⟨a, ha, rfl⟩ := List.mem_map.mp hv
  exact h a ha

/-- A table of entries with distinct names is JSON data if the entries are. -/
theorem isJson_dumpTable {entries : List Entry} (hnames : (entries.map (Entry.name {})).Nodup)
    (hdata : ∀ e ∈ entries, e.data.isJson admitted = true) :
    (dumpTable {} entries).isJson admitted = true := by
  refine Value.isJson_dict.mpr ⟨?_, fun a ha => ?_⟩
  · rw [List.map_map]
    exact hnames.sublist (List.filter_sublist.map _)
  · obtain ⟨e, he, rfl⟩ := List.mem_map.mp ha
    exact hdata e (List.mem_of_mem_filter he)

theorem isJson_dumpSparse {entries : List Entry} (hnames : (entries.map (Entry.name {})).Nodup)
    (hdata : ∀ e ∈ entries, e.data.isJson admitted = true) :
    (dumpSparse {} entries).isJson admitted = true :=
  isJson_dumpTable (hnames.sublist (List.filter_sublist.map _)) fun e he => hdata e (List.mem_of_mem_filter he)

theorem isJson_ofText? (text? : Option String) : (Value.ofText? text?).isJson admitted = true := by
  cases text? <;> rfl

theorem isJson_dumpChild (c : Child) : (dumpChild {} c).isJson admitted = true := by
  cases c with
  | text value placeholder => cases placeholder <;> rfl
  | _ => rfl

theorem isJson_dumpInstance (i : Instance) : (dumpInstance {} i).isJson admitted = true := by
  have hchildren : (Value.list (i.children.map (dumpChild {}))).isJson admitted = true :=
    isJson_list_map fun c _ => isJson_dumpChild c
  refine isJson_dumpSparse ?_ ?_
  · show ["type", "id", "component", "label", "children"].Nodup
    decide
  · simpa [Entry.of, Entry.ofText?, isJson_ofText?, Value.isJson] using hchildren

theorem isJson_dumpSelection (s : StyleSourceSelection) : (dumpSelection {} s).isJson admitted = true := by
  refine isJson_dumpTable ?_ ?_
  · show ["instanceId", "values"].Nodup
    decide
  · simp [Entry.of, isJson_ofTexts, Value.isJson]

/-! ### Data of any kind -/

section

variable (hfinite : ∀ n, number n = true → n.isFinite = true → admitted n = true)

include hfinite

theorem isJson_dumpedStyle {s : StyleDecl} (hs : s.value.isJson number = true) :
    (dumpedStyle s).isJson admitted = true := by
  have hvalue := Value.isJson_finitePart hfinite s.value hs
  unfold dumpedStyle dumpedMembers
  refine Value.isJson_dict.mpr ⟨?_, ?_⟩
  · cases s.state <;> split_ifs <;> simp
  · cases s.state <;> split_ifs <;> simp [hvalue, Value.isJson]

/-- The dump of a content holds finite numbers only, unless it is itself a number. -/
theorem isJson_dumped_iff {c : PropContent} (hc : c.IsData number) :
    c.dumped.isJson admitted = true ↔ ∀ n, c = .number n → admitted n = true := by
  cases c with
  | number n =>
    refine Iff.trans ?_ (show admitted n = true ↔ _ from ⟨fun h m hm => ?_, fun h => h n rfl⟩)
    · cases n <;> rfl
    · obtain rfl := PropContent.number.inj hm
      exact h
  | action items =>
    refine iff_of_true (isJson_list_map fun members hmembers => ?_) nofun
    exact Value.isJson_finitePart hfinite _ (hc members hmembers)
  | json v => exact iff_of_true (Value.isJson_finitePart hfinite v hc) nofun
  | page target =>
    refine iff_of_true ?_ nofun
    cases target with
    | page id => rfl
    | anchored members =>
      refine Value.isJson_dict.mpr ⟨(Value.isJson_dict.mp hc).1, fun a ha => ?_⟩
      obtain ⟨b, -, rfl⟩ := List.mem_map.mp ha
      rfl
  | _ => exact iff_of_true rfl nofun

theorem isJson_dumpedProp_iff {p : PropRecord} (hp : p.content.IsData number) :
    (dumpedProp p).isJson admitted = true ↔ ∀ n, p.content = .number n → admitted n = true := by
  rw [← isJson_dumped_iff hfinite hp, dumpedProp, Value.isJson_dict]
  simp [Value.isJson]

/-- **Fragments.** Finite numbers may stand in the data of a fragment, and others are contents of attributes. -/
theorem isJson_dumpedFragment_iff (hprops : ∀ p ∈ f.props, p.content.IsData number)
    (hstyles : ∀ s ∈ f.styles, s.value.isJson number = true) :
    (Value.dict (dumpedFragment f)).isJson admitted = true ↔
      ∀ p ∈ f.props, ∀ n, p.content = .number n → admitted n = true := by
  have hpropsJson : (Value.list (f.props.map dumpedProp)).isJson admitted = true ↔
      ∀ p ∈ f.props, ∀ n, p.content = .number n → admitted n = true := by
    rw [Value.isJson_list, List.forall_mem_map]
    exact forall₂_congr fun p hp => isJson_dumpedProp_iff hfinite (hprops p hp)
  have hchildren : (Value.list (f.children.map (dumpChild {}))).isJson admitted = true :=
    isJson_list_map fun c _ => isJson_dumpChild c
  have hinstances : (Value.list (f.instances.map (dumpInstance {}))).isJson admitted = true :=
    isJson_list_map fun i _ => isJson_dumpInstance i
  have hbreakpoints : (Value.list (f.breakpoints.map (dumpBreakpoint {}))).isJson admitted = true :=
    isJson_list_map fun _ _ => rfl
  have hsources : (Value.list (f.styleSources.map (dumpStyleSource {}))).isJson admitted = true :=
    isJson_list_map fun _ _ => rfl
  have hselections : (Value.list (f.styleSourceSelections.map (dumpSelection {}))).isJson admitted = true :=
    isJson_list_map fun s _ => isJson_dumpSelection s
  have hstylesJson : (Value.list (f.styles.map dumpedStyle)).isJson admitted = true :=
    isJson_list_map fun s hs => isJson_dumpedStyle hfinite (hstyles s hs)
  have hempty : (Value.list []).isJson admitted = true := rfl
  rw [← hpropsJson, Value.isJson_dict]
  simp [dumpedFragment, hchildren, hinstances, hbreakpoints, hsources, hselections, hstylesJson, hempty]

end

/-! ### The whole -/

/-- The value of an attribute is dumped as it is exactly if it is a number or holds finite numbers only. -/
theorem dumped_eq_data_iff {c : PropContent} (hc : c.IsData number) :
    c.dumped = c.data ↔ c.kind = .number ∨ c.data.isStrictDocument = true := by
  by_cases hkind : c.kind = .number
  · cases c with
    | number n => exact iff_of_true rfl (.inl rfl)
    | _ => cases hkind
  · have hstrict : c.dumped.isStrictDocument = true :=
      (isJson_dumped_iff (fun _ _ hn => hn) hc).mpr fun n hn => absurd (by rw [hn]; rfl) hkind
    simp only [hkind, false_or]
    refine ⟨fun h => h ▸ hstrict, fun h => ?_⟩
    cases c with
    | json v => exact (Value.finitePart_eq_self_iff hc).mpr h
    | action items =>
      refine congrArg Value.list (List.map_congr_left fun members hmembers => ?_)
      exact Value.finitePart_of_isStrictDocument _
        (Value.isJson_list.mp h _ (List.mem_map_of_mem hmembers))
    | _ => rfl

section Written

variable {doc root : Value} {g₀ : Graph} (hdoc : doc.isDocument = true)
  (hload : Document.loadInto g₀ doc = .ok (g, root)) (hok : (normalize g root).outcome = .ok f)

include hload hok

/-- The data of the records hold no numbers but those of the document. -/
theorem isShortDocument_dumpedFragment (hshort : doc.isShortDocument = true) :
    (Value.dict (dumpedFragment f)).isShortDocument = true := by
  obtain ⟨t, -, ht, hplant⟩ := exists_sound_of_loadInto hshort hload
  have hcontents := fun p hp => content_of_mem_props ht hplant hok (p := p) hp
  refine (isJson_dumpedFragment_iff (fun _ hn _ => hn) (fun p hp => (hcontents p hp).1)
    fun s hs => isJson_of_mem_styles ht hplant hok hs).mpr fun p hp n hn => ?_
  have hdata := (hcontents p hp).2
  rw [hn] at hdata
  cases n <;> exact hdata

include hdoc

/-- The records of a document are JSON data, as their dump is, and in the dump every number that is not finite is
the content of an attribute. -/
theorem strictlyWritten_of_loadInto : StrictlyWritten doc g f (dumpedFragment f) := by
  obtain ⟨t, -, ht, hplant⟩ := exists_sound_of_loadInto hdoc hload
  have hprops : ∀ p ∈ f.props, p.content.IsData fun _ => true :=
    fun p hp => isData_of_mem_props ht hplant hok hp
  have hstyles : ∀ s ∈ f.styles, s.value.isJson (fun _ => true) = true :=
    fun s hs => isJson_of_mem_styles ht hplant hok hs
  have hjson : (Value.dict (dumpedFragment f)).isJson (fun _ => true) = true :=
    (isJson_dumpedFragment_iff (fun _ _ _ => rfl) hprops hstyles).mpr fun _ _ _ _ => rfl
  have hstrict : (Value.dict (dumpedFragment f)).isStrictDocument = true ↔
      ∀ p ∈ f.props, ∀ x, p.content = .number (.real x) → x.isFinite = true := by
    refine (isJson_dumpedFragment_iff (fun _ _ hn => hn) hprops hstyles).trans ?_
    refine forall₂_congr fun p _ => ⟨fun h x hx => h (.real x) hx, fun h n hn => ?_⟩
    cases n with
    | whole n => rfl
    | real x => exact h x hn
  have hwritten : (Value.dict (dumpedFragment f)).isJson Number.isWritten = true ↔
      (Value.dict (dumpedFragment f)).isStrictDocument = true ∧
        (Value.dict (dumpedFragment f)).isShortDocument = true := by
    refine ⟨fun h => ⟨?_, ?_⟩, fun h => ?_⟩
    · exact Value.isJson_mono (fun n hn => Number.isFinite_of_isWritten hn) _ h
    · exact Value.isJson_mono (fun n hn => Number.isShown_of_isWritten hn) _ h
    · exact Value.isJson_both (fun n hn hn' => Number.isWritten_of_isFinite hn hn') _ h.1 h.2
  exact
    { dump := dumpFragment_of_loadInto hdoc hload hok
      props := rfl
      styles := rfl
      kept := fun p hp => dumped_eq_data_iff (hprops p hp)
      keptStyles := fun s hs => Value.finitePart_eq_self_iff (hstyles s hs)
      short := isShortDocument_dumpedFragment hload hok
      text := fun indent hindent => by rw [exists_jsonText_iff hindent hjson, hwritten, hstrict]
      refused := fun indent hindent hshort => by
        rw [jsonText_refused_iff hindent hshort, hwritten, hstrict]
        simp only [hshort, and_true, not_forall, exists_prop, Bool.not_eq_true]
      tooLarge := fun n hn => by
        rw [jsonText_dict, Json.layout_eq_error hn]
        rfl }

/-- **Strictness.** A document that has records has data, and under an indentation that is null or a number
within bounds these are refused exactly if a number that is itself the content of an attribute is not finite, or a
whole number in them has too many digits; otherwise they have a text. Every other number that is not finite is
replaced by null on the way to the data. -/
theorem exists_strictlyWritten : ∃ data, StrictlyWritten doc g f data :=
  ⟨_, strictlyWritten_of_loadInto hdoc hload hok⟩

end Written

/-- A box with a number that is not finite as an attribute, and with one in a list. -/
def infiniteDocument : Value := .dict
  [("component", .str "Box"),
   ("props", .dict [("size", .float (.infinity true)), ("data", .list [.float .nan, .int 1])])]

def hasInfiniteNumber (p : PropRecord) : Bool :=
  match p.content with
  | .number (.real x) => !x.isFinite
  | _ => false

theorem exists_strictlyWritten_infiniteDocument : infiniteDocument.isDocument = true ∧ ∃ g root f data,
    Document.loadInto .empty infiniteDocument = .ok (g, root) ∧ (normalize g root).outcome = .ok f ∧
      StrictlyWritten infiniteDocument g f data ∧
      ∃ x indented, jsonText g.displayed (.int 2) (.dict data) = .error (.notFinite x indented) := by
  have hdoc : infiniteDocument.isDocument = true := by decide +kernel
  obtain ⟨g, root, f, hload, hok, hgood⟩ :=
    exists_rendered_with infiniteDocument (·.props.any hasInfiniteNumber) (by decide +kernel)
  obtain ⟨data, hdata⟩ := exists_strictlyWritten hdoc hload hok
  refine ⟨hdoc, g, root, f, data, hload, hok, hdata, ?_⟩
  have hshort := hdata.short (by decide +kernel)
  refine (hdata.refused (.int 2) (.inr ⟨2, rfl, by decide, by decide⟩) hshort).mpr ?_
  obtain ⟨p, hp, hinfinite⟩ := List.any_eq_true.mp hgood
  refine ⟨p, hp, ?_⟩
  unfold hasInfiniteNumber at hinfinite
  split at hinfinite
  · rename_i x hx
    exact ⟨x, hx, by simpa using hinfinite⟩
  · simp at hinfinite

/-! ### A number that is replaced -/

/-- A box with a list that holds a number that is none. -/
def hiddenDocument : Value := .dict
  [("component", .str "Box"), ("props", .dict [("data", .list [.float .nan])])]

/-- Records with a number that is not finite are not always refused. -/
theorem not_refused_of_notFinite : ¬ ∀ (doc : Value) (g : Graph) (root : Value) (f : DocumentFragment)
    (data indent : Value), doc.isDocument = true → Document.loadInto .empty doc = .ok (g, root) →
      (normalize g root).outcome = .ok f → dumpFragment g {} f = .ok data → indent.IsIndent →
        ((∃ x indented, jsonText g.displayed indent data = .error (.notFinite x indented)) ↔
          (∃ p ∈ f.props, p.content.data.isStrictDocument = false) ∨
            ∃ s ∈ f.styles, s.value.isStrictDocument = false) := by
  intro h
  have hdoc : hiddenDocument.isDocument = true := by decide +kernel
  obtain ⟨g, root, f, hload, hok, hgood⟩ := exists_rendered_with hiddenDocument
    (fun f => f.props.any (fun p => !p.content.data.isStrictDocument) && !f.props.any hasInfiniteNumber)
    (by decide +kernel)
  obtain ⟨hhidden, hnone⟩ := Bool.and_eq_true_iff.mp hgood
  obtain ⟨p, hp, hstrict⟩ := List.any_eq_true.mp hhidden
  have hwritten := strictlyWritten_of_loadInto hdoc hload hok
  have hindent : Value.IsIndent .null := .inl rfl
  have hrefused := (h _ g root f _ .null hdoc hload hok hwritten.dump hindent).mpr
    (.inl ⟨p, hp, by simpa using hstrict⟩)
  obtain ⟨q, hq, x, hx, hinfinite⟩ := (hwritten.refused .null hindent (hwritten.short (by decide +kernel))).mp hrefused
  have hq' : hasInfiniteNumber q = true := by simp [hasInfiniteNumber, hx, hinfinite]
  rw [List.any_eq_true.mpr ⟨q, hq, hq'⟩] at hnone
  cases hnone

end ViewGraph
