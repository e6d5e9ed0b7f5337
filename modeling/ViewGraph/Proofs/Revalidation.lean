import ViewGraph.Proofs.Checks
import ViewGraph.Proofs.Dumping

/-!
# Dumped records are valid

The data that a record is dumped as are checked to be that record again, under whichever of the two names its
fields are written, and whether or not the fields that hold nothing are left out.

* `Field.Apart`: two fields share no name.
* `writtenTable o keep entries`: the members that a dump writes for some fields.
* `find?_of_mem`, `find?_of_left_out`: in such a table each field that is written is found, and no other.
* `check_written`, `checkOr_written`, `checkTag_written`: so the check of a field gives what was written.
* `checkInstance_dumpInstance`, `checkChild_dumpChild`, `checkProp_dumpProp`: the records.
* `dumps_restore`: all of them.
-/

namespace ViewGraph

open Checked

/-! ### Definitions -/

/-- Two fields share no name. -/
def Field.Apart (a b : Field) : Prop :=
  (a.external ≠ b.external ∧ a.external ≠ b.name) ∧ a.name ≠ b.external ∧ a.name ≠ b.name

instance (a b : Field) : Decidable (a.Apart b) := inferInstanceAs (Decidable (_ ∧ _))

/-- The members that are written for some fields, as far as `keep` keeps them. -/
def writtenTable (o : DumpOptions) (keep : Entry → Bool) (entries : List Entry) : List (String × Value) :=
  (entries.filter keep).map fun e => (e.name o, e.data)

/-- A field that holds nothing may be left out. -/
def keepsEntry (o : DumpOptions) (e : Entry) : Bool := !(o.dropNull && e.absent)

/-- In a sparse record a field without data is left out in any case. -/
def keepsSparseEntry (o : DumpOptions) (e : Entry) : Bool := keepsEntry o e && !e.data.isNull

theorem dumpTable_eq (o : DumpOptions) (entries : List Entry) :
    dumpTable o entries = .dict (writtenTable o (keepsEntry o) entries) := rfl

theorem dumpSparse_eq (o : DumpOptions) (entries : List Entry) :
    dumpSparse o entries = .dict (writtenTable o (keepsSparseEntry o) entries) := by
  rw [dumpSparse, dumpTable_eq, writtenTable, List.filter_filter]
  rfl

@[simp] theorem keepsEntry_of (o : DumpOptions) (field : Field) (data : Value) :
    keepsEntry o (.of field data) = true := by
  simp [keepsEntry, Entry.of]

@[simp] theorem keepsSparseEntry_of (o : DumpOptions) (field : Field) (data : Value) :
    keepsSparseEntry o (.of field data) = !data.isNull := by
  simp [keepsSparseEntry, Entry.of, keepsEntry]

/-! ### The fields of a table -/

theorem table_find?_of_plain {name given : String} {v : Value} {members : List (String × Value)}
    (h : (Field.plain name).find? members = some (given, v)) : Table.find? name members = some v := by
  cases hfind : Table.find? name members with
  | none => simp [Field.find?, Field.plain, hfind] at h
  | some w => simp_all [Field.find?, Field.plain]

section Written

variable {o : DumpOptions} {keep : Entry → Bool} {entries : List Entry} {e : Entry}

theorem Field.Apart.symm {a b : Field} (h : a.Apart b) : b.Apart a :=
  ⟨⟨h.1.1.symm, h.2.1.symm⟩, h.1.2.symm, h.2.2.symm⟩

/-- What is not the name of a field that is written stands for nothing. -/
theorem table_find?_of_apart {name : String}
    (h : ∀ e ∈ entries, name ≠ e.field.external ∧ name ≠ e.field.name) :
    Table.find? name (writtenTable o keep entries) = none := by
  refine Table.find?_eq_none_iff.mpr fun hmem => ?_
  rw [writtenTable, List.map_map] at hmem
  obtain ⟨e, he, heq⟩ := List.mem_map.mp hmem
  obtain ⟨hexternal, hinternal⟩ := h e (List.mem_of_mem_filter he)
  cases hnames : o.externalNames with
  | true => exact hexternal (by simpa [Entry.name, hnames] using heq.symm)
  | false => exact hinternal (by simpa [Entry.name, hnames] using heq.symm)

/-- A field that is not among those that are written is not found. -/
theorem find?_of_apart {field : Field} (h : ∀ e ∈ entries, field.Apart e.field) :
    field.find? (writtenTable o keep entries) = none := by
  rw [Field.find?, table_find?_of_apart fun e he => (h e he).1, table_find?_of_apart fun e he => (h e he).2]
  rfl

theorem writtenTable_cons (e : Entry) (entries : List Entry) : writtenTable o keep (e :: entries) =
    if keep e then (e.name o, e.data) :: writtenTable o keep entries else writtenTable o keep entries := by
  unfold writtenTable
  by_cases hk : keep e <;> simp [hk]

/-- What is written for another field does not matter. -/
theorem find?_cons_of_apart {field : Field} (h : field.Apart e.field) (entries : List Entry) :
    field.find? (writtenTable o keep (e :: entries)) = field.find? (writtenTable o keep entries) := by
  rw [writtenTable_cons]
  split_ifs
  · have hexternal : field.external ≠ e.name o := by
      unfold Entry.name
      split_ifs
      exacts [h.1.1, h.1.2]
    have hname : field.name ≠ e.name o := by
      unfold Entry.name
      split_ifs
      exacts [h.2.1, h.2.2]
    rw [Field.find?, Field.find?, Table.find?_cons, if_neg hexternal, Table.find?_cons, if_neg hname]
  · rfl

variable (hapart : (entries.map (·.field)).Pairwise Field.Apart)

include hapart

/-- A field that is written is found. -/
theorem find?_of_mem (hmem : e ∈ entries) (hk : keep e = true) :
    e.field.find? (writtenTable o keep entries) = some (e.name o, e.data) := by
  induction entries with
  | nil => simp at hmem
  | cons e' entries ih =>
    obtain ⟨hhead, htail⟩ := List.pairwise_cons.mp hapart
    rcases List.mem_cons.mp hmem with rfl | hrest
    · have hothers : ∀ e' ∈ entries, e.field.Apart e'.field := fun e' he' =>
        hhead _ (List.mem_map.mpr ⟨e', he', rfl⟩)
      have hexternal : Table.find? e.field.external (writtenTable o keep entries) = none :=
        table_find?_of_apart fun e' he' => (hothers e' he').1
      rw [writtenTable_cons, if_pos hk, Field.find?, Table.find?_cons, Table.find?_cons, hexternal]
      unfold Entry.name
      -- Under its name inside, the field is looked for by its name outside first.
      by_cases hsame : e.field.external = e.field.name <;> cases o.externalNames <;> simp [hsame]
    · rw [find?_cons_of_apart (hhead _ (List.mem_map.mpr ⟨e, hrest, rfl⟩)).symm]
      exact ih htail hrest

/-- A field that is left out is not found. -/
theorem find?_of_left_out (hmem : e ∈ entries) (hk : keep e = false) :
    e.field.find? (writtenTable o keep entries) = none := by
  induction entries with
  | nil => simp at hmem
  | cons e' entries ih =>
    obtain ⟨hhead, htail⟩ := List.pairwise_cons.mp hapart
    rcases List.mem_cons.mp hmem with rfl | hrest
    · rw [writtenTable_cons, if_neg (by simp [hk])]
      exact find?_of_apart fun e' he' => hhead _ (List.mem_map.mpr ⟨e', he', rfl⟩)
    · rw [find?_cons_of_apart (hhead _ (List.mem_map.mpr ⟨e, hrest, rfl⟩)).symm]
      exact ih htail hrest

variable {α : Type} {check : Value → Checked α} {a : α}

theorem check_written (hmem : e ∈ entries) (hk : keep e = true) (hc : check e.data = .valid a) :
    e.field.check check (writtenTable o keep entries) = .valid a := by
  rw [Field.check, find?_of_mem hapart hmem hk]
  exact within_eq_valid.mpr hc

theorem checkOr_written {default : α} (hmem : e ∈ entries) (hc : keep e = true → check e.data = .valid a)
    (hdefault : keep e = false → default = a) :
    e.field.checkOr default check (writtenTable o keep entries) = .valid a := by
  rw [Field.checkOr]
  cases hk : keep e with
  | true =>
    rw [find?_of_mem hapart hmem hk]
    exact within_eq_valid.mpr (hc hk)
  | false =>
    rw [find?_of_left_out hapart hmem hk]
    exact congrArg Checked.valid (hdefault hk)

/-- The tag of a record is found. -/
theorem find?_tag_written {tag : String} (hmem : Entry.of "type" (.str tag) ∈ entries)
    (hk : keep (.of "type" (.str tag)) = true) :
    Table.find? "type" (writtenTable o keep entries) = some (.str tag) :=
  table_find?_of_plain (find?_of_mem hapart hmem hk)

/-- The tag of a record is that of its class. -/
theorem checkTag_written {tag : String} (hmem : Entry.of "type" (.str tag) ∈ entries)
    (hk : keep (.of "type" (.str tag)) = true) :
    checkTag tag (writtenTable o keep entries) = .valid () :=
  checkOr_written hapart hmem (fun _ => if_pos rfl) fun hleft => absurd (hk.symm.trans hleft) nofun

end Written

/-! ### Unions -/

/-- The tag of a record chooses its class. -/
theorem checkTagged_eq_valid {κ α : Type} {display : Value → String} {kinds : List κ} {tag : κ → String}
    {check : κ → List (String × Value) → Checked α} {members : List (String × Value)} {kind : κ} {a : α}
    (htag : Table.find? "type" members = some (.str (tag kind)))
    (hkind : (kinds.find? fun k => tag k = tag kind) = some kind) (hc : check kind members = .valid a) :
    checkTagged display kinds tag check (.dict members) = .valid a := by
  simp only [checkTagged, htag, hkind]
  exact within_eq_valid.mpr hc

/-! ### Data of one kind -/

section Data

variable {α : Type} {check : Value → Checked α} {write : α → Value}

theorem eachFrom_map {xs : List α} (h : ∀ x ∈ xs, check (write x) = .valid x) (i : Nat) :
    eachFrom check i (xs.map write) = .valid xs := by
  induction xs generalizing i with
  | nil => rfl
  | cons x xs ih =>
    obtain ⟨hx, hxs⟩ := List.forall_mem_cons.mp h
    rw [List.map_cons, eachFrom, hx, ih hxs]
    rfl

/-- The items of a list are valid one by one. -/
theorem checkList_map {xs : List α} (h : ∀ x ∈ xs, check (write x) = .valid x) :
    checkList check (.list (xs.map write)) = .valid xs :=
  eachFrom_map h 0

theorem checkOption_ofText? (text? : Option String) :
    checkOption checkText (Value.ofText? text?) = .valid text? := by
  cases text? <;> rfl

theorem checkOption_bool (b? : Option Bool) : checkOption checkBool (b?.elim .null .bool) = .valid b? := by
  cases b? <;> rfl

theorem checkTexts_map (texts : List (String × String)) :
    checkTexts (texts.map fun (name, s) => (name, .str s)) = .valid texts := by
  induction texts with
  | nil => rfl
  | cons a rest ih =>
    rw [List.map_cons, checkTexts, ih]
    rfl

theorem checkPage_dumpPage (target : PageTarget) : checkPage (dumpPage target) = .valid target := by
  cases target with
  | page id => rfl
  | anchored texts => simp [dumpPage, checkPage, checkTexts_map]

theorem checkNumber_toValue (n : Number) : checkNumber n.toValue = .valid n := by
  cases n <;> rfl

end Data

/-! ### Children and instances -/

section Records

variable (display : Value → String) (o : DumpOptions)

/-- The fields of a child that has a tag and a text only. -/
def taggedEntries (tag value : String) : List Entry := [.of "type" (.str tag), .of "value" (.str value)]

/-- The fields of a text that stands as a child. -/
def textEntries (value : String) (placeholder : Option Bool) : List Entry :=
  [.of "type" (.str "text"), .of "value" (.str value),
   ⟨"placeholder", placeholder.isNone, placeholder.elim .null .bool⟩]

/-- The fields of an instance. -/
def instanceEntries (i : Instance) : List Entry :=
  [.of "type" (.str "instance"), .of "id" (.str i.id), .of "component" (.str i.component),
   .ofText? "label" i.label, .of "children" (.list (i.children.map (dumpChild o)))]

theorem apart_taggedEntries (tag value : String) :
    ((taggedEntries tag value).map (·.field)).Pairwise Field.Apart := by
  show [Field.plain "type", "value"].Pairwise Field.Apart
  decide

theorem apart_textEntries (value : String) (placeholder : Option Bool) :
    ((textEntries value placeholder).map (·.field)).Pairwise Field.Apart := by
  show [Field.plain "type", "value", "placeholder"].Pairwise Field.Apart
  decide

theorem apart_instanceEntries (i : Instance) :
    ((instanceEntries o i).map (·.field)).Pairwise Field.Apart := by
  show [Field.plain "type", "id", "component", "label", "children"].Pairwise Field.Apart
  decide

theorem childKind_find? (kind : ChildKind) : (ChildKind.all.find? fun k => k.tag = kind.tag) = some kind := by
  cases kind <;> rfl

/-- The data of a child whose class has a tag and a text only are valid as that child. -/
theorem checkChild_tagged (kind : ChildKind) (make : String → Child) (value : String)
    (hkind : ∀ members, checkChildOf kind members =
      pure (fun _ value => make value) <*> checkTag kind.tag members <*>
        Field.check "value" checkText members) :
    checkChild display (dumpTable o (taggedEntries kind.tag value)) = .valid (make value) := by
  have hapart := apart_taggedEntries kind.tag value
  rw [dumpTable_eq]
  generalize hmembers : writtenTable o (keepsEntry o) (taggedEntries kind.tag value) = members
  have hfind : Table.find? "type" members = some (.str kind.tag) :=
    hmembers ▸ find?_tag_written hapart (by simp [taggedEntries]) (by simp)
  have htag : checkTag kind.tag members = .valid () :=
    hmembers ▸ checkTag_written hapart (by simp [taggedEntries]) (by simp)
  have hvalue : Field.check "value" checkText members = .valid value :=
    hmembers ▸ check_written hapart (e := .of "value" (.str value)) (by simp [taggedEntries]) (by simp) rfl
  refine checkTagged_eq_valid hfind (childKind_find? kind) ?_
  rw [hkind, htag, hvalue]
  rfl

/-- The data of a text are valid as that text. -/
theorem checkChild_text (value : String) (placeholder : Option Bool) :
    checkChild display (dumpSparse o (textEntries value placeholder)) = .valid (.text value placeholder) := by
  have hapart := apart_textEntries value placeholder
  rw [dumpSparse_eq]
  generalize hmembers : writtenTable o (keepsSparseEntry o) (textEntries value placeholder) = members
  have hfind : Table.find? "type" members = some (.str ChildKind.text.tag) :=
    hmembers ▸ find?_tag_written hapart (by simp [textEntries, ChildKind.tag]) (by simp)
  have htag : checkTag ChildKind.text.tag members = .valid () :=
    hmembers ▸ checkTag_written hapart (by simp [textEntries, ChildKind.tag]) (by simp)
  have hvalue : Field.check "value" checkText members = .valid value :=
    hmembers ▸ check_written hapart (e := .of "value" (.str value)) (by simp [textEntries]) (by simp) rfl
  have hplaceholder : Field.checkOr "placeholder" none (checkOption checkBool) members = .valid placeholder := by
    refine hmembers ▸ checkOr_written hapart
      (e := ⟨"placeholder", placeholder.isNone, placeholder.elim .null .bool⟩) (by simp [textEntries])
      (fun _ => checkOption_bool placeholder) fun hleft => ?_
    cases placeholder with
    | none => rfl
    | some b => simp [keepsSparseEntry, keepsEntry, Value.isNull] at hleft
  refine checkTagged_eq_valid hfind (childKind_find? .text) ?_
  unfold checkChildOf
  rw [htag, hvalue, hplaceholder]
  rfl

/-- **Children.** The data of a child are valid as that child. -/
theorem checkChild_dumpChild (c : Child) : checkChild display (dumpChild o c) = .valid c := by
  cases c with
  | text value placeholder => exact checkChild_text display o value placeholder
  | expression value => exact checkChild_tagged display o .expression .expression value fun _ => rfl
  | id value => exact checkChild_tagged display o .id .id value fun _ => rfl

/-- **Instances.** The data of an instance are valid as that instance. -/
theorem checkInstance_dumpInstance (i : Instance) :
    checkRecord "Instance" (checkInstance display) (dumpInstance o i) = .valid i := by
  show checkRecord _ _ (dumpSparse o (instanceEntries o i)) = _
  have hapart := apart_instanceEntries o i
  rw [dumpSparse_eq, checkRecord]
  generalize hmembers : writtenTable o (keepsSparseEntry o) (instanceEntries o i) = members
  have htag : checkTag "instance" members = .valid () :=
    hmembers ▸ checkTag_written hapart (by simp [instanceEntries]) (by simp)
  have hid : Field.check "id" checkText members = .valid i.id :=
    hmembers ▸ check_written hapart (e := .of "id" (.str i.id)) (by simp [instanceEntries]) (by simp) rfl
  have hcomponent : Field.check "component" checkText members = .valid i.component :=
    hmembers ▸ check_written hapart (e := .of "component" (.str i.component)) (by simp [instanceEntries])
      (by simp) rfl
  have hlabel : Field.checkOr "label" none (checkOption checkText) members = .valid i.label := by
    refine hmembers ▸ checkOr_written hapart (e := .ofText? "label" i.label) (by simp [instanceEntries])
      (fun _ => checkOption_ofText? i.label) fun hleft => ?_
    cases hlabel : i.label with
    | none => rfl
    | some text => simp [hlabel, keepsSparseEntry, keepsEntry, Entry.ofText?, Value.ofText?] at hleft
  have hchildren : Field.checkOr "children" [] (checkList (checkChild display)) members = .valid i.children :=
    hmembers ▸ checkOr_written hapart (e := .of "children" (.list (i.children.map (dumpChild o))))
      (by simp [instanceEntries]) (fun _ => checkList_map fun c _ => checkChild_dumpChild display o c)
      fun hleft => absurd hleft (by simp [Value.isNull])
  unfold checkInstance
  rw [htag, hid, hcomponent, hlabel, hchildren]
  rfl

/-! ### Attributes -/

/-- The fields of an attribute with these data. -/
def propEntries (p : PropRecord) (data : Value) : List Entry :=
  [.of "id" (.str p.id), .of .instanceId (.str p.instanceId), .of "name" (.str p.name),
   .of "type" (.str p.content.kind.tag), ⟨"value", p.content.isNull, data⟩]

theorem apart_propEntries (p : PropRecord) (data : Value) :
    ((propEntries p data).map (·.field)).Pairwise Field.Apart := by
  show [Field.plain "id", .instanceId, "name", "type", "value"].Pairwise Field.Apart
  decide

theorem propKind_find? (kind : PropKind) : (PropKind.all.find? fun k => k.tag = kind.tag) = some kind := by
  cases kind <;> rfl

/-- The data of the content of an attribute are valid as that content. -/
theorem checkContent_data (p : PropRecord) :
    checkContent p.content.kind (writtenTable o (keepsEntry o) (propEntries p p.content.data)) =
      .valid p.content := by
  have hapart := apart_propEntries p p.content.data
  have hmem : (⟨"value", p.content.isNull, p.content.data⟩ : Entry) ∈ propEntries p p.content.data := by
    simp [propEntries]
  -- The field of the content is there, unless the content is null.
  have hvalue {α : Type} {check : Value → Checked α} {a : α} (hnull : p.content.isNull = false)
      (hc : check p.content.data = .valid a) :
      Field.check "value" check (writtenTable o (keepsEntry o) (propEntries p p.content.data)) = .valid a :=
    check_written hapart hmem (by simp [keepsEntry, hnull]) hc
  obtain ⟨id, instanceId, name, content⟩ := p
  cases content with
  | action items =>
    exact congrArg (Checked.map PropContent.action) (hvalue rfl (checkList_map fun members _ => rfl))
  | page target => exact congrArg (Checked.map PropContent.page) (hvalue rfl (checkPage_dumpPage target))
  | number n => exact congrArg (Checked.map PropContent.number) (hvalue rfl (checkNumber_toValue n))
  | json v =>
    refine congrArg (Checked.map PropContent.json) (checkOr_written hapart hmem (fun _ => rfl) fun hleft => ?_)
    cases v with
    | null => rfl
    | _ => simp [keepsEntry, PropContent.isNull, Value.isNull] at hleft
  | expression value => exact congrArg (Checked.map PropContent.expression) (hvalue rfl rfl)
  | parameter value => exact congrArg (Checked.map PropContent.parameter) (hvalue rfl rfl)
  | resource value => exact congrArg (Checked.map PropContent.resource) (hvalue rfl rfl)
  | asset value => exact congrArg (Checked.map PropContent.asset) (hvalue rfl rfl)
  | string value => exact congrArg (Checked.map PropContent.string) (hvalue rfl rfl)
  | boolean value => exact congrArg (Checked.map PropContent.boolean) (hvalue rfl rfl)

/-- **Attributes.** The data of an attribute that holds JSON data with finite numbers are valid as that
attribute. -/
theorem checkProp_dumpProp {g : Graph} {o : DumpOptions} (hjson : o.exact = false) {p : PropRecord}
    (hp : p.content.IsData Number.isFinite) :
    ∃ v, dumpProp g o p = .ok v ∧ checkProp display v = .valid p := by
  have hdump : dumpProp g o p = .ok (dumpTable o (propEntries p p.content.data)) := by
    unfold dumpProp
    rw [hjson, dumpContent_eq hp, dumped_eq_data hp]
    rfl
  refine ⟨_, hdump, ?_⟩
  have hapart := apart_propEntries p p.content.data
  have hcontent := checkContent_data o p
  rw [dumpTable_eq]
  generalize hmembers : writtenTable o (keepsEntry o) (propEntries p p.content.data) = members at hcontent ⊢
  have hid : Field.check "id" checkText members = .valid p.id :=
    hmembers ▸ check_written hapart (e := .of "id" (.str p.id)) (by simp [propEntries]) (by simp) rfl
  have hinstance : Field.instanceId.check checkText members = .valid p.instanceId :=
    hmembers ▸ check_written hapart (e := .of .instanceId (.str p.instanceId)) (by simp [propEntries])
      (by simp) rfl
  have hname : Field.check "name" checkText members = .valid p.name :=
    hmembers ▸ check_written hapart (e := .of "name" (.str p.name)) (by simp [propEntries]) (by simp) rfl
  have htag : checkTag p.content.kind.tag members = .valid () :=
    hmembers ▸ checkTag_written hapart (by simp [propEntries]) (by simp)
  have hfind : Table.find? "type" members = some (.str p.content.kind.tag) :=
    hmembers ▸ find?_tag_written hapart (by simp [propEntries]) (by simp)
  refine checkTagged_eq_valid hfind (propKind_find? _) ?_
  unfold checkPropOf
  rw [hid, hinstance, hname, htag, hcontent]
  rfl

end Records

/-! ### The whole -/

/-- **Dumped records.** Instances, children and attributes whose data are JSON data with finite numbers are
dumped as data that are valid as the very same records, whatever names the fields are given and whether or not
fields that hold nothing are left out. -/
theorem dumps_restore (g : Graph) (display : Value → String) {o : DumpOptions} (hjson : o.exact = false) :
    (∀ i, checkRecord "Instance" (checkInstance display) (dumpInstance o i) = .valid i) ∧
    (∀ c, checkChild display (dumpChild o c) = .valid c) ∧
    ∀ p : PropRecord, p.content.IsData Number.isFinite →
      ∃ v, dumpProp g o p = .ok v ∧ checkProp display v = .valid p :=
  ⟨checkInstance_dumpInstance display o, checkChild_dumpChild display o, fun _ => checkProp_dumpProp display hjson⟩

/-- One, as a floating-point number. -/
def realOne : Binary64 := .finite false ⟨1023 * Nat.pow 2 52, by decide⟩

/-- A table with a null, one, and one as a floating-point number. -/
def onesContent : PropContent := .json (.dict [("none", .null), ("whole", .int 1), ("real", .float realOne)])

theorem onesContent_isData : onesContent.IsData Number.isFinite :=
  Value.isJson_dict.mpr ⟨by decide, by simp [Value.isJson, realOne, Number.isFinite, Binary64.isFinite]⟩

/-- They stay apart, also if the fields have their names inside and those that hold nothing are left out. -/
theorem dumps_restore_ones :
    let o : DumpOptions := { externalNames := false, dropNull := true }
    let p : PropRecord := ⟨"box:data", "box", "data", onesContent⟩
    o.exact = false ∧ p.content.IsData Number.isFinite ∧
      ∃ v, dumpProp .empty o p = .ok v ∧ checkProp (fun _ => "") v = .valid p :=
  ⟨rfl, onesContent_isData, (dumps_restore .empty (fun _ => "") rfl).2.2 _ onesContent_isData⟩

end ViewGraph
