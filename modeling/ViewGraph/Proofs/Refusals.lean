import ViewGraph.Document.Text
import ViewGraph.Proofs.Loading
import ViewGraph.Proofs.Shown

/-!
# How documents are refused

The loader refuses a document with an error of its format, which has a place.  Only a number among children that has
too many digits fails in another way.

* `FormatOnly r`: `r` fails with errors of the format, if it fails.
* `formatOnly_loadPayload`, `formatOnly_checkReserved`, `formatOnly_loadProps`: so do all the checks of attributes.
* `formatOnly_load`: so does loading where every whole number can be shown.
-/

namespace ViewGraph

namespace Document

/-! ### Definitions -/

/-- A computation fails with errors of the format, if it fails. -/
def FormatOnly {α : Type} (r : Loading α) : Prop := r ≠ .error .tooManyDigits

section FormatOnly

variable {α β : Type}

theorem FormatOnly.exists_format {r : Loading α} (hr : FormatOnly r) {e : LoadError} (h : r = .error e) :
    ∃ f, e = .format f := by
  cases e with
  | format f => exact ⟨f, rfl⟩
  | tooManyDigits => exact absurd h hr

@[simp] theorem formatOnly_ok (a : α) : FormatOnly (.ok a : Loading α) := nofun

@[simp] theorem formatOnly_pure (a : α) : FormatOnly (pure a : Loading α) := nofun

@[simp] theorem formatOnly_fail (problem : Problem) : FormatOnly (fail problem : Loading α) := by
  simp [FormatOnly, fail]

@[simp] theorem formatOnly_within {step : Step} {r : Loading α} : FormatOnly (within step r) ↔ FormatOnly r := by
  cases r with
  | ok a => simp [within, Except.mapError, FormatOnly]
  | error e => cases e <;> simp [within, Except.mapError, FormatOnly]

theorem FormatOnly.bind {r : Loading α} {f : α → Loading β} (hr : FormatOnly r) (hf : ∀ a, FormatOnly (f a)) :
    FormatOnly (r >>= f) := by
  cases r with
  | ok a => exact hf a
  | error e => exact fun h => hr (congrArg Except.error (Except.error.inj h))

theorem FormatOnly.map {r : Loading α} {f : α → β} (hr : FormatOnly r) : FormatOnly (f <$> r) := by
  cases r with
  | ok a => exact formatOnly_ok (f a)
  | error e => exact fun h => hr (congrArg Except.error (Except.error.inj h))

end FormatOnly

/-! ### Attributes -/

theorem formatOnly_text (v : Value) : FormatOnly (text v) := by
  cases v <;> simp [text]

theorem formatOnly_loadWrapped (kind : Wrapper) (payload : Value) : FormatOnly (loadWrapped kind payload) :=
  (formatOnly_text payload).bind fun _ => formatOnly_pure _

theorem formatOnly_loadAction (payload : Value) : FormatOnly (loadAction payload) := by
  unfold loadAction
  split
  · simp only
    split
    · split_ifs
      · exact (formatOnly_within.mpr (formatOnly_text _)).bind fun _ => formatOnly_pure _
      · simp
    · simp
  · simp

theorem formatOnly_loadPage (payload : Value) : FormatOnly (loadPage payload) := by
  unfold loadPage
  split
  · simp
  · split
    · simp
    · refine (formatOnly_within.mpr (formatOnly_text _)).bind fun page => ?_
      split
      · simp
      · exact (formatOnly_within.mpr (formatOnly_text _)).bind fun _ => formatOnly_pure _
  · simp

theorem formatOnly_loadPayload (tag : String) (payload : Value) : FormatOnly (loadPayload tag payload) := by
  unfold loadPayload
  split_ifs <;>
    simp [formatOnly_loadWrapped, formatOnly_loadAction, formatOnly_loadPage]

theorem formatOnly_loadValue (v : Value) : FormatOnly (loadValue v) := by
  unfold loadValue
  split
  · exact formatOnly_loadPayload _ _
  · simp

theorem formatOnly_loadProps (props : List (String × Value)) : FormatOnly (loadProps props) := by
  induction props with
  | nil => simp [loadProps]
  | cons a rest ih =>
    obtain ⟨name, v⟩ := a
    exact (formatOnly_within.mpr (formatOnly_loadValue v)).bind fun w => ih.bind fun more => formatOnly_pure _

theorem formatOnly_checkLabel (label? : Option Value) : FormatOnly (checkLabel label?) := by
  unfold checkLabel
  split <;> simp

theorem formatOnly_checkDeclarationTable (v : Value) : FormatOnly (checkDeclarationTable v) := by
  unfold checkDeclarationTable
  split
  · split
    · refine (formatOnly_within.mpr (formatOnly_text _)).bind fun property => ?_
      split
      · simp
      · exact (formatOnly_within.mpr (formatOnly_text _)).bind fun _ => formatOnly_pure _
    · simp
  · simp

theorem formatOnly_checkDeclarations (i : ℕ) (items : List Value) : FormatOnly (checkDeclarations i items) := by
  induction items generalizing i with
  | nil => simp [checkDeclarations]
  | cons v rest ih =>
    exact (formatOnly_within.mpr (formatOnly_checkDeclarationTable v)).bind fun _ => ih (i + 1)

theorem formatOnly_checkStyles (styles? : Option Value) : FormatOnly (checkStyles styles?) := by
  unfold checkStyles
  split <;> simp [formatOnly_checkDeclarations]

theorem formatOnly_checkReserved (props : List (String × Value)) : FormatOnly (checkReserved props) :=
  (formatOnly_within.mpr (formatOnly_checkLabel _)).bind fun _ =>
    formatOnly_within.mpr (formatOnly_checkStyles _)

theorem formatOnly_propsOf (members : List (String × Value)) : FormatOnly (propsOf members) := by
  unfold propsOf
  split
  · simp
  · split_ifs <;> simp

theorem formatOnly_checkChildren (members : List (String × Value)) : FormatOnly (checkChildren members) := by
  unfold checkChildren
  split
  · simp
  · split_ifs <;> simp

/-! ### Nodes -/

/-- A leaf in which every whole number can be shown. -/
theorem formatOnly_loadLeaf? {v : Value} (hv : v.isShortDocument = true) {leaf : Loading Value}
    (h : loadLeaf? v = some leaf) : FormatOnly leaf := by
  unfold loadLeaf? at h
  split at h
  · obtain rfl := Option.some.inj h
    simp
  · rename_i n
    obtain rfl := Option.some.inj h
    obtain ⟨text, htext⟩ := (exists_showInt_iff n).mpr hv
    simp [loadWhole, htext]
  · obtain rfl := Option.some.inj h
    simp
  · obtain ⟨⟨tag, payload⟩, -, rfl⟩ := Option.map_eq_some_iff.mp h
    refine (formatOnly_loadPayload tag payload).bind fun value => ?_
    split <;> simp

mutual

/-- **Refusals.** A document in which every whole number can be shown is refused with an error of the format. -/
theorem formatOnly_load : ∀ v : Value, v.isJson Number.isShown = true → FormatOnly (load v)
  | .list items, h => by
    rw [load]
    exact (formatOnly_loadChildren 0 items h).bind fun _ => formatOnly_pure _
  | .dict members, h => by
    have hmembers := formatOnly_loadMember members (Bool.and_eq_true_iff.mp h).2
    rw [load]
    cases Table.find? "component" members with
    | none => simp
    | some component =>
      refine (formatOnly_within.mpr (formatOnly_text component)).bind fun name => ?_
      refine (formatOnly_within.mpr (formatOnly_propsOf members)).bind fun given => ?_
      refine (formatOnly_within.mpr (formatOnly_checkReserved given)).bind fun _ => ?_
      refine (formatOnly_within.mpr (formatOnly_checkChildren members)).bind fun _ => ?_
      refine (formatOnly_within.mpr (formatOnly_loadProps given)).bind fun props => ?_
      exact (formatOnly_within.mpr hmembers).bind fun _ => formatOnly_pure _
  | .null, _ => by simp [load]
  | .bool _, _ => by simp [load]
  | .int _, _ => by simp [load]
  | .float _, _ => by simp [load]
  | .str _, _ => by simp [load]
  | .tuple _, _ => by simp [load]
  | .wrapped _ _, _ => by simp [load]
  | .action _ _, _ => by simp [load]
  | .page _ _, _ => by simp [load]
  | .style _ _ _, _ => by simp [load]
  | .fragment, _ => by simp [load]
  | .component _, _ => by simp [load]
  | .element _, _ => by simp [load]

theorem formatOnly_loadMember : ∀ members : List (String × Value),
    Value.allMembersJson Number.isShown members = true → FormatOnly (loadMember members)
  | [], _ => by simp [loadMember]
  | (name, v) :: rest, h => by
    obtain ⟨hv, hrest⟩ := Bool.and_eq_true_iff.mp h
    have hmore := formatOnly_loadMember rest hrest
    by_cases hname : name = "children"
    · cases v with
      | list items => simpa [loadMember, hname] using formatOnly_loadChildren 0 items hv
      | _ => simp [loadMember, hname]
    · cases v <;> simpa [loadMember, hname] using hmore

theorem formatOnly_loadChildren : ∀ (i : ℕ) (items : List Value), Value.allJson Number.isShown items = true →
    FormatOnly (loadChildren i items)
  | _, [], _ => by simp [loadChildren]
  | i, v :: rest, h => by
    obtain ⟨hv, hrest⟩ := Bool.and_eq_true_iff.mp h
    have hnode := formatOnly_load v hv
    have hmore := formatOnly_loadChildren (i + 1) rest hrest
    rw [loadChildren]
    split_ifs with hnull
    · exact hmore
    · refine FormatOnly.bind (formatOnly_within.mpr ?_) fun _ => hmore.bind fun _ => formatOnly_pure _
      cases hleaf : loadLeaf? v with
      | some leaf => exact (formatOnly_loadLeaf? hv hleaf).map
      | none => exact hnode

end

/-- What is loaded into a graph is refused like the document. -/
theorem formatOnly_loadInto {doc : Value} (h : doc.isShortDocument = true) (g : Graph) :
    FormatOnly (loadInto g doc) :=
  (formatOnly_load doc h).bind fun _ => formatOnly_pure _

end Document

end ViewGraph
