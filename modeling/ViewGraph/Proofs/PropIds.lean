import ViewGraph.Proofs.Agreement
import ViewGraph.Proofs.Emission
import ViewGraph.Proofs.Identity
import ViewGraph.Proofs.Tables
import ViewGraph.Report

/-!
# Ids of attributes

The id of an attribute is made of the id of its instance and its name, with a colon between them.  The two
parts identify the attribute.  The id does so only as long as no other colon gets in its way.

* `Straddles p q`: the id of the instance of `q` runs on into the name of `p`.
* `propId_eq_iff`: the ids of two attributes are the same if the parts are, or if one straddles the other.
* `attributeKeys root`: instance and name of every attribute below a root, in the order of the records.
* `propIds_exact`: no two attributes have the same id exactly if none straddles another, and exactly then
  the keyed form has all of them.
-/

namespace ViewGraph

open ViewGraph.Graph

/-! ### Joined names -/

/-- The id of the second instance goes on with a colon where that of the first one ends, and the name of
the first attribute goes on as that id does. -/
def Straddles (p q : String × String) : Prop :=
  ∃ mid, q.1 = p.1 ++ ":" ++ mid ∧ p.2 = mid ++ ":" ++ q.2

theorem toList_propId (i n : String) : (propId i n).toList = i.toList ++ ':' :: n.toList := by
  simp [propId, String.toList_append]

theorem eq_append_colon_iff {s t u : String} :
    s = t ++ ":" ++ u ↔ s.toList = t.toList ++ ':' :: u.toList := by
  rw [← String.toList_inj, ← toList_propId]
  rfl

theorem propId_eq_of_straddles {p q : String × String} (h : Straddles p q) :
    propId p.1 p.2 = propId q.1 q.2 := by
  obtain ⟨mid, hq, hp⟩ := h
  simp only [propId, hq, hp, String.append_assoc]

/-- Where two joined names are the same, one of them is cut before the other, or both at one place. -/
theorem append_cons_eq_append_cons {i j n m : List Char} (h : i ++ ':' :: n = j ++ ':' :: m) :
    (i = j ∧ n = m) ∨ ∃ mid, j = i ++ ':' :: mid ∧ n = mid ++ ':' :: m ∨
      i = j ++ ':' :: mid ∧ m = mid ++ ':' :: n := by
  have key : ∀ {i j n m as : List Char}, j = i ++ as → ':' :: n = as ++ ':' :: m →
      (i = j ∧ n = m) ∨ ∃ mid, j = i ++ ':' :: mid ∧ n = mid ++ ':' :: m := by
    intro i j n m as hj hn
    cases as with
    | nil => exact .inl ⟨by simpa using hj.symm, by simpa using hn⟩
    | cons c mid =>
      obtain ⟨rfl, htail⟩ := List.cons.inj hn
      exact .inr ⟨mid, hj, htail⟩
  rcases List.append_eq_append_iff.mp h with ⟨as, hj, hn⟩ | ⟨as, hi, hm⟩
  · rcases key hj hn with heq | ⟨mid, h⟩
    · exact .inl heq
    · exact .inr ⟨mid, .inl h⟩
  · rcases key hi hm with ⟨hij, hnm⟩ | ⟨mid, h⟩
    · exact .inl ⟨hij.symm, hnm.symm⟩
    · exact .inr ⟨mid, .inr h⟩

/-- **Collisions.** Two attributes have the same id if they are of one instance and have one name, or if
one straddles the other. -/
theorem propId_eq_iff {p q : String × String} :
    propId p.1 p.2 = propId q.1 q.2 ↔ p = q ∨ Straddles p q ∨ Straddles q p := by
  constructor
  · intro h
    rw [← String.toList_inj, toList_propId, toList_propId] at h
    rcases append_cons_eq_append_cons h with ⟨hid, hname⟩ | ⟨mid, ⟨hid, hname⟩ | ⟨hid, hname⟩⟩
    · exact .inl (Prod.ext (String.toList_inj.mp hid) (String.toList_inj.mp hname))
    · refine .inr (.inl ⟨String.ofList mid, ?_, ?_⟩)
      · rw [eq_append_colon_iff, String.toList_ofList, hid]
      · rw [eq_append_colon_iff, String.toList_ofList, hname]
    · refine .inr (.inr ⟨String.ofList mid, ?_, ?_⟩)
      · rw [eq_append_colon_iff, String.toList_ofList, hid]
      · rw [eq_append_colon_iff, String.toList_ofList, hname]
  · rintro (rfl | h | h)
    · rfl
    · exact propId_eq_of_straddles h
    · exact (propId_eq_of_straddles h).symm

theorem Straddles.colon_mem_id {p q : String × String} (h : Straddles p q) : ':' ∈ q.1.toList := by
  obtain ⟨mid, hq, -⟩ := h
  rw [eq_append_colon_iff.mp hq]
  simp

theorem Straddles.colon_mem_name {p q : String × String} (h : Straddles p q) : ':' ∈ p.2.toList := by
  obtain ⟨mid, -, hp⟩ := h
  rw [eq_append_colon_iff.mp hp]
  simp

theorem colon_not_mem_numeral (n : ℕ) : ':' ∉ (numeral n).toList := by
  intro h
  rw [numeral, String.toList_ofList, writeNat] at h
  have hdigit := Nat.isDigit_of_mem_toDigits (by omega) (by omega) h
  exact absurd hdigit (by decide)

/-! ### The attributes of a graph -/

/-- No element names an attribute twice, as no table does. -/
def Graph.NamesOnce (g : Graph) : Prop := ∀ h e, g.find? h = some e → (e.props.map (·.1)).Nodup

theorem Graph.namesOnce_of_forall {g : Graph}
    (h : ∀ e ∈ g.nodes.toList, (e.props.map (·.1)).Nodup) : g.NamesOnce :=
  fun _ e he => h e (Array.mem_toList_iff.mpr (Array.mem_of_getElem? he))

/-- The instance and the name of every attribute below a root, in the order of the records. -/
noncomputable def Graph.attributeKeys (g : Graph) (root : Value) : List (String × String) :=
  (g.firstVisits root).flatMap fun h => (g.plainAttributes h).map fun a => (g.idOf root h, a.1)

/-- The instance and the name of an attribute. -/
def PropRecord.key (p : PropRecord) : String × String := (p.instanceId, p.name)

variable {g : Graph} {root : Value} {f : DocumentFragment}

/-- The record of an attribute holds its instance and its name, and its id is made of both. -/
theorem key_of_createProp {i n : String} {v : Value} {p : PropRecord}
    (h : (createProp g.text (.str i) (.str n) v).outcome = .ok p) :
    p.id = propId p.instanceId p.name ∧ p.key = (i, n) := by
  rw [outcome_createProp] at h
  obtain ⟨⟨kind, content⟩, -, h⟩ := Logged.bind_eq_ok.mp h
  -- the fields are checked side by side, the last one outermost
  obtain ⟨ofContent, c, h1, -, rfl⟩ := Checked.seq_eq_valid.mp (ofChecked_eq_ok.mp h)
  obtain ⟨ofTag, tag, h2, -, rfl⟩ := Checked.seq_eq_valid.mp h1
  obtain ⟨ofName, name, h3, hname, rfl⟩ := Checked.seq_eq_valid.mp h2
  obtain ⟨ofInstance, instanceId, h4, hinstance, rfl⟩ := Checked.seq_eq_valid.mp h3
  obtain ⟨ofId, id, h5, hid, rfl⟩ := Checked.seq_eq_valid.mp h4
  obtain rfl := Checked.valid.inj h5
  obtain rfl := Checked.valid.inj hid
  obtain rfl := Checked.valid.inj hinstance
  obtain rfl := Checked.valid.inj hname
  exact ⟨rfl, rfl⟩

/-- The attributes of one element. -/
theorem keys_of_createProp {i : String} {l : List (String × Value)} {ps : List PropRecord}
    (hall : List.Forall₂ (fun a p => (createProp g.text (.str i) (.str a.1) a.2).outcome = .ok p) l ps) :
    (∀ p ∈ ps, p.id = propId p.instanceId p.name) ∧ ps.map PropRecord.key = l.map fun a => (i, a.1) := by
  induction hall with
  | nil => exact ⟨by simp, rfl⟩
  | cons hp _ ih =>
    obtain ⟨hid, hkey⟩ := key_of_createProp hp
    rw [List.map_cons, List.map_cons, hkey, ih.2]
    refine ⟨fun q hq => ?_, rfl⟩
    rcases List.mem_cons.mp hq with rfl | hq
    · exact hid
    · exact ih.1 q hq

/-- The attributes of all elements. -/
theorem keys_of_normalize (hac : g.Acyclic root) (hok : (normalize g root).outcome = .ok f) :
    (∀ p ∈ f.props, p.id = propId p.instanceId p.name) ∧
      f.props.map PropRecord.key = g.attributeKeys root := by
  obtain ⟨blocks, hall, rfl⟩ := contributes_of_normalize hac hok
  have hkeys := hall.imp fun h b hc => keys_of_createProp (mapM_eq_ok.mp hc.props)
  constructor
  · intro p hp
    obtain ⟨b, hb, hp⟩ := List.mem_flatMap.mp hp
    obtain ⟨h, -, hid, -⟩ := exists_of_mem_forall₂ hkeys hb
    exact hid p hp
  · show (blocks.flatMap (·.props)).map PropRecord.key = _
    rw [List.map_flatMap, attributeKeys]
    exact (flatMap_eq_of_forall₂ (hkeys.imp fun h b hk => hk.2.symm)).symm

/-- Instance and name identify an attribute. -/
theorem nodup_attributeKeys (hac : g.Acyclic root) (hnames : g.NamesOnce)
    (hok : (normalize g root).outcome = .ok f) : (g.attributeKeys root).Nodup := by
  unfold attributeKeys
  rw [List.nodup_flatMap]
  constructor
  · intro h hh
    obtain ⟨e, he, -⟩ := ((mem_firstVisits hac).mp hh).2
    have hat : g.attributesAt h = e.props := by simp [attributesAt, he]
    have hsub : ((g.plainAttributes h).map (·.1)).Sublist (e.props.map (·.1)) := by
      rw [plainAttributes, hat]
      exact List.filter_sublist.map _
    have hnd : ((g.plainAttributes h).map (·.1)).Nodup := (hnames h e he).sublist hsub
    have hsplit : ((g.plainAttributes h).map fun a => (g.idOf root h, a.1)) =
        ((g.plainAttributes h).map (·.1)).map (Prod.mk (g.idOf root h)) := by
      rw [List.map_map]
      rfl
    rw [hsplit]
    exact hnd.map (Prod.mk_right_injective _)
  · have hdistinct := distinctIds_of_normalize hac hok
    refine (nodup_firstVisits root).imp_of_mem fun {h k} hh hk hne => ?_
    intro key hkey hkey'
    obtain ⟨a, -, rfl⟩ := List.mem_map.mp hkey
    obtain ⟨b, -, heq⟩ := List.mem_map.mp hkey'
    exact hne (hdistinct h hh k hk (Prod.mk.inj heq).1.symm)

/-- A colon in the id of an element is one that the element asks for. -/
theorem exists_wantedId?_of_colon {h : Handle} (hcolon : ':' ∈ (g.idOf root h).toList) :
    ∃ id, g.wantedId? h = some id ∧ ':' ∈ id.toList := by
  cases hw : g.wantedId? h with
  | some id =>
    rw [idOf_of_wantedId? hw] at hcolon
    exact ⟨id, rfl, hcolon⟩
  | none =>
    rw [idOf, Allocator.idIn, hw] at hcolon
    exact absurd hcolon (colon_not_mem_numeral _)

theorem exists_of_mem_keys {key : String × String} (hkey : key ∈ g.attributeKeys root) :
    ∃ h ∈ g.firstVisits root, key.1 = g.idOf root h ∧ ∃ a ∈ g.plainAttributes h, key.2 = a.1 := by
  obtain ⟨h, hh, hmem⟩ := List.mem_flatMap.mp hkey
  obtain ⟨a, ha, rfl⟩ := List.mem_map.mp hmem
  exact ⟨h, hh, rfl, a, ha, rfl⟩

/-! ### Distinct ids -/

theorem nodup_propIds_iff {ps : List PropRecord} (hid : ∀ p ∈ ps, p.id = propId p.instanceId p.name)
    (hkeys : (ps.map PropRecord.key).Nodup) :
    (ps.map (·.id)).Nodup ↔ ∀ p ∈ ps, ∀ q ∈ ps, ¬ Straddles p.key q.key := by
  have hsame : ∀ p ∈ ps, ∀ q ∈ ps, p.id = q.id ↔ propId p.key.1 p.key.2 = propId q.key.1 q.key.2 := by
    intro p hp q hq
    rw [hid p hp, hid q hq]
    rfl
  constructor
  · intro hnd p hp q hq hstr
    have heq : p.id = q.id := (hsame p hp q hq).mpr (propId_eq_of_straddles hstr)
    obtain rfl := List.inj_on_of_nodup_map hnd hp hq heq
    -- no text goes on with a colon where it ends
    obtain ⟨mid, hmid, -⟩ := hstr
    have hlen := congrArg List.length (eq_append_colon_iff.mp hmid)
    simp at hlen
  · intro hnone
    refine List.Nodup.map_on (fun p hp q hq heq => ?_) hkeys.of_map
    rcases propId_eq_iff.mp ((hsame p hp q hq).mp heq) with hkey | hstr | hstr
    · exact List.inj_on_of_nodup_map hkeys hp hq hkey
    · exact absurd hstr (hnone p hp q hq)
    · exact absurd hstr (hnone q hq p hp)

/-- **Ids of attributes.** Each id is made of the instance and the name of its attribute, and no two
attributes have both in common.  Exactly if none of them straddles another one, no two have the same id,
and exactly then the keyed form has them all, each under its id.  None does if no id that an element asks
for has a colon, or if no name of an attribute has one. -/
theorem propIds_exact (hac : g.Acyclic root) (hnames : g.NamesOnce)
    (hok : (normalize g root).outcome = .ok f) :
    (∀ p ∈ f.props, p.id = propId p.instanceId p.name) ∧ (f.props.map PropRecord.key).Nodup ∧
    ((f.props.map (·.id)).Nodup ↔ ∀ p ∈ f.props, ∀ q ∈ f.props, ¬ Straddles p.key q.key) ∧
    ((Maps.ofFragment f).props.length = f.props.length ↔ (f.props.map (·.id)).Nodup) ∧
    ((f.props.map (·.id)).Nodup → (Maps.ofFragment f).props = f.props.map fun p => (p.id, p)) ∧
    ((∀ h id, g.HasInstance root h → g.wantedId? h = some id → ':' ∉ id.toList) →
      (f.props.map (·.id)).Nodup) ∧
    ((∀ h, g.HasInstance root h → ∀ a ∈ g.plainAttributes h, ':' ∉ a.1.toList) →
      (f.props.map (·.id)).Nodup) := by
  obtain ⟨hid, hkeys⟩ := keys_of_normalize hac hok
  have hnd : (f.props.map PropRecord.key).Nodup := hkeys ▸ nodup_attributeKeys hac hnames hok
  have hiff := nodup_propIds_iff hid hnd
  have hkey : ∀ p ∈ f.props, ∃ h, g.HasInstance root h ∧ p.key.1 = g.idOf root h ∧
      ∃ a ∈ g.plainAttributes h, p.key.2 = a.1 := by
    intro p hp
    have hmem : p.key ∈ g.attributeKeys root := hkeys ▸ List.mem_map_of_mem hp
    obtain ⟨h, hh, hinstance, hname⟩ := exists_of_mem_keys hmem
    exact ⟨h, (mem_firstVisits hac).mp hh, hinstance, hname⟩
  have hentries : (f.props.map fun p => (p.id, p)).map (·.1) = f.props.map (·.id) := by
    rw [List.map_map]
    rfl
  refine ⟨hid, hnd, hiff, ?_, fun hids => ?_, fun hfree => ?_, fun hfree => ?_⟩
  · have hlen := Table.length_ofList_eq_iff (f.props.map fun p => (p.id, p))
    rw [hentries, List.length_map] at hlen
    exact hlen
  · exact Table.ofList_of_nodup (hentries ▸ hids)
  · refine hiff.mpr fun p hp q hq hstr => ?_
    obtain ⟨h, hh, hinstance, -⟩ := hkey q hq
    obtain ⟨id, hw, hcolon⟩ := exists_wantedId?_of_colon (hinstance ▸ hstr.colon_mem_id)
    exact hfree h id hh hw hcolon
  · refine hiff.mpr fun p hp q hq hstr => ?_
    obtain ⟨h, hh, -, a, ha, hname⟩ := hkey p hp
    exact hfree h hh a ha (hname ▸ hstr.colon_mem_name)

theorem propIds_exact_sharedGraph : ∃ f, sharedGraph.Acyclic sharedRoot ∧ sharedGraph.NamesOnce ∧
    (normalize sharedGraph sharedRoot).outcome = .ok f ∧ f.equals sharedRecords = true ∧
      (Maps.ofFragment f).props = f.props.map fun p => (p.id, p) := by
  obtain ⟨f, hok, hsame⟩ := normalize_sharedGraph
  have hnames : sharedGraph.NamesOnce := by
    have hall : ∀ e ∈ sharedGraph.nodes.toList, (e.props.map (·.1)).Nodup := by decide
    exact fun h e he => hall e (Array.mem_toList_iff.mpr (Array.mem_of_getElem? he))
  obtain ⟨-, -, -, -, hmaps, -, hnames'⟩ := propIds_exact acyclic_sharedGraph hnames hok
  have hplain : ∀ e ∈ sharedGraph.nodes.toList,
      ∀ a ∈ e.props, !isReserved a.1 && a.1 ≠ Element.styleAttribute → ':' ∉ a.1.toList := by decide
  refine ⟨f, acyclic_sharedGraph, hnames, hok, hsame, hmaps (hnames' fun h hh a ha => ?_)⟩
  obtain ⟨e, he, -⟩ := hh.2
  obtain ⟨hmem, hname⟩ := List.mem_filter.mp ha
  have hat : sharedGraph.attributesAt h = e.props := by simp [attributesAt, he]
  exact hplain e (Array.mem_toList_iff.mpr (Array.mem_of_getElem? he)) a (hat ▸ hmem) hname

/-! ### A collision -/

/-- A box asks for the id `a` and has an attribute `b:c`, and a text asks for the id `a:b` and has an
attribute `c`. -/
def straddlingGraph : Graph := ⟨#[
  ⟨.str "Box", [("ws:id", .str "a"), ("b:c", .int 1)], []⟩,
  ⟨.str "Text", [("ws:id", .str "a:b"), ("c", .int 2)], []⟩,
  ⟨.fragment, [], [.element ⟨0⟩, .element ⟨1⟩]⟩]⟩

/-- Attributes of two instances may have the same id, and then the keyed form has lost one of them. -/
theorem not_nodup_propIds : ¬ ∀ (g : Graph) (root : Value) (f : DocumentFragment), g.Acyclic root →
    g.NamesOnce → (normalize g root).outcome = .ok f →
      (f.props.map (·.id)).Nodup ∧ (Maps.ofFragment f).props.length = f.props.length := by
  intro h
  have hac : straddlingGraph.Acyclic (.element ⟨2⟩) := acyclic_of_index_lt (by decide) _
  have hnames : straddlingGraph.NamesOnce := by
    have hall : ∀ e ∈ straddlingGraph.nodes.toList, (e.props.map (·.1)).Nodup := by decide
    exact fun h e he => hall e (Array.mem_toList_iff.mpr (Array.mem_of_getElem? he))
  have hids : (normalize straddlingGraph (.element ⟨2⟩)).outcome.toOption.map
      (fun f => f.props.map (·.id)) = some ["a:b:c", "a:b:c"] := by
    decide +kernel
  cases hok : (normalize straddlingGraph (.element ⟨2⟩)).outcome with
  | error e => simp [hok, Except.toOption] at hids
  | ok f =>
    simp only [hok, Except.toOption, Option.map_some, Option.some.injEq] at hids
    have hnd := (h _ _ f hac hnames hok).1
    rw [hids] at hnd
    exact absurd hnd (by decide)

end ViewGraph
