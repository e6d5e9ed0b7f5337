import ViewGraph.Proofs.Declarations
import ViewGraph.Proofs.Emission
import ViewGraph.Proofs.Identity
import ViewGraph.Proofs.Tables
import ViewGraph.Report

/-!
# Records by their ids

The records of a template are written as lists, or keyed by their ids. Both ways of writing show the same
instances.

* `KeepsLast key records t`: of the records with one key the table keeps the last, at the place of the first.
* `DocumentFragment.HasData`: all attributes and style declarations of some records have data.
* `ShowsInstances f maps data`: the keyed form and the data of `f` show its instances, each once.
* `keepsLast_ofList`: what is kept of records that are keyed, whatever their keys.
* `exists_dumpFragment_iff`: records have data exactly if their attributes and style declarations have.
* `instances_projected`: the records of a graph show the same instances in both forms.
-/

namespace ViewGraph

open ViewGraph.Graph

/-! ### Definitions -/

/-- What a name stands for in data. -/
def Value.member? (name : String) : Value → Option Value
  | .dict members => Table.find? name members
  | _ => none

/-- Of the records with one key a table keeps the last one, at the place of the first. -/
structure KeepsLast {α : Type} (key : α → String) (records : List α) (t : List (String × α)) : Prop where
  names : t.map (·.1) = (records.map key).eraseDups
  last : ∀ name, Table.find? name t = (records.filter fun r => key r = name).getLast?

/-- The attributes and the style declarations of some records have data. The marker of fragments is no data, nor is
an element that contains itself. -/
structure DocumentFragment.HasData (g : Graph) (f : DocumentFragment) : Prop where
  props : ∀ p ∈ f.props, ∃ v, dumpContent g false p.content = .ok v
  styles : ∀ s ∈ f.styles, ∃ v, g.plain false s.value = .ok v

/-- The keyed form and the data of some records show the same instances: the data have the list of them, and in the
keyed form the very same data stand in the same order, each under the id that they give. -/
structure ShowsInstances (f : DocumentFragment) (maps data : Value) : Prop where
  listed : data.member? "instances" = some (.list (f.instances.map (dumpInstance {})))
  keyed : maps.member? "instances" = some (.dict (f.instances.map fun i => (i.id, dumpInstance {} i)))
  ids : ∀ i ∈ f.instances, (dumpInstance {} i).member? "id" = some (.str i.id)
  once : (f.instances.map (·.id)).Nodup

/-! ### Keyed records -/

/-- One more record takes the place of the one with its key, or goes last. -/
theorem KeepsLast.insert {α : Type} {key : α → String} {records : List α} {t : List (String × α)}
    (h : KeepsLast key records t) (r : α) : KeepsLast key (records ++ [r]) (Table.insert (key r) r t) where
  names := by
    rw [Table.names_insert, h.names, List.map_append, List.map_singleton, Allocator.eraseDups_concat]
    simp only [List.mem_eraseDups]
  last name := by
    rw [List.filter_append, List.getLast?_append]
    by_cases hname : key r = name
    · subst hname
      simp [Table.find?_insert_self]
    · rw [Table.find?_insert_of_ne (Ne.symm hname), h.last name]
      simp [hname]

/-- Of records that are put in a table one after the other, the last one with each key is kept, at the place of
the first. -/
theorem keepsLast_ofList {α : Type} (key : α → String) (records : List α) :
    KeepsLast key records (Table.ofList (records.map fun r => (key r, r))) := by
  induction records using List.reverseRecOn with
  | nil => exact ⟨rfl, fun _ => rfl⟩
  | append_singleton records r ih =>
    rw [List.map_append, List.map_singleton, Table.ofList_concat]
    exact ih.insert r

/-! ### Data -/

variable {g : Graph} {root : Value} {f : DocumentFragment}

theorem exists_bind_pure_iff {ε α β : Type} {x : Except ε α} {F : α → β} :
    (∃ b, (do return F (← x)) = Except.ok b) ↔ ∃ a, x = .ok a := by
  cases x <;> simp [bind, Except.bind, pure, Except.pure]

/-- A list of computations can succeed exactly if each of them can. -/
theorem exists_mapM_eq_ok_iff {α β ε : Type} {F : α → Except ε β} {l : List α} :
    (∃ bs, l.mapM F = .ok bs) ↔ ∀ a ∈ l, ∃ b, F a = .ok b := by
  refine ⟨fun ⟨bs, hbs⟩ a ha => ?_, exists_mapM_eq_ok⟩
  obtain ⟨b, -, hb⟩ := exists_of_mem_forall₂ (mapM_eq_ok.mp hbs).flip ha
  exact ⟨b, hb⟩

/-- An attribute has data exactly if its content has. -/
theorem exists_dumpProp_iff {p : PropRecord} :
    (∃ v, dumpProp g {} p = .ok v) ↔ ∃ v, dumpContent g false p.content = .ok v :=
  exists_bind_pure_iff

/-- A style declaration has data exactly if its value has. -/
theorem exists_dumpStyleDecl_iff {s : StyleDecl} :
    (∃ v, dumpStyleDecl g {} s = .ok v) ↔ ∃ v, g.plain false s.value = .ok v :=
  exists_bind_pure_iff

/-- Records that are keyed have data exactly if the attributes among them have. -/
theorem Maps.exists_dump_iff {m : Maps} :
    (∃ v, m.dump g = .ok v) ↔ ∀ a ∈ m.props, ∃ v, dumpContent g false a.2.content = .ok v := by
  unfold Maps.dump
  rw [exists_bind_pure_iff, exists_mapM_eq_ok_iff]
  exact forall₂_congr fun a _ => exists_bind_pure_iff.trans exists_dumpProp_iff

section Listed

variable (hassets : f.assets = []) (hdataSources : f.dataSources = []) (hresources : f.resources = [])

include hassets hdataSources hresources

/-- What a fragment without assets, data sources and resources has as its data. -/
theorem dumpFragment_eq_ok {data : Value} (h : dumpFragment g {} f = .ok data) :
    f.HasData g ∧ data.member? "instances" = some (.list (f.instances.map (dumpInstance {}))) := by
  unfold dumpFragment at h
  obtain ⟨props, hprops, h⟩ := Logged.bind_eq_ok.mp h
  obtain ⟨styles, hstyles, h⟩ := Logged.bind_eq_ok.mp h
  rw [hassets, hdataSources, hresources] at h
  obtain rfl := Except.ok.inj h
  exact ⟨⟨fun p hp => exists_dumpProp_iff.mp (exists_mapM_eq_ok_iff.mp ⟨props, hprops⟩ p hp),
    fun s hs => exists_dumpStyleDecl_iff.mp (exists_mapM_eq_ok_iff.mp ⟨styles, hstyles⟩ s hs)⟩, rfl⟩

theorem exists_dumpFragment (h : f.HasData g) : ∃ data, dumpFragment g {} f = .ok data := by
  obtain ⟨props, hprops⟩ := exists_mapM_eq_ok_iff.mpr fun p hp => exists_dumpProp_iff.mpr (h.props p hp)
  obtain ⟨styles, hstyles⟩ := exists_mapM_eq_ok_iff.mpr fun s hs => exists_dumpStyleDecl_iff.mpr (h.styles s hs)
  unfold dumpFragment
  rw [hassets, hdataSources, hresources, hprops, hstyles]
  exact ⟨_, rfl⟩

end Listed

/-- What keyed records have as their data. -/
theorem Maps.dump_eq_ok {m : Maps} {maps : Value} (h : m.dump g = .ok maps) :
    maps.member? "instances" = some (.dict (m.instances.map fun (id, i) => (id, dumpInstance {} i))) := by
  obtain ⟨props, -, h⟩ := Logged.bind_eq_ok.mp h
  obtain rfl := Except.ok.inj h
  rfl

/-- The records of a document have data. -/
theorem hasData_of_loadInto {doc : Value} {g₀ : Graph} (hdoc : doc.isDocument = true)
    (hload : Document.loadInto g₀ doc = .ok (g, root)) (hok : (normalize g root).outcome = .ok f) :
    f.HasData g := by
  obtain ⟨t, -, ht, hplant⟩ := exists_sound_of_loadInto hdoc hload
  exact
    { props := fun p hp => ⟨_, dumpContent_eq (isData_of_mem_props ht hplant hok hp)⟩
      styles := fun s hs => ⟨_, Value.plain_of_isJson _ s.value (isJson_of_mem_styles ht hplant hok hs)⟩ }

theorem member?_dumpInstance (i : Instance) : (dumpInstance {} i).member? "id" = some (.str i.id) :=
  rfl

/-! ### The whole -/

/-- Instances of distinct ids are kept as they are. -/
theorem Maps.instances_ofFragment (hnd : (f.instances.map (·.id)).Nodup) :
    (Maps.ofFragment f).instances = f.instances.map fun i => (i.id, i) :=
  Table.ofList_of_nodup (by rwa [List.map_map])

/-- **Projection.** The records of a graph have data exactly if their attributes and style declarations have, and
those of a document always do. Then they have data in the keyed form too, and both show the same instances, each
once and under its id. Of records with one id, wherever they come from, the last is kept at the place of the
first. -/
theorem instances_projected (hac : g.Acyclic root) (hok : (normalize g root).outcome = .ok f) :
    ((∃ data, dumpFragment g {} f = .ok data) ↔ f.HasData g) ∧
    (∀ g₀ doc, doc.isDocument = true → Document.loadInto g₀ doc = .ok (g, root) → f.HasData g) ∧
    (f.HasData g → ∃ maps data, (Maps.ofFragment f).dump g = .ok maps ∧ dumpFragment g {} f = .ok data ∧
      ShowsInstances f maps data) ∧
    ∀ records : DocumentFragment,
      KeepsLast (·.id) records.instances (Maps.ofFragment records).instances ∧
        KeepsLast (·.id) records.props (Maps.ofFragment records).props := by
  have hnd := nodup_instance_ids hac hok
  obtain ⟨hassets, hdataSources, hresources⟩ : f.assets = [] ∧ f.dataSources = [] ∧ f.resources = [] := by
    obtain ⟨blocks, -, rfl⟩ := normalize_eq_ok hac hok
    exact ⟨rfl, rfl, rfl⟩
  refine ⟨⟨fun ⟨data, hdata⟩ => (dumpFragment_eq_ok hassets hdataSources hresources hdata).1,
    exists_dumpFragment hassets hdataSources hresources⟩, fun g₀ doc hdoc hload =>
    hasData_of_loadInto hdoc hload hok, fun hhas => ?_, fun records =>
    ⟨keepsLast_ofList _ _, keepsLast_ofList _ _⟩⟩
  obtain ⟨data, hdata⟩ := exists_dumpFragment hassets hdataSources hresources hhas
  obtain ⟨maps, hmaps⟩ := Maps.exists_dump_iff.mpr fun a (ha : a ∈ (Maps.ofFragment f).props) => by
    obtain ⟨p, hp, rfl⟩ := List.mem_map.mp (Table.mem_of_mem_ofList ha)
    exact hhas.props p hp
  refine ⟨maps, data, hmaps, hdata, ?_⟩
  exact
    { listed := (dumpFragment_eq_ok hassets hdataSources hresources hdata).2
      keyed := by
        rw [Maps.dump_eq_ok hmaps, Maps.instances_ofFragment hnd, List.map_map]
        rfl
      ids := fun i _ => member?_dumpInstance i
      once := hnd }

theorem instances_projected_sharedGraph : ∃ f maps data, sharedGraph.Acyclic sharedRoot ∧
    (normalize sharedGraph sharedRoot).outcome = .ok f ∧ f.equals sharedRecords = true ∧
      (Maps.ofFragment f).dump sharedGraph = .ok maps ∧ dumpFragment sharedGraph {} f = .ok data ∧
        ShowsInstances f maps data := by
  have hsame : (normalize sharedGraph sharedRoot).outcome.toOption.any (fun f =>
      f.equals sharedRecords && (dumpFragment sharedGraph {} f).toOption.isSome) = true := by decide +kernel
  cases hok : (normalize sharedGraph sharedRoot).outcome with
  | error e => simp [hok, Except.toOption] at hsame
  | ok f =>
    obtain ⟨hrecords, hsome⟩ : f.equals sharedRecords = true ∧
        (dumpFragment sharedGraph {} f).toOption.isSome = true := by
      simpa [hok, Except.toOption] using hsame
    obtain ⟨hiff, -, hdumps, -⟩ := instances_projected acyclic_sharedGraph hok
    have hhas : f.HasData sharedGraph := by
      refine hiff.mp ?_
      cases hdata : dumpFragment sharedGraph {} f with
      | error e => simp [hdata, Except.toOption] at hsome
      | ok data => exact ⟨data, rfl⟩
    obtain ⟨maps, data, hmaps, hdata, hshows⟩ := hdumps hhas
    exact ⟨f, maps, data, acyclic_sharedGraph, rfl, hrecords, hmaps, hdata, hshows⟩

/-! ### Records without data -/

/-- A box with a fragment as an attribute. -/
def iconGraph : Graph := ⟨#[⟨.fragment, [], []⟩, ⟨.str "Box", [("icon", .element ⟨0⟩)], []⟩]⟩

/-- Records need not have data. -/
theorem not_projected_of_fragment : ¬ ∀ (g : Graph) (root : Value) (f : DocumentFragment), g.Acyclic root →
    (normalize g root).outcome = .ok f → ∃ maps data, (Maps.ofFragment f).dump g = .ok maps ∧
      dumpFragment g {} f = .ok data ∧ ShowsInstances f maps data := by
  intro h
  have hac : iconGraph.Acyclic (.element ⟨1⟩) := acyclic_of_index_lt (by decide) _
  have hnone : (normalize iconGraph (.element ⟨1⟩)).outcome.toOption.any
      (fun f => (dumpFragment iconGraph {} f).toOption.isNone) = true := by decide +kernel
  cases hok : (normalize iconGraph (.element ⟨1⟩)).outcome with
  | error e => simp [hok, Except.toOption] at hnone
  | ok f =>
    obtain ⟨-, data, -, hdata, -⟩ := h _ _ f hac hok
    simp [hok, hdata, Except.toOption] at hnone

end ViewGraph
