import Mathlib.Data.List.Flatten
import Mathlib.Data.List.Pairwise
import Mathlib.Data.List.Perm.Subperm
import ViewGraph.Graph.Claim
import ViewGraph.Normalization.Reference
import ViewGraph.Proofs.FirstVisit

/-!
# The collection of claims

The claims are collected by a loop over the nodes that are still to do.

* `wantedId?`: the id that an element asks for, if it has a text.
* `IdsShown l`: the ids of some elements have texts.
* `noteAll`: notes the claims of some elements, one after the other.
* `Sweeps seen vs new`: the loop does away with `vs` in front of whatever else is to do, and meanwhile
  visits the elements `new`.
* `claims_eq_noteAll`: the loop notes the claims of the elements in the order of their first visits.  Its
  fuel is enough because each child is taken from the list once.
* `idsShown_of_noteAll`, `wantedId?_inj_of_noteAll`: if no claim is refused, the ids have texts and no two
  elements want the same one.
-/

namespace ViewGraph

theorem Table.insert_of_find?_none {κ α : Type} [DecidableEq κ] {name : κ} {t : List (κ × α)}
    (h : find? name t = none) (a : α) : insert name a t = t ++ [(name, a)] := by
  induction t with
  | nil => rfl
  | cons entry rest ih =>
    obtain ⟨key, old⟩ := entry
    rw [find?_cons] at h
    split_ifs at h with hk
    have hk' : key ≠ name := fun e => hk e.symm
    simp [insert, hk', ih h]

theorem Table.find?_eq_none_iff {κ α : Type} [DecidableEq κ] {name : κ} {t : List (κ × α)} :
    find? name t = none ↔ name ∉ t.map (·.1) := by
  induction t with
  | nil => simp [find?]
  | cons entry rest ih =>
    obtain ⟨key, old⟩ := entry
    by_cases hk : name = key <;> simp [find?_cons, hk, ih]

theorem Table.mem_of_find? {κ α : Type} [DecidableEq κ] {name : κ} {a : α} {t : List (κ × α)}
    (h : find? name t = some a) : (name, a) ∈ t := by
  induction t with
  | nil => simp [find?] at h
  | cons entry rest ih =>
    obtain ⟨key, old⟩ := entry
    rw [find?_cons] at h
    split_ifs at h with hk
    · simp_all
    · exact List.mem_cons_of_mem _ (ih h)

namespace Graph

open Relation

variable {g : Graph}

/-! ### Definitions -/

variable (g) in
/-- The id that the element at a handle asks for, if it has a text. -/
def wantedId? (h : Handle) : Option String :=
  match g.askedId? h with
  | .ok id? => id?
  | .error _ => none

variable (g) in
/-- The ids that some elements ask for have texts. -/
def IdsShown (l : List Handle) : Prop := ∀ h ∈ l, g.askedId? h = .ok (g.wantedId? h)

variable (g) in
/-- Notes the claim of the element at a handle. -/
def noteWanted (claims : List (String × Handle)) (h : Handle) :
    Except ClaimError (List (String × Handle)) :=
  match g.askedId? h with
  | .ok id? => noteId claims h id?
  | .error _ => .error .tooManyDigits

variable (g) in
/-- Notes the claims of some elements, one after the other. -/
def noteAll (claims : List (String × Handle)) (l : List Handle) :
    Except ClaimError (List (String × Handle)) :=
  l.foldlM g.noteWanted claims

variable (g) in
/-- The children of the element at a handle. -/
def childrenAt (h : Handle) : List Value :=
  match g.find? h with
  | some e => e.children
  | none => []

theorem wantedId?_of_askedId? {h : Handle} {id? : Option String} (ha : g.askedId? h = .ok id?) :
    g.wantedId? h = id? := by
  simp [wantedId?, ha]

theorem noteClaim_fragment {claims : List (String × Handle)} {h : Handle} {e : Element}
    (hf : e.isFragment = true) : g.noteClaim claims h e = .ok claims := by
  simp [noteClaim, noteId, claim?, hf]

theorem noteClaim_concrete {claims : List (String × Handle)} {h : Handle} {e : Element}
    (he : g.find? h = some e) (hf : e.isFragment = false) :
    g.noteClaim claims h e = g.noteWanted claims h := by
  have hclaim : g.claim? e = g.askedId? h := by simp [claim?, askedId?, hf, he]
  cases ha : g.askedId? h <;> simp only [noteClaim, noteWanted, hclaim, ha]

theorem childrenAt_of_find? {h : Handle} {e : Element} (he : g.find? h = some e) :
    g.childrenAt h = e.children := by
  simp [childrenAt, he]

/-! ### Equations of the loop -/

theorem claimsFrom_nil (fuel : ℕ) (seen : List Handle) (claims : List (String × Handle)) :
    g.claimsFrom fuel seen claims [] = .ok claims := by
  cases fuel <;> rfl

/-- A node that is no element, or was visited, is passed over. -/
theorem claimsFrom_skip {seen : List Handle} {v : Value}
    (hv : ∀ k, v = .element k → k ∈ seen ∨ g.find? k = none) (fuel : ℕ)
    (claims : List (String × Handle)) (rest : List Value) :
    g.claimsFrom (fuel + 1) seen claims (v :: rest) = g.claimsFrom fuel seen claims rest := by
  cases v with
  | element k =>
    by_cases hk : k ∈ seen
    · simp [claimsFrom, hk]
    · have hnone := (hv k rfl).resolve_left hk
      simp [claimsFrom, hk, hnone]
  | _ => simp [claimsFrom]

theorem claimsFrom_enter {seen : List Handle} {h : Handle} {e : Element} (hh : h ∉ seen)
    (he : g.find? h = some e) (fuel : ℕ) (claims : List (String × Handle)) (rest : List Value) :
    g.claimsFrom (fuel + 1) seen claims (.element h :: rest) =
      g.noteClaim claims h e >>= fun claims =>
        g.claimsFrom fuel (h :: seen) claims (e.children ++ rest) := by
  simp [claimsFrom, hh, he]

/-! ### What the loop does -/

variable (g) in
/-- The loop does away with some values in front of whatever else is to do, and meanwhile visits the
elements `new`, the last one first, and notes the claims of those that the walk meets. -/
structure Sweeps (seen : List Handle) (vs : List Value) (new : List Handle) : Prop where
  nodup : seen.Nodup → (new ++ seen).Nodup
  reaches : ∀ h ∈ new, g.ReachesFrom vs h
  covers : g.listing vs ⊆ new ++ seen
  run : ∀ fuel claims rest,
    g.claimsFrom (fuel + (vs.length + (new.flatMap g.childrenAt).length)) seen claims (vs ++ rest) =
      g.noteAll claims (fresh seen (g.listing vs)) >>= fun claims =>
        g.claimsFrom fuel (new ++ seen) claims rest

theorem noteAll_nil (claims : List (String × Handle)) : g.noteAll claims [] = .ok claims := rfl

theorem noteAll_cons (claims : List (String × Handle)) (h : Handle) (l : List Handle) :
    g.noteAll claims (h :: l) = g.noteWanted claims h >>= fun claims => g.noteAll claims l :=
  List.foldlM_cons

theorem noteAll_append (claims : List (String × Handle)) (l l' : List Handle) :
    g.noteAll claims (l ++ l') = g.noteAll claims l >>= fun claims => g.noteAll claims l' := by
  simp [noteAll, List.foldlM_append]

theorem Sweeps.nil (seen : List Handle) : g.Sweeps seen [] [] where
  nodup := id
  reaches := by simp
  covers := by simp
  run := by simp [noteAll]

theorem Sweeps.skip {seen : List Handle} {v : Value}
    (hv : ∀ k, v = .element k → k ∈ seen ∨ g.find? k = none) (hl : g.listing [v] ⊆ seen) :
    g.Sweeps seen [v] [] where
  nodup := id
  reaches := by simp
  covers := hl
  run := by
    intro fuel claims rest
    have := claimsFrom_skip hv fuel claims rest
    simpa [noteAll, fresh_of_subset hl] using this

theorem Sweeps.cons {seen new new' : List Handle} {v : Value} {vs : List Value}
    (hg : g.Grounded [v]) (h : g.Sweeps seen [v] new) (h' : g.Sweeps (new ++ seen) vs new')
    (hvs : g.Grounded vs) : g.Sweeps seen (v :: vs) (new' ++ new) where
  nodup := fun hnd => by
    rw [List.append_assoc]
    exact h'.nodup (h.nodup hnd)
  reaches := by
    intro k hk
    rcases List.mem_append.mp hk with hk | hk
    · exact (h'.reaches k hk).mono (List.subset_cons_self v vs)
    · exact (h.reaches k hk).mono (by simp)
  covers := by
    rw [listing_cons, List.append_assoc]
    refine List.append_subset.mpr ⟨?_, h'.covers⟩
    exact List.Subset.trans h.covers (List.subset_append_right _ _)
  run := by
    intro fuel claims rest
    -- what the walk meets below `v` is what the loop visited there, fragments apart
    have hsame : fresh (new ++ seen) (g.listing vs) =
        fresh (seen ++ fresh seen (g.listing [v])) (g.listing vs) := by
      refine fresh_congr fun k hk => ?_
      have hc := ((mem_listing hvs).mp hk).2
      rw [List.mem_append, List.mem_append, mem_fresh]
      constructor
      · rintro (hkn | hks)
        · by_cases hks : k ∈ seen
          · exact .inl hks
          · exact .inr ⟨(mem_listing hg).mpr ⟨h.reaches k hkn, hc⟩, hks⟩
        · exact .inl hks
      · rintro (hks | ⟨hkv, -⟩)
        · exact .inr hks
        · exact List.mem_append.mp (h.covers hkv)
    have hfuel : fuel + ((v :: vs).length + ((new' ++ new).flatMap g.childrenAt).length) =
        fuel + (vs.length + (new'.flatMap g.childrenAt).length) +
          ([v].length + (new.flatMap g.childrenAt).length) := by
      simp [List.flatMap_append]
      omega
    have first := h.run (fuel + (vs.length + (new'.flatMap g.childrenAt).length)) claims (vs ++ rest)
    rw [hfuel, show v :: vs ++ rest = [v] ++ (vs ++ rest) from rfl, first, listing_cons v vs, fresh_append,
      noteAll_append, bind_assoc]
    congr 1
    funext claims
    rw [h'.run fuel claims rest, hsame, List.append_assoc]

/-- What is met below an element that is entered. -/
theorem noteAll_enter {seen : List Handle} {h : Handle} {e : Element} (hh : h ∉ seen)
    (he : g.find? h = some e) (hg : g.Grounded [.element h]) (claims : List (String × Handle)) :
    g.noteAll claims (fresh seen (g.listing [.element h])) =
      g.noteClaim claims h e >>= fun claims =>
        g.noteAll claims (fresh (h :: seen) (g.listing e.children)) := by
  have hr := roleOf_element he
  by_cases hf : e.isFragment
  · rw [if_pos hf] at hr
    have hsame : fresh (h :: seen) (g.listing e.children) = fresh seen (g.listing e.children) := by
      refine fresh_congr fun k hk => ?_
      obtain ⟨-, e', he', hf'⟩ := (mem_listing (hg.of_fragment hr)).mp hk
      have hne : k ≠ h := by
        rintro rfl
        rw [he] at he'
        simp_all
      simp [hne]
    rw [listing_fragment hg hr, noteClaim_fragment hf, hsame]
    rfl
  · rw [if_neg hf] at hr
    have hsame : fresh (h :: seen) (g.listing e.children) =
        fresh (seen ++ [h]) (g.listing e.children) :=
      fresh_congr fun k _ => by simp [or_comm]
    rw [listing_concrete hg hr, fresh_cons_of_not_mem hh, noteClaim_concrete he (by simpa using hf), hsame]
    rfl

theorem Sweeps.enter {seen new : List Handle} {h : Handle} {e : Element} (hh : h ∉ seen)
    (he : g.find? h = some e) (hg : g.Grounded [.element h])
    (hs : g.Sweeps (h :: seen) e.children new) : g.Sweeps seen [.element h] (new ++ [h]) where
  nodup := fun hnd => by
    rw [List.append_assoc]
    exact hs.nodup (List.nodup_cons.mpr ⟨hh, hnd⟩)
  reaches := by
    intro k hk
    rw [reachesFrom_element he]
    rcases List.mem_append.mp hk with hk | hk
    · exact .inr (hs.reaches k hk)
    · exact .inl (List.mem_singleton.mp hk)
  covers := by
    intro k hk
    obtain ⟨hr, hc⟩ := (mem_listing hg).mp hk
    rcases (reachesFrom_element he).mp hr with rfl | hr
    · simp
    · have := hs.covers ((mem_listing (hg.children (by simp) he)).mpr ⟨hr, hc⟩)
      simpa using this
  run := by
    intro fuel claims rest
    have hfuel : fuel + ([Value.element h].length + ((new ++ [h]).flatMap g.childrenAt).length) =
        fuel + (e.children.length + (new.flatMap g.childrenAt).length) + 1 := by
      simp [List.flatMap_append, childrenAt_of_find? he]
      omega
    rw [hfuel, show [Value.element h] ++ rest = .element h :: rest from rfl, claimsFrom_enter hh he,
      noteAll_enter hh he hg, bind_assoc]
    congr 1
    funext claims
    rw [hs.run fuel claims rest, List.append_assoc]
    rfl

/-- **Run.** The loop does away with any values below which all that was seen is settled. -/
theorem exists_sweeps {n : ℕ} {seen : List Handle} {vs : List Value} (hn : g.Nested n vs)
    (hg : g.Grounded vs) (hset : g.Settled seen vs) : ∃ new, g.Sweeps seen vs new := by
  induction n generalizing seen vs with
  | zero => exact hn.elim
  | succ n ih =>
    induction vs generalizing seen with
    | nil => exact ⟨[], Sweeps.nil seen⟩
    | cons v vs ihv =>
      have hv := hg.head
      obtain ⟨new, hnew⟩ : ∃ new, g.Sweeps seen [v] new := by
        by_cases hskip : ∀ k, v = .element k → k ∈ seen ∨ g.find? k = none
        · refine ⟨[], Sweeps.skip hskip fun k hk => ?_⟩
          obtain ⟨⟨r, hr, hsome, hpath⟩, hc⟩ := (mem_listing hv).mp hk
          obtain rfl : Value.element r = v := List.mem_singleton.mp hr
          rcases hskip r rfl with hseen | hnone
          · exact hset r ⟨r, by simp, hsome, .refl⟩ hseen hk
          · simp [hnone] at hsome
        · push Not at hskip
          obtain ⟨h, rfl, hh, hsome⟩ := hskip
          obtain ⟨e, he⟩ := Option.ne_none_iff_exists'.mp hsome
          obtain ⟨m, hm, hcs⟩ := hn.children (by simp) he
          obtain rfl : m = n := by omega
          have hset' : g.Settled (h :: seen) e.children :=
            hset.enter hg (List.mem_cons_self) he fun k => by simp
          obtain ⟨new, hnew⟩ := ih hcs (hv.children (by simp) he) hset'
          exact ⟨new ++ [h], hnew.enter hh he hv⟩
      have hset' : g.Settled (new ++ seen) vs := by
        refine hset.leave hv (List.subset_append_right _ _) (fun m hm => ?_) hnew.covers
        rcases List.mem_append.mp hm with hm | hm
        · exact .inr (hnew.reaches m hm)
        · exact .inl hm
      obtain ⟨new', hnew'⟩ := ihv (hn.subset (List.subset_cons_self v vs)) hg.tail hset'
      exact ⟨new' ++ new, Sweeps.cons hv hnew hnew' hg.tail⟩

/-! ### The fuel is enough -/

/-- No child of distinct elements is counted twice. -/
theorem length_childrenAt_le {l : List Handle} (hl : l.Nodup) (hs : ∀ h ∈ l, (g.find? h).isSome) :
    (l.flatMap g.childrenAt).length ≤ g.childCount := by
  have hsub : l ⊆ (List.range g.nodes.size).map Handle.mk := fun h hh =>
    List.mem_map.mpr ⟨h.index, List.mem_range.mpr (index_lt_of_find? (hs h hh)), rfl⟩
  have hall : ((List.range g.nodes.size).map Handle.mk).flatMap g.childrenAt =
      g.nodes.toList.flatMap (·.children) := by
    rw [List.flatMap_def, List.flatMap_def, List.map_map]
    congr 1
    refine List.ext_getElem (by simp) fun i hi hi' => ?_
    have hlt : i < g.nodes.size := by simpa using hi
    have hf : g.find? ⟨i⟩ = some g.nodes[i] := by simp [Graph.find?, hlt]
    simp [childrenAt_of_find? hf]
  obtain ⟨l', hperm, hsl⟩ := List.subperm_of_subset hl hsub
  rw [childCount, ← hall, ← (hperm.flatMap_right g.childrenAt).length_eq]
  exact (hsl.flatMap g.childrenAt).length_le

/-- **Claims.** The claims are noted in the order of the first visits. -/
theorem claims_eq_noteAll {root : Value} (hac : g.Acyclic root) :
    g.claims root = g.noteAll [] (g.firstVisits root) := by
  obtain ⟨new, hnew⟩ := exists_sweeps hac.grounded hac.grounded (settled_nil (g := g) [root])
  have hnd : new.Nodup := by simpa using hnew.nodup List.nodup_nil
  have hsome : ∀ h ∈ new, (g.find? h).isSome := by
    intro h hh
    obtain ⟨r, -, hs, hpath⟩ := hnew.reaches h hh
    rcases ReflTransGen.cases_tail hpath with rfl | ⟨_, -, _, -, -, hs'⟩
    · exact hs
    · exact hs'
  obtain ⟨d, hd⟩ := Nat.exists_eq_add_of_le (length_childrenAt_le hnd hsome)
  have hfuel : g.childCount + 1 = d + ([root].length + (new.flatMap g.childrenAt).length) := by
    rw [hd, List.length_singleton]
    omega
  have run := hnew.run d [] []
  rw [← hfuel, List.append_nil, fresh_nil_left] at run
  rw [claims, run, firstVisits]
  simp only [claimsFrom_nil]
  exact bind_pure _

/-! ### Distinct claims -/

variable (g) in
/-- What is noted once the claims of some elements are. -/
structure Noted (l : List Handle) (claims : List (String × Handle)) : Prop where
  shown : g.IdsShown l
  ids : claims.map (·.1) = l.filterMap g.wantedId?
  nodup : (l.filterMap g.wantedId?).Nodup
  owners : ∀ id h, (id, h) ∈ claims → h ∈ l

theorem Noted.note {l : List Handle} {claims claims' : List (String × Handle)}
    (hn : g.Noted l claims) {h : Handle} (hh : h ∉ l) (hok : g.noteWanted claims h = .ok claims') :
    g.Noted (l ++ [h]) claims' := by
  unfold noteWanted at hok
  obtain ⟨id?, ha⟩ : ∃ id?, g.askedId? h = .ok id? := by
    cases ha : g.askedId? h with
    | ok id? => exact ⟨id?, rfl⟩
    | error d => simp [ha] at hok
  have hw := wantedId?_of_askedId? ha
  have hshown : g.IdsShown (l ++ [h]) := fun k hk => by
    rcases List.mem_append.mp hk with hk | hk
    · exact hn.shown k hk
    · rw [List.mem_singleton.mp hk, ha, hw]
  simp only [ha] at hok
  cases id? with
  | none =>
    simp only [noteId, Except.ok.injEq] at hok
    subst hok
    have hsame : (l ++ [h]).filterMap g.wantedId? = l.filterMap g.wantedId? := by simp [hw]
    exact ⟨hshown, hsame ▸ hn.ids, hsame ▸ hn.nodup,
      fun id k hk => List.mem_append_left _ (hn.owners id k hk)⟩
  | some id =>
    have hmore : (l ++ [h]).filterMap g.wantedId? = l.filterMap g.wantedId? ++ [id] := by
      simp [hw]
    -- an owner of the id would be `h` itself, which was not met before
    have hfree : Table.find? id claims = none := by
      cases hf : Table.find? id claims with
      | none => rfl
      | some k =>
        have hk : k ≠ h := fun e => hh (e ▸ hn.owners id k (Table.mem_of_find? hf))
        simp [noteId, hf, hk] at hok
    simp only [noteId, hfree, Option.any_none, Bool.false_eq_true, if_false, Except.ok.injEq,
      Table.insert_of_find?_none hfree] at hok
    subst hok
    have hnew : id ∉ l.filterMap g.wantedId? := hn.ids ▸ Table.find?_eq_none_iff.mp hfree
    refine ⟨hshown, ?_, ?_, fun id' k hk => ?_⟩
    · rw [hmore, ← hn.ids]
      simp
    · rw [hmore]
      exact List.nodup_append_comm.mp (List.nodup_cons.mpr ⟨hnew, hn.nodup⟩)
    · rcases List.mem_append.mp hk with hk | hk
      · exact List.mem_append_left _ (hn.owners id' k hk)
      · simp_all

theorem noted_noteAll {l : List Handle} (hl : l.Nodup) {claims : List (String × Handle)}
    (hok : g.noteAll [] l = .ok claims) : g.Noted l claims := by
  induction l using List.reverseRecOn generalizing claims with
  | nil =>
    obtain rfl : [] = claims := by simpa [noteAll, pure, Except.pure] using hok
    exact ⟨by simp [IdsShown], rfl, by simp, by simp⟩
  | append_singleton l h ih =>
    obtain ⟨hh, hnd⟩ := List.nodup_cons.mp (List.nodup_append_comm.mp hl)
    rw [noteAll_append] at hok
    obtain ⟨prev, hprev, hlast⟩ := Logged.bind_eq_ok.mp hok
    exact (ih hnd hprev).note hh (by simpa [noteAll] using hlast)

/-- If no claim is refused, the ids have texts. -/
theorem idsShown_of_noteAll {l : List Handle} (hl : l.Nodup) {claims : List (String × Handle)}
    (hok : g.noteAll [] l = .ok claims) : g.IdsShown l :=
  (noted_noteAll hl hok).shown

/-- **Claims.** If no claim is refused, no two elements want the same id. -/
theorem wantedId?_inj_of_noteAll {l : List Handle} (hl : l.Nodup) {claims : List (String × Handle)}
    (hok : g.noteAll [] l = .ok claims) {k k' : Handle} (hk : k ∈ l) (hk' : k' ∈ l) {id : String}
    (hw : g.wantedId? k = some id) (hw' : g.wantedId? k' = some id) : k = k' := by
  have hpair := List.pairwise_filterMap.mp (noted_noteAll hl hok).nodup
  have : Std.Symm fun a b => ∀ i, g.wantedId? a = some i → ∀ j, g.wantedId? b = some j → i ≠ j :=
    ⟨fun a b hab i hi j hj => (hab j hj i hi).symm⟩
  by_contra hne
  exact hpair.forall hk hk' hne id hw id hw' rfl

end Graph

end ViewGraph
