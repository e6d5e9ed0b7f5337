import ViewGraph.Proofs.Duplicates

/-!
# Graphs that can be rendered

If whatever stands below a root can stand there, and the records of every element can be made, then only the
claims of ids can keep the root from being rendered: a clash, or an id without a text.

* `Logged.Quiet x`: `x` logs nothing that is more than a detail.
* `Supported vs`: nothing among some values or below them is passed over.
* `quiet_flatten`: then nothing is said about it.
* `Renderable root`: the root is supported, and the records of each element below it can be made.
* `Renderable.outcome`: then there are records, unless there is a fault of the claims.
-/

namespace ViewGraph

open ViewGraph.Graph

/-! ### Computations that log details only -/

namespace Logged

variable {ε α β σ : Type}

/-- Nothing is logged but details. -/
def Quiet (x : Logged ε α) : Prop := ∀ entry ∈ x.entries, entry.level = .debug

theorem quiet_pure (a : α) : (pure a : Logged ε α).Quiet := fun _ h => absurd h List.not_mem_nil

theorem quiet_ofExcept (r : Except ε α) : (ofExcept r).Quiet := fun _ h => absurd h List.not_mem_nil

theorem Quiet.bind {x : Logged ε α} {f : α → Logged ε β} (hx : x.Quiet) (hf : ∀ a, (f a).Quiet) :
    (x >>= f).Quiet := by
  unfold Quiet
  rw [entries_bind]
  split
  · rename_i a _
    intro entry h
    rcases List.mem_append.mp h with h | h
    · exact hx entry h
    · exact hf a entry h
  · exact hx

theorem quiet_collect {one : σ → α → Logged ε (List β × σ)} {l : List α}
    (hone : ∀ a ∈ l, ∀ s, (one s a).Quiet) (s : σ) : (collect one s l).Quiet := by
  induction l generalizing s with
  | nil => exact quiet_pure _
  | cons a l ih =>
    unfold collect
    refine (hone a (by simp) s).bind fun r => ?_
    exact (ih (fun b hb => hone b (List.mem_cons_of_mem _ hb)) r.2).bind fun r' => quiet_pure _

end Logged

open Logged

/-! ### Children that can stand where they stand -/

variable {g : Graph}

variable (g) in
/-- Whatever stands among some values, or among the children of an element at or below one of them, can
stand among children. -/
structure Graph.Supported (vs : List Value) : Prop where
  here : ∀ v ∈ vs, g.roleOf v ≠ .unsupported
  below : ∀ h e, g.ReachesFrom vs h → g.find? h = some e → ∀ v ∈ e.children, g.roleOf v ≠ .unsupported

theorem Graph.Supported.children {vs : List Value} (hs : g.Supported vs) {k : Handle} {e : Element}
    (hk : .element k ∈ vs) (he : g.find? k = some e) : g.Supported e.children where
  here := hs.below k e ⟨k, hk, by simp [he], .refl⟩ he
  below := fun h e' hh he' =>
    hs.below h e' (ReachesFrom.mono (by simpa using hk) ((reachesFrom_element he).mpr (.inr hh))) he'

/-! ### Parts of a normalization -/

theorem quiet_resolve (ids : Ids) (h : Handle) : (resolve g ids h).Quiet := by
  refine (quiet_ofExcept _).bind fun wanted => Quiet.bind ?_ fun _ => quiet_pure _
  intro entry hentry
  obtain ⟨n, -, rfl⟩ := List.mem_map.mp hentry
  rfl

/-- References are made without a word about what is no child. -/
theorem quiet_childRefs (n : ℕ) (inFragment : Bool) (ids : Ids) (vs : List Value) :
    (childRefs g n inFragment ids vs).Quiet := by
  induction n generalizing inFragment ids vs with
  | zero => exact quiet_pure _
  | succ n ih =>
    refine quiet_collect (fun v _ ids => ?_) ids
    unfold childRef
    split
    · split_ifs
      · exact quiet_pure _
      · exact (quiet_ofExcept _).bind fun child => quiet_pure _
    · exact ih true ids _
    · exact (quiet_resolve ids _).bind fun r => quiet_pure _
    · exact quiet_pure _

theorem quiet_createProp (text : Value → Shown String) (instanceId name v : Value) :
    (createProp text instanceId name v).Quiet := by
  refine (quiet_ofExcept _).bind fun owner => (quiet_ofExcept _).bind fun title => ?_
  refine (quiet_ofExcept _).bind fun content => ?_
  refine Quiet.bind ?_ fun _ => quiet_ofExcept _
  intro entry hentry
  by_cases hk : content.1 = .json
  · rw [if_pos hk] at hentry
    rw [List.mem_singleton.mp hentry]
    rfl
  · rw [if_neg hk] at hentry
    exact absurd hentry List.not_mem_nil

theorem quiet_addAttributes (id : String) (r : DocumentFragment) (attributes : List (String × Value)) :
    (r.addAttributes g id attributes).Quiet := by
  induction attributes generalizing r with
  | nil => exact quiet_pure r
  | cons a rest ih =>
    unfold DocumentFragment.addAttributes
    split_ifs
    · exact ih r
    · exact (quiet_ofExcept _).bind fun r => ih r
    · exact (quiet_createProp _ _ _ _).bind fun prop => ih _

theorem quiet_enter (p : Progress) (id : String) (e : Element) : (enter g p id e).Quiet := by
  refine (quiet_addAttributes id p.records e.props).bind fun r => ?_
  refine (quiet_ofExcept _).bind fun component => (quiet_ofExcept _).bind fun label => ?_
  exact (quiet_childRefs g.depth false p.ids e.children).bind fun _ => quiet_pure _

section Below

variable {below : Progress → List Value → Logged Failure (List Child × Progress)}

theorem quiet_render {h : Handle} {e : Element} (hbelow : ∀ p, (below p e.children).Quiet)
    (p : Progress) : (render g below p h e).Quiet := by
  refine (quiet_resolve p.ids h).bind fun r => ?_
  show (if _ then _ else _ : Logged Failure (List Child × Progress)).Quiet
  split_ifs
  · exact quiet_pure _
  · exact (quiet_enter _ _ e).bind fun p => (hbelow p).bind fun _ => quiet_pure _

/-- **Step.** A child that can stand where it does is rendered quietly, if what is below it is. -/
theorem quiet_flattenOne {v : Value} (hv : g.roleOf v ≠ .unsupported)
    (hbelow : ∀ k e, v = .element k → g.find? k = some e → ∀ p, (below p e.children).Quiet)
    (p : Progress) : (flattenOne g below p v).Quiet := by
  unfold flattenOne
  cases hr : g.roleOf v with
  | leaf l => exact quiet_pure _
  | fragment cs =>
    obtain ⟨k, e, rfl, he, -, rfl⟩ := roleOf_eq_fragment hr
    exact hbelow k e rfl he p
  | concrete k e =>
    obtain ⟨rfl, he, -⟩ := roleOf_eq_concrete.mp hr
    exact quiet_render (hbelow k e rfl he) p
  | unsupported => exact absurd hr hv

end Below

/-- **Run.** Supported children are rendered quietly. -/
theorem quiet_flatten {n : ℕ} {vs : List Value} (hs : g.Supported vs) (p : Progress) :
    (flatten g n p vs).Quiet := by
  induction n generalizing vs p with
  | zero => exact quiet_pure _
  | succ n ih =>
    refine quiet_collect (fun v hv p => ?_) p
    refine quiet_flattenOne (hs.here v hv) (fun k e hk he p => ?_) p
    exact ih (hs.children (hk ▸ hv) he) p

theorem quiet_normalize {root : Value} (hs : g.Supported [root]) : (normalize g root).Quiet := by
  refine (quiet_ofExcept _).bind fun claims => ?_
  refine (quiet_flatten hs _).bind fun r => Quiet.bind ?_ fun _ => quiet_pure _
  intro entry hentry
  rw [List.mem_singleton.mp hentry]
  rfl

/-! ### The whole -/

variable (g) in
/-- No element below the root is in itself, whatever stands there can stand there, and every element has
its records, whichever ids the elements are given. -/
structure Graph.Renderable (root : Value) : Prop where
  acyclic : g.Acyclic root
  supported : g.Supported [root]
  blocks : ∀ h e, g.Reaches root h → g.find? h = some e → ∀ idOf id, ∃ b, blockOf g idOf id e = .ok b

namespace Graph.Renderable

variable {root : Value} (hr : g.Renderable root)

include hr

/-- **Rendering.** A root that can be rendered has records, unless there is a fault of the claims. -/
theorem outcome : (∃ f, (normalize g root).outcome = .ok f) ∨
    ∃ e, g.FirstFault (g.firstVisits root) e ∧ (normalize g root).outcome = .error (.ofClaim e) := by
  rw [outcome_normalize hr.acyclic]
  cases hnote : g.noteAll [] (g.firstVisits root) with
  | error e => exact .inr ⟨e, (noteAll_eq_error (nodup_firstVisits root)).mp hnote, rfl⟩
  | ok claims =>
    have hblocks : ∀ h ∈ g.firstVisits root, ∃ b, g.blockAt root h = .ok b := by
      intro h hh
      obtain ⟨hreach, e, he, -⟩ := (mem_firstVisits hr.acyclic).mp hh
      rw [blockAt, he]
      exact hr.blocks h e hreach he _ _
    obtain ⟨blocks, hok⟩ := exists_mapM_eq_ok hblocks
    exact .inl ⟨_, by rw [hok]; rfl⟩

theorem skippedEntry_not_mem (v : Value) : skippedEntry v ∉ (normalize g root).entries := by
  intro hmem
  have hlevel : Level.warning = Level.debug := quiet_normalize hr.supported _ hmem
  exact absurd hlevel (by decide)

end Graph.Renderable

end ViewGraph
