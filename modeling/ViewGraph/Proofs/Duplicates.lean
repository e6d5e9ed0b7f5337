import ViewGraph.Proofs.Run

/-!
# Ids that are claimed twice

Two elements that ask for the same id are found out before anything is made of them, and so is an element that
asks for an id without a text.

* `AtFault before h e`: an element asks for an id that one of those before it asked for, or its id has no text.
* `FirstFault l e`: along the elements of `l`, `e` is the first fault.
* `noteAll_eq_error`: the collection of claims stops at this fault, and nowhere else.
* `Unclashing r`: `r` reports no id that is claimed twice. The records of elements do not, whatever else is
  wrong.
* `duplicates_exact`: a normalization reports an id exactly if two elements below the root ask for it, and no
  id without a text comes first.
-/

namespace ViewGraph

open ViewGraph.Graph

namespace Graph

variable {g : Graph}

/-! ### The first fault -/

variable (g) in
/-- Behind some elements, an element cannot claim its id: one of them asked for the same, or the id has no
text. -/
def AtFault (before : List Handle) (h : Handle) : ClaimError → Prop
  | .duplicate d => g.wantedId? h = some d.id ∧ ∃ k ∈ before, g.wantedId? k = some d.id
  | .tooManyDigits => ∃ d, g.askedId? h = .error d

variable (g) in
/-- The ids that some elements ask for have texts, and no two of these are the same. -/
structure Faultless (l : List Handle) : Prop where
  shown : g.IdsShown l
  nodup : (l.filterMap g.wantedId?).Nodup

variable (g) in
/-- Going along some elements, `e` is the first fault. -/
def FirstFault (l : List Handle) (e : ClaimError) : Prop :=
  ∃ before h after, l = before ++ h :: after ∧ g.AtFault before h e ∧ g.Faultless before

theorem not_firstFault_nil (e : ClaimError) : ¬ g.FirstFault [] e := by
  rintro ⟨before, h, after, hl, -⟩
  simp at hl

/-- The first fault of a longer list is that of the list, or the last element makes it. -/
theorem firstFault_concat {l : List Handle} {h : Handle} {e : ClaimError} :
    g.FirstFault (l ++ [h]) e ↔ g.FirstFault l e ∨ (g.Faultless l ∧ g.AtFault l h e) := by
  constructor
  · rintro ⟨before, k, after, hl, hfault, hbefore⟩
    rcases List.eq_nil_or_concat after with rfl | ⟨after', last, rfl⟩
    · obtain ⟨rfl, hkh⟩ := List.append_inj' hl rfl
      obtain rfl : h = k := by simpa using hkh
      exact .inr ⟨hbefore, hfault⟩
    · rw [List.concat_eq_append, ← List.cons_append, ← List.append_assoc] at hl
      obtain ⟨rfl, -⟩ := List.append_inj' hl rfl
      exact .inl ⟨before, k, after', rfl, hfault, hbefore⟩
  · rintro (⟨before, k, after, rfl, hfault, hbefore⟩ | ⟨hl, hfault⟩)
    · exact ⟨before, k, after ++ [h], by simp, hfault, hbefore⟩
    · exact ⟨l, h, [], rfl, hfault, hl⟩

theorem FirstFault.not_faultless {l : List Handle} {e : ClaimError} (hf : g.FirstFault l e) :
    ¬ g.Faultless l := by
  obtain ⟨before, h, after, rfl, hfault, -⟩ := hf
  intro hall
  cases e with
  | duplicate d =>
    have hnd := hall.nodup
    rw [List.filterMap_append, List.filterMap_cons_some hfault.1] at hnd
    exact (List.nodup_append.mp hnd).2.2 d.id (List.mem_filterMap.mpr hfault.2) d.id (by simp) rfl
  | tooManyDigits =>
    obtain ⟨d, hd⟩ := hfault
    have hshown := hall.shown h (by simp)
    rw [hd] at hshown
    cases hshown

/-- An id that is claimed twice is claimed by two elements. -/
theorem FirstFault.exists_pair {l : List Handle} (hl : l.Nodup) {d : DuplicateId}
    (hf : g.FirstFault l (.duplicate d)) :
    ∃ h ∈ l, ∃ k ∈ l, h ≠ k ∧ g.wantedId? h = some d.id ∧ g.wantedId? k = some d.id := by
  obtain ⟨before, h, after, rfl, ⟨hh, k, hk, hkid⟩, -⟩ := hf
  have hne : h ≠ k := by
    rintro rfl
    exact (List.nodup_append.mp hl).2.2 h hk h (by simp) rfl
  exact ⟨h, by simp, k, List.mem_append_left _ hk, hne, hh, hkid⟩

/-! ### Where the collection of claims stops -/

theorem Noted.faultless {l : List Handle} {claims : List (String × Handle)} (hn : g.Noted l claims) :
    g.Faultless l :=
  ⟨hn.shown, hn.nodup⟩

/-- The claim of an id is refused if one of those before made the same. -/
theorem noteId_eq_error {l : List Handle} {claims : List (String × Handle)} (hn : g.Noted l claims)
    {h : Handle} (hh : h ∉ l) {id : String} {e : ClaimError} :
    noteId claims h (some id) = .error e ↔ e = .duplicate ⟨id⟩ ∧ id ∈ l.filterMap g.wantedId? := by
  rw [← hn.ids]
  cases hf : Table.find? id claims with
  | none =>
    have hfree : id ∉ claims.map (·.1) := Table.find?_eq_none_iff.mp hf
    have hok : noteId claims h (some id) = .ok (Table.insert id h claims) := by simp [noteId, hf]
    rw [hok]
    exact iff_of_false (fun heq => by cases heq) fun hmem => hfree hmem.2
  | some k =>
    have hentry := Table.mem_of_find? hf
    have hk : k ≠ h := fun heq => hh (heq ▸ hn.owners id k hentry)
    have herror : noteId claims h (some id) = .error (.duplicate ⟨id⟩) := by simp [noteId, hf, hk]
    have hmem : id ∈ claims.map (·.1) := List.mem_map.mpr ⟨(id, k), hentry, rfl⟩
    rw [herror]
    exact ⟨fun heq => ⟨(Except.error.inj heq).symm, hmem⟩, fun heq => congrArg Except.error heq.1.symm⟩

/-- **Step.** The claim of an element is refused if the element is at fault behind those before it. -/
theorem noteWanted_eq_error {l : List Handle} {claims : List (String × Handle)} (hn : g.Noted l claims)
    {h : Handle} (hh : h ∉ l) {e : ClaimError} :
    g.noteWanted claims h = .error e ↔ g.AtFault l h e := by
  unfold noteWanted
  cases ha : g.askedId? h with
  | error d =>
    cases e with
    | duplicate d' => simp [AtFault, wantedId?, ha]
    | tooManyDigits => exact iff_of_true rfl ⟨d, ha⟩
  | ok id? =>
    have hw := wantedId?_of_askedId? ha
    cases id? with
    | none => cases e <;> simp [AtFault, noteId, ha, hw]
    | some id =>
      show noteId claims h (some id) = .error e ↔ _
      rw [noteId_eq_error hn hh]
      cases e with
      | tooManyDigits => simp [AtFault, ha]
      | duplicate d =>
        rw [AtFault, hw, ← List.mem_filterMap]
        constructor
        · rintro ⟨heq, hmem⟩
          obtain rfl := ClaimError.duplicate.inj heq
          exact ⟨rfl, hmem⟩
        · rintro ⟨heq, hmem⟩
          obtain rfl := Option.some.inj heq
          exact ⟨rfl, hmem⟩

/-- **Run.** The collection of the claims of distinct elements stops at the first fault. -/
theorem noteAll_eq_error {l : List Handle} (hl : l.Nodup) {e : ClaimError} :
    g.noteAll [] l = .error e ↔ g.FirstFault l e := by
  induction l using List.reverseRecOn generalizing e with
  | nil =>
    rw [noteAll_nil]
    simp [not_firstFault_nil]
  | append_singleton l h ih =>
    obtain ⟨hh, hnd⟩ := List.nodup_cons.mp (List.nodup_append_comm.mp hl)
    rw [noteAll_append, firstFault_concat]
    cases hprev : g.noteAll [] l with
    | error e' =>
      have hfault : g.FirstFault l e' := (ih hnd).mp hprev
      rw [or_iff_left fun hlast => hfault.not_faultless hlast.1, ← ih hnd, hprev]
      rfl
    | ok claims =>
      have hn := noted_noteAll hnd hprev
      have hone : g.noteAll claims [h] = g.noteWanted claims h := by
        rw [noteAll_cons]
        exact bind_pure _
      show g.noteAll claims [h] = .error e ↔ _
      rw [or_iff_right fun hf => hf.not_faultless hn.faultless, hone, noteWanted_eq_error hn hh]
      exact ⟨fun hfault => ⟨hn.faultless, hfault⟩, fun hlast => hlast.2⟩

end Graph

/-! ### Nothing else reports a clash -/

/-- A computation that reports no clash. -/
def Unclashing {α : Type} (r : Except Failure α) : Prop := ∀ d, r ≠ .error (.duplicate d)

section Unclashing

variable {α β : Type}

theorem unclashing_ok (a : α) : Unclashing (.ok a) := fun d h => by cases h

theorem Unclashing.bind {r : Except Failure α} {f : α → Except Failure β} (hr : Unclashing r)
    (hf : ∀ a, Unclashing (f a)) : Unclashing (r >>= f) := by
  cases r with
  | ok a => exact hf a
  | error e =>
    intro d h
    obtain rfl : e = .duplicate d := Except.error.inj h
    exact hr d rfl

theorem Unclashing.mapM {f : α → Except Failure β} (hf : ∀ a, Unclashing (f a)) (l : List α) :
    Unclashing (l.mapM f) := by
  induction l with
  | nil => exact unclashing_ok []
  | cons a l ih =>
    rw [List.mapM_cons]
    exact (hf a).bind fun b => ih.bind fun bs => unclashing_ok (b :: bs)

theorem unclashing_ofShown (x : Shown α) : Unclashing (ofShown x) := by
  cases x with
  | ok a => exact unclashing_ok a
  | error d =>
    intro d h
    cases h

theorem unclashing_ofChecked (className : String) (r : Checked α) : Unclashing (ofChecked className r) := by
  cases r with
  | valid a => exact unclashing_ok a
  | invalid issues =>
    intro d h
    cases h

theorem unclashing_classify (v : Value) : Unclashing (classify v) := by
  cases v with
  | action args code =>
    simp only [classify]
    cases args.items? with
    | some items => exact unclashing_ok _
    | none =>
      intro d h
      cases h
  | wrapped kind payload => cases kind <;> exact unclashing_ok _
  | _ => exact unclashing_ok _

theorem unclashing_createProp (text : Value → Shown String) (instanceId name v : Value) :
    Unclashing (createProp text instanceId name v).outcome := by
  unfold createProp
  simp only [Logged.outcome_bind, Logged.outcome_ofExcept, Logged.outcome_tell]
  refine (unclashing_ofShown _).bind fun owner => (unclashing_ofShown _).bind fun title => ?_
  refine (unclashing_classify v).bind fun content => ?_
  exact (unclashing_ok ()).bind fun _ => unclashing_ofChecked _ _

theorem unclashing_declarations (v : Value) : Unclashing (declarations v) := by
  unfold declarations
  have hitems : Unclashing (styleItems v) := by
    unfold styleItems
    split
    · split
      · exact unclashing_ok _
      · intro d h
        cases h
    · exact unclashing_ok _
  exact hitems.bind fun items => Unclashing.mapM (fun item => unclashing_ofChecked _ _) items

theorem unclashing_attributeRecords (g : Graph) (id : String) (attributes : List (String × Value)) :
    Unclashing (attributeRecords g id attributes) := by
  induction attributes with
  | nil => exact unclashing_ok _
  | cons a rest ih =>
    obtain ⟨name, v⟩ := a
    unfold attributeRecords
    split_ifs with hr hs
    · exact ih
    · exact (unclashing_declarations v).bind fun ds => ih.bind fun records => unclashing_ok _
    · exact (unclashing_createProp _ _ _ v).bind fun p => ih.bind fun records => unclashing_ok _

theorem unclashing_referenceTo (idOf : Handle → String) (v : Value) : Unclashing (referenceTo idOf v) := by
  unfold referenceTo
  cases v.leaf? with
  | none => exact unclashing_ok _
  | some l =>
    cases l with
    | text s => exact unclashing_ok _
    | placeholder payload => exact unclashing_ofChecked _ _
    | expression payload => exact unclashing_ofChecked _ _

theorem unclashing_blockAt (g : Graph) (root : Value) (h : Handle) : Unclashing (g.blockAt root h) := by
  unfold blockAt
  split
  · rename_i e he
    unfold blockOf
    refine (unclashing_attributeRecords g _ e.props).bind fun records => ?_
    refine (unclashing_ofShown _).bind fun component => (unclashing_ofShown _).bind fun label => ?_
    refine (Unclashing.mapM (unclashing_referenceTo _) _).bind fun refs => ?_
    exact unclashing_ok _
  · exact unclashing_ok _

end Unclashing

/-! ### The whole -/

variable {g : Graph} {root : Value}

theorem normalize_eq_duplicate (hac : g.Acyclic root) {d : DuplicateId} :
    (normalize g root).outcome = .error (.duplicate d) ↔
      g.noteAll [] (g.firstVisits root) = .error (.duplicate d) := by
  rw [outcome_normalize hac]
  cases hnote : g.noteAll [] (g.firstVisits root) with
  | error e =>
    show Except.error (Failure.ofClaim e) = Except.error (Failure.duplicate d) ↔ _
    cases e <;> simp [Failure.ofClaim]
  | ok claims =>
    have hrecords : Unclashing ((g.firstVisits root).mapM (g.blockAt root) >>= fun blocks =>
        (pure { DocumentFragment.ofBlocks blocks with
          children := g.refsTo root (g.structural [root]) } : Except Failure DocumentFragment)) :=
      (Unclashing.mapM (unclashing_blockAt g root) _).bind fun blocks => unclashing_ok _
    constructor
    · intro h
      exact absurd h (hrecords d)
    · intro h
      cases h

/-- A fault of the claims is what the normalization ends with, and it leaves nothing in the log. -/
theorem normalize_of_firstFault (hac : g.Acyclic root) {e : ClaimError}
    (hf : g.FirstFault (g.firstVisits root) e) :
    (normalize g root).outcome = .error (.ofClaim e) ∧ (normalize g root).entries = [] := by
  have hclaims : g.claims root = .error e := by
    rw [claims_eq_noteAll hac]
    exact (noteAll_eq_error (nodup_firstVisits root)).mpr hf
  unfold normalize
  rw [Logged.outcome_bind, Logged.entries_bind, Logged.outcome_ofExcept, hclaims]
  exact ⟨rfl, rfl⟩

/-- **Duplicates.** A normalization reports the first id that is asked for again, in the order of the first
visits, unless an id without a text comes first.  So it reports an id if and only if two elements below the root
ask for the same one and no id without a text comes before the first such pair is complete.  Otherwise such an
id is what it ends with.  In either case nothing else has been done by then. -/
theorem duplicates_exact (hac : g.Acyclic root) :
    (∀ d, (normalize g root).outcome = .error (.duplicate d) ↔
      g.FirstFault (g.firstVisits root) (.duplicate d)) ∧
    ((∃ d, (normalize g root).outcome = .error (.duplicate d)) ↔
      (∃ h k id, h ≠ k ∧ g.HasInstance root h ∧ g.HasInstance root k ∧
        g.wantedId? h = some id ∧ g.wantedId? k = some id) ∧
      ¬ g.FirstFault (g.firstVisits root) .tooManyDigits) ∧
    (g.FirstFault (g.firstVisits root) .tooManyDigits →
      (normalize g root).outcome = .error .tooManyDigits) ∧
    ∀ e, g.FirstFault (g.firstVisits root) e → (normalize g root).entries = [] := by
  have hnd := nodup_firstVisits (g := g) root
  have hreported : ∀ d, (normalize g root).outcome = .error (.duplicate d) ↔
      g.FirstFault (g.firstVisits root) (.duplicate d) := fun d => by
    rw [normalize_eq_duplicate hac, noteAll_eq_error hnd]
  refine ⟨hreported, ⟨?_, ?_⟩, fun hf => (normalize_of_firstFault hac hf).1,
    fun e hf => (normalize_of_firstFault hac hf).2⟩
  · rintro ⟨d, hd⟩
    have hfirst := (hreported d).mp hd
    obtain ⟨h, hh, k, hk, hne, hwh, hwk⟩ := hfirst.exists_pair hnd
    refine ⟨⟨h, k, d.id, hne, (mem_firstVisits hac).mp hh, (mem_firstVisits hac).mp hk, hwh, hwk⟩, ?_⟩
    intro hunshown
    have hboth := (noteAll_eq_error hnd).mpr hfirst
    rw [(noteAll_eq_error hnd).mpr hunshown] at hboth
    cases hboth
  · rintro ⟨⟨h, k, id, hne, hh, hk, hwh, hwk⟩, hshown⟩
    rw [← mem_firstVisits hac] at hh hk
    cases hnote : g.noteAll [] (g.firstVisits root) with
    | error e =>
      cases e with
      | duplicate d => exact ⟨d, (normalize_eq_duplicate hac).mpr hnote⟩
      | tooManyDigits => exact absurd ((noteAll_eq_error hnd).mp hnote) hshown
    | ok claims => exact absurd (wantedId?_inj_of_noteAll hnd hnote hh hk hwh hwk) hne

/-! ### A graph with a clash -/

/-- A box with a text, which stands twice in a fragment, and a link. The text and the link ask for the
same id, one with a text and one with a number, and so does the fragment. Neither box nor text have
styles that could be read. -/
def clashingGraph : Graph := ⟨#[
  ⟨.str "Text", [("ws:id", .str "7"), ("ws:style", .int 5)], []⟩,
  ⟨.fragment, [("ws:id", .int 7)], [.element ⟨0⟩, .element ⟨0⟩]⟩,
  ⟨.str "Link", [("ws:id", .int 7)], []⟩,
  ⟨.str "Box", [("ws:style", .int 5)], [.element ⟨1⟩, .element ⟨2⟩, .element ⟨0⟩]⟩]⟩

/-- The box. -/
def clashingRoot : Value := .element ⟨3⟩

theorem duplicates_exact_clashingGraph : clashingGraph.Acyclic clashingRoot ∧
    clashingGraph.firstVisits clashingRoot = [⟨3⟩, ⟨0⟩, ⟨2⟩] ∧
      (normalize clashingGraph clashingRoot).outcome = .error (.duplicate ⟨"7"⟩) := by
  have hac : clashingGraph.Acyclic clashingRoot := acyclic_of_index_lt (by decide) clashingRoot
  have hvisits : clashingGraph.firstVisits clashingRoot = [⟨3⟩, ⟨0⟩, ⟨2⟩] := by decide +kernel
  have hshown : ∀ h ∈ [⟨3⟩, ⟨0⟩], clashingGraph.askedId? h = .ok (clashingGraph.wantedId? h) := by
    decide +kernel
  refine ⟨hac, hvisits, ((duplicates_exact hac).1 ⟨"7"⟩).mpr ?_⟩
  rw [hvisits]
  exact ⟨[⟨3⟩, ⟨0⟩], ⟨2⟩, [], rfl, ⟨by decide +kernel, ⟨0⟩, by decide, by decide +kernel⟩,
    hshown, by decide +kernel⟩

/-! ### A graph with an id that has no text -/

/-- A fragment of three elements: the first asks for an id that is a number with one digit too many, and the
others both ask for `x`. -/
def unshownGraph : Graph := ⟨#[
  ⟨.str "A", [("ws:id", .int (Nat.pow 10 maxDigits))], []⟩, ⟨.str "B", [("ws:id", .str "x")], []⟩,
  ⟨.str "C", [("ws:id", .str "x")], []⟩, ⟨.fragment, [], [.element ⟨0⟩, .element ⟨1⟩, .element ⟨2⟩]⟩]⟩

/-- The fragment. -/
def unshownRoot : Value := .element ⟨3⟩

/-- The id that two elements ask for is not reported behind one that has no text. -/
theorem not_reported_of_unshown : ¬ ∀ (g : Graph) (root : Value), g.Acyclic root →
    (∃ h k id, h ≠ k ∧ g.HasInstance root h ∧ g.HasInstance root k ∧
      g.wantedId? h = some id ∧ g.wantedId? k = some id) →
    ∃ d, (normalize g root).outcome = .error (.duplicate d) := by
  intro hall
  have hac : unshownGraph.Acyclic unshownRoot := acyclic_of_index_lt (by decide) unshownRoot
  have hvisits : unshownGraph.firstVisits unshownRoot = [⟨0⟩, ⟨1⟩, ⟨2⟩] := by decide +kernel
  have hin : ∀ h ∈ [⟨0⟩, ⟨1⟩, ⟨2⟩], unshownGraph.HasInstance unshownRoot h := fun h hh => by
    rwa [← mem_firstVisits hac, hvisits]
  obtain ⟨d, hd⟩ := hall unshownGraph unshownRoot hac
    ⟨⟨1⟩, ⟨2⟩, "x", by decide, hin _ (by simp), hin _ (by simp), by decide +kernel, by decide +kernel⟩
  have hasked : unshownGraph.askedId? ⟨0⟩ = .error {} := by
    show some <$> unshownGraph.text (.int (Nat.pow 10 maxDigits)) = _
    rw [text_int, showInt_of_le (Int.natAbs_natCast _).ge]
    rfl
  have hfault : unshownGraph.FirstFault (unshownGraph.firstVisits unshownRoot) .tooManyDigits := by
    rw [hvisits]
    exact ⟨[], ⟨0⟩, [⟨1⟩, ⟨2⟩], rfl, ⟨{}, hasked⟩, by simp [IdsShown], by simp⟩
  rw [(normalize_of_firstFault hac hfault).1] at hd
  cases hd

end ViewGraph
