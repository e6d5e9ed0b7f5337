import Mathlib.Data.Finset.Dedup
import ViewGraph.Proofs.Claims
import ViewGraph.Proofs.Numbering

/-!
# Requests in any order

An allocator answers requests one after the other.  A key may ask again, may change its mind, and may ask for
an id that nobody had announced.

* `after run`, `answer run r`: the allocator after some requests, and its answer to the next one.
* `Chose run k id`, `Counted run k n`: how the key `k` came by its id in a run.
* `Recorded run a`: the allocator `a` holds what came of these requests.  `Recorded.assign` is the step, and
  `recorded_after` the run.
* `Orderly run`: ids are kept, and numbers go up without gaps.  `orderly_of_requests`: so it is in every run.
* `Takes run k k'`: `k'` chose the number that `k` had been given.
* `shared_iff_takes`: in no other way do two keys get one id.
-/

namespace ViewGraph

namespace Allocator

/-! ### Definitions -/

/-- A key asks for its id, perhaps for one of its own choice. -/
structure Request (κ : Type) where
  key : κ
  wanted : Option String
deriving DecidableEq

section Defs

variable {κ : Type} [DecidableEq κ] (reserved : List String) (run : List (Request κ))

/-- The allocator after some requests. -/
def after : Allocator κ :=
  run.foldl (fun a r => (a.assign r.key r.wanted).allocator) (ofReserved reserved)

/-- The answer to the request that comes next. -/
def answer (r : Request κ) : Assigned κ := (after reserved run).assign r.key r.wanted

/-- No request was made for a key. -/
def IsNew (k : κ) : Prop := k ∉ run.map (·.key)

/-- A new key asked for an id of its own choice. -/
def Chose (k : κ) (id : String) : Prop :=
  ∃ before, before ++ [⟨k, some id⟩] <+: run ∧ IsNew before k

/-- A new key left the choice to the allocator, which gave it a number. -/
def Counted (k : κ) (n : ℕ) : Prop :=
  ∃ before, before ++ [⟨k, none⟩] <+: run ∧ IsNew before k ∧
    (answer reserved before ⟨k, none⟩).id = numeral n

/-- A number was passed over, because its numeral was reserved from the start or was chosen before. -/
def PassedOver (n : ℕ) : Prop :=
  ∃ before r, before ++ [r] <+: run ∧ n ∈ (answer reserved before r).passed ∧
    (numeral n ∈ reserved ∨ ∃ k, Chose before k (numeral n))

/-- The ids that are given in a run are kept for ever, are the ones that were chosen where one was, and are
otherwise numbers that go up and leave none out without a reason. -/
structure Orderly : Prop where
  /-- A key keeps the id of its first request, and whatever it asks for later changes nothing. -/
  stable : ∀ first before k w w', first ++ [⟨k, w⟩] <+: before → IsNew first k →
    before ++ [⟨k, w'⟩] <+: run →
      (answer reserved before ⟨k, w'⟩).id = (answer reserved first ⟨k, w⟩).id ∧
        (answer reserved before ⟨k, w'⟩).allocator = after reserved before
  chosen : ∀ before k id, before ++ [⟨k, some id⟩] <+: run → IsNew before k →
    (answer reserved before ⟨k, some id⟩).id = id
  /-- A number is greater than those that were given before, and is nobody's choice so far. -/
  counted : ∀ before k, before ++ [⟨k, none⟩] <+: run → IsNew before k →
    ∃ n, (answer reserved before ⟨k, none⟩).id = numeral n ∧ numeral n ∉ reserved ∧
      (∀ k', ¬ Chose before k' (numeral n)) ∧ ∀ k' m, Counted reserved before k' m → m < n
  /-- Below a number that is given, every other one was given or was passed over. -/
  gapless : ∀ k n, Counted reserved run k n → ∀ m < n,
    (∃ k', Counted reserved run k' m) ∨ PassedOver reserved run m
  size : (after reserved run).size = (run.map (·.key)).toFinset.card

/-- A new key chose the number that another one had been given. -/
def Takes (k k' : κ) : Prop :=
  ∃ before n, before ++ [⟨k', some (numeral n)⟩] <+: run ∧ IsNew before k' ∧ Counted reserved before k n

/-- What came of some requests is what the allocator holds. -/
structure Recorded (a : Allocator κ) : Prop where
  keys : ∀ k, k ∈ a.ids.map (·.1) ↔ ¬ IsNew run k
  once : (a.ids.map (·.1)).Nodup
  chosen : ∀ k id, Chose run k id → a.find? k = some id
  counted : ∀ k n, Counted reserved run k n → a.find? k = some (numeral n) ∧ n < a.next
  origin : ∀ k id, a.find? k = some id → Chose run k id ∨ ∃ n, Counted reserved run k n ∧ id = numeral n
  barred : ∀ id, id ∈ a.reserved ↔ id ∈ reserved ∨ ∃ k, Chose run k id
  below : ∀ m < a.next, (∃ k, Counted reserved run k m) ∨ PassedOver reserved run m

end Defs

/-! ### The numbers that a search passes over -/

theorem mem_passed_iff {reserved : List String} {fuel n m : ℕ} :
    m ∈ (nextFree reserved fuel n).1 ↔ n ≤ m ∧ m < (nextFree reserved fuel n).2 := by
  induction fuel generalizing n with
  | zero => simp [nextFree]
  | succ fuel ih =>
    by_cases h : numeral n ∈ reserved
    · obtain ⟨hle, -, -⟩ := nextFree_range reserved fuel (n + 1)
      simp only [nextFree, List.contains_iff_mem, h, if_true, List.mem_cons, ih]
      omega
    · simp only [nextFree, List.contains_iff_mem, h, if_false, List.not_mem_nil, false_iff]
      omega

section Runs

variable {κ : Type} {run : List (Request κ)}

/-! ### One more request -/

theorem isNew_concat {r : Request κ} {k : κ} : IsNew (run ++ [r]) k ↔ IsNew run k ∧ k ≠ r.key := by
  simp [IsNew, not_or]

theorem not_isNew_of_prefix {before : List (Request κ)} {r : Request κ} (hb : before ++ [r] <+: run) :
    ¬ IsNew run r.key :=
  fun hnew => hnew (List.mem_map_of_mem (hb.subset (by simp)))

theorem prefix_concat_iff {before : List (Request κ)} {q r : Request κ} :
    before ++ [q] <+: run ++ [r] ↔ before ++ [q] <+: run ∨ before = run ∧ q = r := by
  rw [List.prefix_concat_iff, or_comm]
  refine or_congr Iff.rfl ⟨fun heq => ?_, fun ⟨hb, hq⟩ => by rw [hb, hq]⟩
  obtain ⟨hb, hq⟩ := List.append_inj' heq rfl
  exact ⟨hb, (List.cons.inj hq).1⟩

/-- Of two requests in a run, one comes first. -/
theorem prefix_cases {before before' : List (Request κ)} {q q' : Request κ} (hb : before ++ [q] <+: run)
    (hb' : before' ++ [q'] <+: run) (hne : q ≠ q') :
    before ++ [q] <+: before' ∨ before' ++ [q'] <+: before := by
  rcases List.prefix_or_prefix_of_prefix hb hb' with hp | hp
  · rcases prefix_concat_iff.mp hp with hp | ⟨-, heq⟩
    · exact .inl hp
    · exact absurd heq hne
  · rcases prefix_concat_iff.mp hp with hp | ⟨-, heq⟩
    · exact .inr hp
    · exact absurd heq.symm hne

theorem Chose.mono {run' : List (Request κ)} (hp : run <+: run') {k : κ} {id : String}
    (h : Chose run k id) : Chose run' k id := by
  obtain ⟨before, hb, hnew⟩ := h
  exact ⟨before, hb.trans hp, hnew⟩

theorem Chose.not_isNew {k : κ} {id : String} (h : Chose run k id) : ¬ IsNew run k := by
  obtain ⟨before, hb, -⟩ := h
  exact not_isNew_of_prefix hb

theorem chose_concat {r : Request κ} {k : κ} {id : String} :
    Chose (run ++ [r]) k id ↔ Chose run k id ∨ r = ⟨k, some id⟩ ∧ IsNew run k := by
  simp only [Chose, prefix_concat_iff, or_and_right, exists_or]
  refine or_congr Iff.rfl ⟨?_, ?_⟩
  · rintro ⟨before, ⟨rfl, hr⟩, hnew⟩
    exact ⟨hr.symm, hnew⟩
  · rintro ⟨hr, hnew⟩
    exact ⟨run, ⟨rfl, hr.symm⟩, hnew⟩

variable [DecidableEq κ] {reserved : List String}

theorem Counted.mono {run' : List (Request κ)} (hp : run <+: run') {k : κ} {n : ℕ}
    (h : Counted reserved run k n) : Counted reserved run' k n := by
  obtain ⟨before, hb, hnew, hid⟩ := h
  exact ⟨before, hb.trans hp, hnew, hid⟩

theorem Counted.not_isNew {k : κ} {n : ℕ} (h : Counted reserved run k n) : ¬ IsNew run k := by
  obtain ⟨before, hb, -⟩ := h
  exact not_isNew_of_prefix hb

theorem counted_concat {r : Request κ} {k : κ} {n : ℕ} :
    Counted reserved (run ++ [r]) k n ↔ Counted reserved run k n ∨
      r = ⟨k, none⟩ ∧ IsNew run k ∧ (answer reserved run r).id = numeral n := by
  simp only [Counted, prefix_concat_iff, or_and_right, exists_or]
  refine or_congr Iff.rfl ⟨?_, ?_⟩
  · rintro ⟨before, ⟨rfl, rfl⟩, hnew, hid⟩
    exact ⟨rfl, hnew, hid⟩
  · rintro ⟨rfl, hnew, hid⟩
    exact ⟨run, ⟨rfl, rfl⟩, hnew, hid⟩

theorem PassedOver.mono {run' : List (Request κ)} (hp : run <+: run') {n : ℕ}
    (h : PassedOver reserved run n) : PassedOver reserved run' n := by
  obtain ⟨before, r, hb, hn, hreason⟩ := h
  exact ⟨before, r, hb.trans hp, hn, hreason⟩

theorem after_concat (r : Request κ) :
    after reserved (run ++ [r]) = (answer reserved run r).allocator := by
  simp [after, answer, List.foldl_append]

/-! ### What the allocator holds -/

theorem find?_eq_none_iff {a : Allocator κ} {k : κ} : a.find? k = none ↔ k ∉ a.ids.map (·.1) :=
  Table.find?_eq_none_iff

theorem recorded_nil : Recorded reserved ([] : List (Request κ)) (ofReserved reserved) where
  keys := by simp [ofReserved, IsNew]
  once := List.nodup_nil
  chosen := fun k id h => absurd List.not_mem_nil h.not_isNew
  counted := fun k n h => absurd List.not_mem_nil h.not_isNew
  origin := fun k id h => by simp [ofReserved, find?] at h
  barred := fun id => by
    simp only [ofReserved, iff_self_or]
    rintro ⟨k, h⟩
    exact absurd List.not_mem_nil h.not_isNew
  below := fun m hm => absurd hm (Nat.not_lt_zero m)

namespace Recorded

variable {a : Allocator κ} (h : Recorded reserved run a)

include h

theorem find?_eq_none {k : κ} : a.find? k = none ↔ IsNew run k := by
  rw [find?_eq_none_iff, h.keys, not_not]

/-- A key that has its id keeps it. -/
theorem keep {r : Request κ} (hold : ¬ IsNew run r.key) : Recorded reserved (run ++ [r]) a := by
  have hnew : ∀ k, IsNew (run ++ [r]) k ↔ IsNew run k := by
    intro k
    rw [isNew_concat, and_iff_left_iff_imp]
    rintro hk rfl
    exact hold hk
  have hchose : ∀ k id, Chose (run ++ [r]) k id ↔ Chose run k id := by
    intro k id
    rw [chose_concat, or_iff_left_iff_imp]
    rintro ⟨rfl, hk⟩
    exact absurd hk hold
  have hcounted : ∀ k n, Counted reserved (run ++ [r]) k n ↔ Counted reserved run k n := by
    intro k n
    rw [counted_concat, or_iff_left_iff_imp]
    rintro ⟨rfl, hk, -⟩
    exact absurd hk hold
  exact
    { keys := fun k => by rw [hnew, h.keys]
      once := h.once
      chosen := fun k id hk => h.chosen k id ((hchose k id).mp hk)
      counted := fun k n hk => h.counted k n ((hcounted k n).mp hk)
      origin := fun k id hk => by simpa only [hchose, hcounted] using h.origin k id hk
      barred := fun id => by simpa only [hchose] using h.barred id
      below := fun m hm => by
        simpa only [hcounted] using (h.below m hm).imp_right (PassedOver.mono (List.prefix_append _ _)) }

/-- A new key is entered with the id that it chose, or else with a number that was not reached before. -/
theorem enter {r : Request κ} (hnew : IsNew run r.key) {id : String} {next : ℕ} {barred : List String}
    (hnext : a.next ≤ next) (hchosen : ∀ id', r.wanted = some id' → id = id')
    (hcounted : r.wanted = none → ∃ n < next, id = numeral n ∧ (answer reserved run r).id = numeral n)
    (hbarred : ∀ id', id' ∈ barred ↔ id' ∈ reserved ∨ ∃ k, Chose (run ++ [r]) k id')
    (hbelow : ∀ m, a.next ≤ m → m < next →
      (∃ k, Counted reserved (run ++ [r]) k m) ∨ PassedOver reserved (run ++ [r]) m) :
    Recorded reserved (run ++ [r]) ⟨next, a.ids ++ [(r.key, id)], barred⟩ := by
  have hnone : a.find? r.key = none := h.find?_eq_none.mpr hnew
  have hp : run <+: run ++ [r] := List.prefix_append _ _
  have hother : ∀ k, ¬ IsNew run k → k ≠ r.key := by
    rintro k hk rfl
    exact hk hnew
  exact
    { keys := fun k => by
        rw [isNew_concat, not_and_or, not_not, ← h.keys]
        simp
      once := by
        rw [List.map_append]
        refine List.nodup_append_comm.mp (List.nodup_cons.mpr ⟨?_, h.once⟩)
        exact find?_eq_none_iff.mp hnone
      chosen := fun k id' hk => by
        rw [find?_append hnone]
        rcases chose_concat.mp hk with hk | ⟨rfl, -⟩
        · rw [if_neg (hother k hk.not_isNew)]
          exact h.chosen k id' hk
        · rw [if_pos rfl, hchosen id' rfl]
      counted := fun k n hk => by
        rw [find?_append hnone]
        rcases counted_concat.mp hk with hk | ⟨rfl, -, hid⟩
        · rw [if_neg (hother k hk.not_isNew)]
          obtain ⟨hfind, hlt⟩ := h.counted k n hk
          exact ⟨hfind, by simp only; omega⟩
        · obtain ⟨m, hlt, rfl, hid'⟩ := hcounted rfl
          obtain rfl := numeral_injective (hid.symm.trans hid')
          exact ⟨if_pos rfl, hlt⟩
      origin := fun k id' hk => by
        rw [find?_append hnone] at hk
        split_ifs at hk with heq
        · obtain rfl := Option.some.inj hk
          obtain ⟨key, wanted⟩ := r
          obtain rfl : k = key := heq
          cases wanted with
          | some id' =>
            obtain rfl := hchosen id' rfl
            exact .inl (chose_concat.mpr (.inr ⟨rfl, hnew⟩))
          | none =>
            obtain ⟨n, -, hid, hid'⟩ := hcounted rfl
            exact .inr ⟨n, counted_concat.mpr (.inr ⟨rfl, hnew, hid'⟩), hid⟩
        · rcases h.origin k id' hk with hk | ⟨n, hn, hid⟩
          · exact .inl (hk.mono hp)
          · exact .inr ⟨n, hn.mono hp, hid⟩
      barred := hbarred
      below := fun m hm => by
        by_cases hlt : m < a.next
        · exact (h.below m hlt).imp (Exists.imp fun k => Counted.mono hp) (PassedOver.mono hp)
        · exact hbelow m (by omega) hm }

end Recorded

/-- The answer to a new key that chose its id. -/
theorem answer_choice {k : κ} (hnone : (after reserved run).find? k = none) (id : String) :
    answer reserved run ⟨k, some id⟩ = ⟨id, [], { after reserved run with
      ids := (after reserved run).ids ++ [(k, id)], reserved := id :: (after reserved run).reserved }⟩ := by
  simp only [answer, assign, hnone]

/-- The answer to a new key that left the choice to the allocator. -/
theorem answer_number {k : κ} (hnone : (after reserved run).find? k = none) :
    answer reserved run ⟨k, none⟩ =
      let a := after reserved run
      let found := nextFree a.reserved a.reserved.length a.next
      ⟨numeral found.2, found.1, { a with next := found.2 + 1, ids := a.ids ++ [(k, numeral found.2)] }⟩ := by
  simp only [answer, assign, takeNext, hnone]

/-- The answer to a key that has its id. -/
theorem answer_known {r : Request κ} {id : String} (hfind : (after reserved run).find? r.key = some id) :
    answer reserved run r = ⟨id, [], after reserved run⟩ :=
  assign_of_find? hfind r.wanted

namespace Recorded

variable (h : Recorded reserved run (after reserved run)) {k : κ}

include h

theorem assign_choice (hnew : IsNew run k) (id : String) :
    Recorded reserved (run ++ [⟨k, some id⟩]) (answer reserved run ⟨k, some id⟩).allocator := by
  rw [answer_choice (h.find?_eq_none.mpr hnew)]
  refine h.enter hnew le_rfl (fun id' hid => Option.some.inj hid) (fun hwanted => nomatch hwanted)
    (fun id' => ?_) fun m hle hlt => absurd hlt (Nat.not_lt.mpr hle)
  simp only [List.mem_cons, h.barred, chose_concat]
  constructor
  · rintro (rfl | hid | ⟨k', hk'⟩)
    · exact .inr ⟨k, .inr ⟨rfl, hnew⟩⟩
    · exact .inl hid
    · exact .inr ⟨k', .inl hk'⟩
  · rintro (hid | ⟨k', hk' | ⟨heq, -⟩⟩)
    · exact .inr (.inl hid)
    · exact .inr (.inr ⟨k', hk'⟩)
    · cases heq
      exact .inl rfl

theorem assign_number (hnew : IsNew run k) :
    Recorded reserved (run ++ [⟨k, none⟩]) (answer reserved run ⟨k, none⟩).allocator := by
  have hanswer := answer_number (h.find?_eq_none.mpr hnew)
  have hid := congrArg Assigned.id hanswer
  obtain ⟨hle, -, hbarred⟩ :=
    nextFree_range (after reserved run).reserved (after reserved run).reserved.length (after reserved run).next
  rw [hanswer]
  refine h.enter hnew (Nat.le_succ_of_le hle) (fun id' hwanted => nomatch hwanted)
    (fun _ => ⟨_, Nat.lt_succ_self _, rfl, hid⟩) (fun id' => ?_) fun m hm hlt => ?_
  · simp [h.barred, chose_concat]
  · rcases Nat.lt_succ_iff_lt_or_eq.mp hlt with hlt | rfl
    · refine .inr ⟨run, ⟨k, none⟩, List.prefix_rfl, ?_, (h.barred _).mp (hbarred m hm hlt)⟩
      rw [hanswer]
      exact mem_passed_iff.mpr ⟨hm, hlt⟩
    · exact .inl ⟨k, counted_concat.mpr (.inr ⟨rfl, hnew, hid⟩)⟩

theorem exists_find? {r : Request κ} (hold : ¬ IsNew run r.key) :
    ∃ id, (after reserved run).find? r.key = some id ∧
      answer reserved run r = ⟨id, [], after reserved run⟩ := by
  obtain ⟨id, hfind⟩ := Option.ne_none_iff_exists'.mp (mt h.find?_eq_none.mp hold)
  exact ⟨id, hfind, answer_known hfind⟩

/-- **Step.** An allocator that holds what came of some requests does so after one more. -/
theorem assign (r : Request κ) : Recorded reserved (run ++ [r]) (after reserved (run ++ [r])) := by
  rw [after_concat]
  by_cases hnew : IsNew run r.key
  · obtain ⟨k, wanted⟩ := r
    cases wanted with
    | some id => exact h.assign_choice hnew id
    | none => exact h.assign_number hnew
  · obtain ⟨id, -, hanswer⟩ := h.exists_find? hnew
    rw [hanswer]
    exact h.keep hnew

end Recorded

/-- **Run.** After any requests the allocator holds what came of them. -/
theorem recorded_after (reserved : List String) (run : List (Request κ)) :
    Recorded reserved run (after reserved run) := by
  induction run using List.reverseRecOn with
  | nil => exact recorded_nil
  | append_singleton run r ih => exact ih.assign r

/-! ### Ids in the order in which they are given -/

theorem find?_of_chose {k : κ} {id : String} (h : Chose run k id) :
    (after reserved run).find? k = some id :=
  (recorded_after reserved run).chosen k id h

theorem find?_of_counted {k : κ} {n : ℕ} (h : Counted reserved run k n) :
    (after reserved run).find? k = some (numeral n) :=
  ((recorded_after reserved run).counted k n h).1

/-- The answer is what the allocator holds from then on. -/
theorem find?_after_concat (r : Request κ) :
    (after reserved (run ++ [r])).find? r.key = some (answer reserved run r).id := by
  rw [after_concat]
  exact find?_assign (after reserved run) r.key r.wanted

/-- What the allocator holds for a key is held for ever. -/
theorem find?_after_of_prefix {before : List (Request κ)} (hp : before <+: run) {k : κ} {id : String}
    (hfind : (after reserved before).find? k = some id) : (after reserved run).find? k = some id := by
  rcases (recorded_after reserved before).origin k id hfind with hk | ⟨n, hk, rfl⟩
  · exact find?_of_chose (hk.mono hp)
  · exact find?_of_counted (hk.mono hp)

/-- A new key that leaves the choice to the allocator gets a number that was not reached before and is
nobody's choice. -/
theorem exists_number (reserved : List String) {k : κ} (hnew : IsNew run k) :
    ∃ n, (answer reserved run ⟨k, none⟩).id = numeral n ∧ numeral n ∉ reserved ∧
      (∀ k', ¬ Chose run k' (numeral n)) ∧ ∀ k' m, Counted reserved run k' m → m < n := by
  have h := recorded_after reserved run
  obtain ⟨hle, -, -⟩ :=
    nextFree_range (after reserved run).reserved (after reserved run).reserved.length (after reserved run).next
  have hfree := nextFree_not_mem (after reserved run).reserved (after reserved run).next
  rw [h.barred, not_or, not_exists] at hfree
  refine ⟨_, congrArg Assigned.id (answer_number (h.find?_eq_none.mpr hnew)), hfree.1, hfree.2, fun k' m hm => ?_⟩
  obtain ⟨-, hlt⟩ := h.counted k' m hm
  omega

/-- **Order.** In every run each key keeps the id of its first request; that is the one it chose if it chose
one, and otherwise a number; and the numbers go up, avoid what was reserved or chosen before, and leave out
nothing else. -/
theorem orderly_of_requests (reserved : List String) (run : List (Request κ)) : Orderly reserved run where
  stable := by
    intro first before k w w' hfirst hnew hrun
    have hanswer : (after reserved (first ++ [⟨k, w⟩])).find? k = _ := find?_after_concat ⟨k, w⟩
    have hfind := find?_after_of_prefix hfirst hanswer
    rw [answer_known (r := ⟨k, w'⟩) hfind]
    exact ⟨rfl, rfl⟩
  chosen := by
    intro before k id hrun hnew
    rw [answer_choice ((recorded_after reserved before).find?_eq_none.mpr hnew)]
  counted := fun before k _ hnew => exists_number reserved hnew
  gapless := by
    intro k n hk m hm
    have h := recorded_after reserved run
    obtain ⟨-, hlt⟩ := h.counted k n hk
    exact h.below m (by omega)
  size := by
    have h := recorded_after reserved run
    have hkeys : (run.map (·.key)).toFinset = ((after reserved run).ids.map (·.1)).toFinset := by
      ext k
      rw [List.mem_toFinset, List.mem_toFinset, h.keys, IsNew, not_not]
    rw [hkeys, List.toFinset_card_of_nodup h.once, List.length_map]
    rfl

/-! ### Keys that share an id -/

/-- No two keys are given the same number. -/
theorem Counted.eq {k k' : κ} {n : ℕ} (h : Counted reserved run k n) (h' : Counted reserved run k' n) :
    k = k' := by
  by_contra hne
  have key : ∀ {k k' : κ} {before before' : List (Request κ)}, before ++ [⟨k, none⟩] <+: before' →
      IsNew before k → (answer reserved before ⟨k, none⟩).id = numeral n → IsNew before' k' →
      (answer reserved before' ⟨k', none⟩).id ≠ numeral n := by
    intro k k' before before' hp hnew hid hnew' hid'
    obtain ⟨m, hm, -, -, hlt⟩ := exists_number reserved hnew'
    obtain rfl := numeral_injective (hm.symm.trans hid')
    exact (hlt k m ⟨before, hp, hnew, hid⟩).false
  obtain ⟨before, hb, hnew, hid⟩ := h
  obtain ⟨before', hb', hnew', hid'⟩ := h'
  rcases prefix_cases hb hb' (by simpa using hne) with hp | hp
  · exact key hp hnew hid hnew' hid'
  · exact key hp hnew' hid' hnew hid

/-- A key that shares its number with one that chose it had the number first. -/
theorem Counted.takes {k k' : κ} {n : ℕ} (h : Counted reserved run k n) (h' : Chose run k' (numeral n)) :
    Takes reserved run k k' := by
  obtain ⟨before, hb, hnew, hid⟩ := h
  obtain ⟨before', hb', hnew'⟩ := h'
  rcases prefix_cases hb hb' (by simp) with hp | hp
  · exact ⟨before', n, hb', hnew', before, hp, hnew, hid⟩
  · obtain ⟨m, hm, -, hfree, -⟩ := exists_number reserved hnew
    obtain rfl := numeral_injective (hm.symm.trans hid)
    exact absurd ⟨before', hp, hnew'⟩ (hfree k')

theorem Takes.shared {k k' : κ} (h : Takes reserved run k k') :
    ∃ id, (after reserved run).find? k = some id ∧ (after reserved run).find? k' = some id := by
  obtain ⟨before, n, hb, hnew, hk⟩ := h
  refine ⟨numeral n, find?_of_counted (hk.mono ((List.prefix_append _ _).trans hb)), ?_⟩
  exact find?_of_chose ⟨before, hb, hnew⟩

/-- What is reserved from the start is not taken from anyone. -/
theorem Takes.exists_wanted {k k' : κ} (h : Takes reserved run k k') :
    ∃ id, ⟨k', some id⟩ ∈ run ∧ id ∉ reserved := by
  obtain ⟨before, n, hb, -, before', -, hnew, hid⟩ := h
  obtain ⟨m, hm, hfree, -⟩ := exists_number reserved hnew
  obtain rfl := numeral_injective (hm.symm.trans hid)
  exact ⟨numeral m, hb.subset (by simp), hfree⟩

/-- **Shared ids.** Let no two keys ask for the same id.  Then two keys end up with one id exactly if one of
them, when it was new, chose the number that the other had been given; and that cannot be if every id that
is asked for was reserved from the start. -/
theorem shared_iff_takes (reserved : List String)
    (hchoice : ∀ k k' id, ⟨k, some id⟩ ∈ run → ⟨k', some id⟩ ∈ run → k = k') :
    (∀ k k', k ≠ k' → ((∃ id, (after reserved run).find? k = some id ∧
        (after reserved run).find? k' = some id) ↔ Takes reserved run k k' ∨ Takes reserved run k' k)) ∧
      ((∀ k id, ⟨k, some id⟩ ∈ run → id ∈ reserved) → ∀ k k' id,
        (after reserved run).find? k = some id → (after reserved run).find? k' = some id → k = k') := by
  have hiff : ∀ k k', k ≠ k' → ((∃ id, (after reserved run).find? k = some id ∧
      (after reserved run).find? k' = some id) ↔ Takes reserved run k k' ∨ Takes reserved run k' k) := by
    intro k k' hne
    constructor
    · rintro ⟨id, hfind, hfind'⟩
      have h := recorded_after reserved run
      rcases h.origin k id hfind with hk | ⟨n, hk, rfl⟩
      · rcases h.origin k' id hfind' with hk' | ⟨n, hk', rfl⟩
        · obtain ⟨before, hb, -⟩ := hk
          obtain ⟨before', hb', -⟩ := hk'
          exact absurd (hchoice k k' id (hb.subset (by simp)) (hb'.subset (by simp))) hne
        · exact .inr (hk'.takes hk)
      · rcases h.origin k' _ hfind' with hk' | ⟨m, hk', heq⟩
        · exact .inl (hk.takes hk')
        · obtain rfl := numeral_injective heq
          exact absurd (hk.eq hk') hne
    · rintro (h | h)
      · exact h.shared
      · obtain ⟨id, hfind, hfind'⟩ := h.shared
        exact ⟨id, hfind', hfind⟩
  refine ⟨hiff, fun hreserved k k' id hfind hfind' => ?_⟩
  by_contra hne
  rcases (hiff k k' hne).mp ⟨id, hfind, hfind'⟩ with h | h
  · obtain ⟨id', hmem, hnot⟩ := h.exists_wanted
    exact hnot (hreserved _ _ hmem)
  · obtain ⟨id', hmem, hnot⟩ := h.exists_wanted
    exact hnot (hreserved _ _ hmem)

end Runs

/-- The first key leaves the choice to the allocator, and the second one chooses what the first was given. -/
def laterChoice : List (Request ℕ) := [⟨0, none⟩, ⟨1, some "0"⟩, ⟨2, none⟩, ⟨1, some "7"⟩]

example : (after ["1"] laterChoice).ids = [(0, "0"), (1, "0"), (2, "2")] := by decide

theorem choices_laterChoice (k k' : ℕ) (id : String) (hk : ⟨k, some id⟩ ∈ laterChoice)
    (hk' : ⟨k', some id⟩ ∈ laterChoice) : k = k' := by
  have hall : ∀ q ∈ laterChoice, ∀ r ∈ laterChoice, q.wanted.isSome → q.wanted = r.wanted → q.key = r.key := by
    decide
  exact hall _ hk _ hk' rfl rfl

theorem shared_iff_takes_laterChoice :
    (∀ k k' id, ⟨k, some id⟩ ∈ laterChoice → ⟨k', some id⟩ ∈ laterChoice → k = k') ∧
      (Takes ["1"] laterChoice 0 1 ∨ Takes ["1"] laterChoice 1 0) ∧
        ¬ (Takes ["1"] laterChoice 0 2 ∨ Takes ["1"] laterChoice 2 0) := by
  obtain ⟨hiff, -⟩ := shared_iff_takes ["1"] choices_laterChoice
  refine ⟨choices_laterChoice, (hiff 0 1 (by decide)).mp ⟨"0", by decide, by decide⟩, ?_⟩
  rw [← hiff 0 2 (by decide)]
  rintro ⟨id, hid, hid'⟩
  have hne : (after ["1"] laterChoice).find? 0 ≠ (after ["1"] laterChoice).find? 2 := by decide
  exact hne (hid.trans hid'.symm)

/-- A later choice is not kept apart from a number that was given before. -/
theorem not_distinct_of_laterChoice : ¬ ∀ (reserved : List String) (run : List (Request ℕ)),
    (∀ k k' id, ⟨k, some id⟩ ∈ run → ⟨k', some id⟩ ∈ run → k = k') →
      ∀ k k' id, (after reserved run).find? k = some id → (after reserved run).find? k' = some id → k = k' := by
  intro h
  exact absurd (h ["1"] laterChoice choices_laterChoice 0 1 "0" (by decide) (by decide)) (by decide)

end Allocator

end ViewGraph
