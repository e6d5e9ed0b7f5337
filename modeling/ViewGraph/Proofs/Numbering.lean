import Mathlib.Data.List.Basic
import Mathlib.Data.List.Perm.Subperm
import Mathlib.Data.Nat.Nth
import Mathlib.Data.Set.Finite.List
import Mathlib.Order.Preorder.Finite
import ViewGraph.Allocator

/-!
# Numbering

What the ids of a run of the allocator are.

* `Unclaimed claimed n`: the numeral of `n` is not among the claimed ids.
* `idIn want claimed l k`: the id of `k` when the keys of `l` ask for their ids one after the other.
  A key that wants an id has that one; the `i`-th other key has the `i`-th unclaimed number.
* `Numbered a l`: the allocator `a` has given the keys of `l` these ids.  `Numbered.assign` is the step,
  and `numbered_assignAll` the run.
* `idIn_inj`: if no two keys want the same id, no two keys have the same id.
-/

namespace ViewGraph

theorem numeral_injective : Function.Injective numeral := by
  intro m n h
  have h' : Nat.toDigits 10 m = Nat.toDigits 10 n := by
    simpa [numeral, writeNat, String.ofList_inj] using h
  have := congrArg (Nat.ofDigitChars 10 · 0) h'
  simpa [Nat.ofDigitChars_ten_toDigits] using this

/-- The numeral of a number is not among the claimed ids. -/
def Unclaimed (claimed : List String) (n : ℕ) : Prop := numeral n ∉ claimed

instance (claimed : List String) : DecidablePred (Unclaimed claimed) := fun n =>
  inferInstanceAs (Decidable (numeral n ∉ claimed))

theorem infinite_unclaimed (claimed : List String) : (Set.ofPred (Unclaimed claimed)).Infinite := by
  have hfin : {n | numeral n ∈ claimed}.Finite :=
    (List.finite_toSet claimed).preimage numeral_injective.injOn
  exact hfin.infinite_compl

namespace Allocator

/-! ### The search for a free number -/

theorem nextFree_range (reserved : List String) (fuel n : ℕ) :
    n ≤ (nextFree reserved fuel n).2 ∧ (nextFree reserved fuel n).2 ≤ n + fuel ∧
      ∀ m, n ≤ m → m < (nextFree reserved fuel n).2 → numeral m ∈ reserved := by
  induction fuel generalizing n with
  | zero => exact ⟨le_rfl, le_rfl, fun m h1 h2 => absurd h2 (by simp [nextFree]; omega)⟩
  | succ fuel ih =>
    by_cases h : numeral n ∈ reserved
    · obtain ⟨h1, h2, h3⟩ := ih (n + 1)
      simp only [nextFree, List.contains_iff_mem, h, if_true]
      refine ⟨by omega, by omega, fun m hm hm' => ?_⟩
      by_cases hmn : m = n
      · exact hmn ▸ h
      · exact h3 m (by omega) hm'
    · simp only [nextFree, List.contains_iff_mem, h, if_false]
      exact ⟨le_rfl, by omega, fun m h1 h2 => absurd h2 (by omega)⟩

/-- The search stops at a free number or when it runs out of fuel. -/
theorem nextFree_stop (reserved : List String) (fuel n : ℕ) :
    numeral (nextFree reserved fuel n).2 ∉ reserved ∨ (nextFree reserved fuel n).2 = n + fuel := by
  induction fuel generalizing n with
  | zero => exact .inr rfl
  | succ fuel ih =>
    by_cases h : numeral n ∈ reserved
    · simp only [nextFree, List.contains_iff_mem, h, if_true]
      rcases ih (n + 1) with h' | h'
      · exact .inl h'
      · exact .inr (by omega)
    · exact .inl (by simp [nextFree, h])

/-- **Fuel.** There are no more numbers to pass over than there are reserved ids. -/
theorem nextFree_not_mem (reserved : List String) (n : ℕ) :
    numeral (nextFree reserved reserved.length n).2 ∉ reserved := by
  rcases nextFree_stop reserved reserved.length n with h | hend
  · exact h
  · intro hmem
    obtain ⟨-, -, hpassed⟩ := nextFree_range reserved reserved.length n
    have hsub : (List.range (reserved.length + 1)).map (fun i => numeral (n + i)) ⊆ reserved := by
      intro id hid
      obtain ⟨i, hi, rfl⟩ := List.mem_map.mp hid
      rw [List.mem_range] at hi
      rcases Nat.lt_or_ge (n + i) (nextFree reserved reserved.length n).2 with hlt | hge
      · exact hpassed _ (by omega) hlt
      · have : n + i = (nextFree reserved reserved.length n).2 := by omega
        exact this ▸ hmem
    have hnd : ((List.range (reserved.length + 1)).map fun i => numeral (n + i)).Nodup :=
      List.nodup_range.map fun i j hij => by
        have := numeral_injective hij
        omega
    have hlen := (List.Nodup.subperm hnd hsub).length_le
    simp at hlen

variable {reserved claimed : List String}

/-- The search finds the next unclaimed number. -/
theorem nextFree_eq_nth (hres : ∀ id, id ∈ reserved ↔ id ∈ claimed) (n : ℕ) :
    (nextFree reserved reserved.length n).2 =
        Nat.nth (Unclaimed claimed) (Nat.count (Unclaimed claimed) n) ∧
      Nat.count (Unclaimed claimed) ((nextFree reserved reserved.length n).2 + 1) =
        Nat.count (Unclaimed claimed) n + 1 := by
  obtain ⟨hle, -, hpassed⟩ := nextFree_range reserved reserved.length n
  have hfree : Unclaimed claimed (nextFree reserved reserved.length n).2 := by
    intro h
    exact nextFree_not_mem reserved n ((hres _).mpr h)
  have hcount : Nat.count (Unclaimed claimed) (nextFree reserved reserved.length n).2 =
      Nat.count (Unclaimed claimed) n := by
    obtain ⟨d, hd⟩ := Nat.exists_eq_add_of_le hle
    rw [hd, Nat.count_add]
    have hnone : Nat.count (fun k => Unclaimed claimed (n + k)) d = 0 := by
      refine Nat.count_iff_forall_not.mpr fun k hk hun => ?_
      exact hun ((hres _).mp (hpassed (n + k) (by omega) (by omega)))
    omega
  constructor
  · rw [← hcount, Nat.nth_count hfree]
  · rw [Nat.count_succ, if_pos hfree, hcount]

/-! ### The ids of a run -/

section Run

variable {κ : Type} [DecidableEq κ]

/-- The allocator after some keys asked for their ids, one after the other. -/
def assignAll (want : κ → Option String) (a : Allocator κ) (l : List κ) : Allocator κ :=
  l.foldl (fun a k => (a.assign k (want k)).allocator) a

/-- The distinct keys of a list that want no id of their own, in the order of their first places. -/
def unnamed (want : κ → Option String) (l : List κ) : List κ :=
  l.eraseDups.filter fun k => (want k).isNone

/-- The id of a key when the keys of a list ask for their ids one after the other: the one that it
wants, or else the unclaimed number at its place among the keys that want none. -/
noncomputable def idIn (want : κ → Option String) (claimed : List String) (l : List κ) (k : κ) :
    String :=
  match want k with
  | some id => id
  | none => numeral (Nat.nth (Unclaimed claimed) ((unnamed want l).idxOf k))

/-- The allocator has given exactly the keys of a list their ids. -/
structure Numbered (want : κ → Option String) (claimed : List String) (a : Allocator κ)
    (l : List κ) : Prop where
  find_mem : ∀ k ∈ l, a.find? k = some (idIn want claimed l k)
  find_not_mem : ∀ k, k ∉ l → a.find? k = none
  count : Nat.count (Unclaimed claimed) a.next = (unnamed want l).length
  reserved : ∀ id, id ∈ a.reserved ↔ id ∈ claimed

variable {want : κ → Option String} {claimed : List String}

theorem eraseDups_concat (l : List κ) (k : κ) :
    (l ++ [k]).eraseDups = if k ∈ l then l.eraseDups else l.eraseDups ++ [k] := by
  rw [List.eraseDups_append]
  by_cases h : k ∈ l <;> simp [List.removeAll, h, List.eraseDups_cons]

theorem unnamed_concat (l : List κ) (k : κ) :
    unnamed want (l ++ [k]) =
      if k ∈ l ∨ (want k).isSome then unnamed want l else unnamed want l ++ [k] := by
  unfold unnamed
  rw [eraseDups_concat]
  by_cases h : k ∈ l
  · simp [h]
  · cases hw : want k <;> simp [h, hw, List.filter_append]

theorem mem_unnamed {l : List κ} {k : κ} : k ∈ unnamed want l ↔ k ∈ l ∧ want k = none := by
  simp [unnamed, List.mem_eraseDups]

/-- Keys that come later change no id. -/
theorem idIn_of_prefix {l l' : List κ} (hp : l <+: l') {k : κ} (hk : k ∈ l) :
    idIn want claimed l' k = idIn want claimed l k := by
  unfold idIn
  cases hw : want k with
  | some id => rfl
  | none =>
    obtain ⟨t, rfl⟩ := hp
    have hmem : k ∈ unnamed want l := mem_unnamed.mpr ⟨hk, hw⟩
    have happ : unnamed want (l ++ t) =
        unnamed want l ++ ((t.removeAll l).eraseDups.filter fun k => (want k).isNone) := by
      simp only [unnamed, List.eraseDups_append, List.filter_append]
    simp only [happ, List.idxOf_append_of_mem hmem]

theorem numbered_ofReserved : Numbered want claimed (ofReserved claimed) [] where
  find_mem := fun k hk => absurd hk List.not_mem_nil
  find_not_mem := fun k _ => rfl
  count := by simp [ofReserved, unnamed]
  reserved := fun _ => Iff.rfl

theorem find?_append {a : Allocator κ} {k k' : κ} {id : String} {next : ℕ}
    {reserved : List String} (h : a.find? k = none) :
    (⟨next, a.ids ++ [(k, id)], reserved⟩ : Allocator κ).find? k' =
      if k' = k then some id else a.find? k' := by
  unfold find? at *
  rw [List.lookup_append]
  by_cases hk : k' = k
  · subst hk
    simp [h]
  · simp [hk, List.lookup_cons, beq_eq_false_iff_ne.mpr hk]

/-- A new key is entered at the end of the table, with the id that it is given. -/
theorem exists_assign_eq {a : Allocator κ} {k : κ} (hnone : a.find? k = none) (wanted : Option String) :
    ∃ next reserved,
      (a.assign k wanted).allocator = ⟨next, a.ids ++ [(k, (a.assign k wanted).id)], reserved⟩ := by
  cases wanted <;>
    simp only [Allocator.assign, hnone] <;> exact ⟨_, _, rfl⟩

/-- The allocator holds the id that it has given. -/
theorem find?_assign (a : Allocator κ) (k : κ) (wanted : Option String) :
    (a.assign k wanted).allocator.find? k = some (a.assign k wanted).id := by
  cases hfind : a.find? k with
  | some id => rw [assign_of_find? hfind, hfind]
  | none =>
    obtain ⟨next, reserved, heq⟩ := exists_assign_eq hfind wanted
    rw [heq, find?_append hfind, if_pos rfl]

/-- An id that was given is kept when others are given. -/
theorem find?_assign_of_find? {a : Allocator κ} {k : κ} {id : String} (hfind : a.find? k = some id) (k' : κ)
    (wanted : Option String) : (a.assign k' wanted).allocator.find? k = some id := by
  cases hfind' : a.find? k' with
  | some id' => rw [assign_of_find? hfind', hfind]
  | none =>
    have hne : k ≠ k' := by
      rintro rfl
      simp [hfind] at hfind'
    obtain ⟨next, reserved, heq⟩ := exists_assign_eq hfind' wanted
    rw [heq, find?_append hfind', if_neg hne, hfind]

/-- **Step.** A key that asks for its id gets the one that is its own from then on. -/
theorem Numbered.assign {a : Allocator κ} {l : List κ} (h : Numbered want claimed a l) {k : κ}
    (hk : ∀ id, want k = some id → id ∈ claimed) :
    (a.assign k (want k)).id = idIn want claimed (l ++ [k]) k ∧
      Numbered want claimed (a.assign k (want k)).allocator (l ++ [k]) := by
  have hold : ∀ k' ∈ l, idIn want claimed (l ++ [k]) k' = idIn want claimed l k' :=
    fun k' hk' => idIn_of_prefix (List.prefix_append l [k]) hk'
  by_cases hmem : k ∈ l
  · have hf := h.find_mem k hmem
    rw [assign_of_find? hf]
    refine ⟨(hold k hmem).symm, ⟨fun k' hk' => ?_, fun k' hk' => ?_, ?_, h.reserved⟩⟩
    · have hk'l : k' ∈ l := by
        rcases List.mem_append.mp hk' with hk' | hk'
        · exact hk'
        · exact List.mem_singleton.mp hk' ▸ hmem
      rw [hold k' hk'l]
      exact h.find_mem k' hk'l
    · exact h.find_not_mem k' fun hk'l => hk' (List.mem_append_left _ hk'l)
    · rw [unnamed_concat, if_pos (.inl hmem)]
      exact h.count
  · have hnone := h.find_not_mem k hmem
    -- both kinds of new ids are written at the end of the table
    have entry : ∀ (id : String) (next : ℕ) (reserved : List String),
        id = idIn want claimed (l ++ [k]) k →
        Nat.count (Unclaimed claimed) next = (unnamed want (l ++ [k])).length →
        (∀ id, id ∈ reserved ↔ id ∈ claimed) →
        Numbered want claimed ⟨next, a.ids ++ [(k, id)], reserved⟩ (l ++ [k]) := by
      intro id next reserved hid hcount hres
      refine ⟨fun k' hk' => ?_, fun k' hk' => ?_, hcount, hres⟩
      · rw [find?_append hnone]
        by_cases hkk : k' = k
        · rw [if_pos hkk, hkk, hid]
        · have hk'l : k' ∈ l := by simpa [hkk] using hk'
          rw [if_neg hkk, hold k' hk'l]
          exact h.find_mem k' hk'l
      · have hkk : k' ≠ k := fun e => hk' (by simp [e])
        rw [find?_append hnone, if_neg hkk]
        exact h.find_not_mem k' fun hk'l => hk' (List.mem_append_left _ hk'l)
    cases hw : want k with
    | some id =>
      have hidIn : id = idIn want claimed (l ++ [k]) k := by simp [idIn, hw]
      simp only [Allocator.assign, hnone]
      refine ⟨hidIn, entry id a.next (id :: a.reserved) hidIn ?_ fun id' => ?_⟩
      · rw [unnamed_concat, if_pos (.inr (by simp [hw]))]
        exact h.count
      · rw [List.mem_cons, h.reserved id']
        exact ⟨fun h' => h'.elim (fun e => e ▸ hk id hw) fun h' => h', .inr⟩
    | none =>
      obtain ⟨hnth, hsucc⟩ := nextFree_eq_nth h.reserved a.next
      have hun : unnamed want (l ++ [k]) = unnamed want l ++ [k] := by
        rw [unnamed_concat, if_neg (by simp [hmem, hw])]
      have hnotun : k ∉ unnamed want l := fun hu => hmem (mem_unnamed.mp hu).1
      have hidx : (unnamed want (l ++ [k])).idxOf k = (unnamed want l).length := by
        rw [hun, List.idxOf_append_of_notMem hnotun]
        simp
      have hidIn : numeral (nextFree a.reserved a.reserved.length a.next).2 =
          idIn want claimed (l ++ [k]) k := by
        simp only [idIn, hw, hidx, hnth, h.count]
      simp only [Allocator.assign, takeNext, hnone]
      refine ⟨hidIn, entry _ _ _ hidIn ?_ h.reserved⟩
      rw [hsucc, h.count, hun, List.length_append, List.length_singleton]

/-- **Run.** The allocator after some keys asked for their ids has given them these. -/
theorem numbered_assignAll {l : List κ} (hl : ∀ k ∈ l, ∀ id, want k = some id → id ∈ claimed) :
    Numbered want claimed (assignAll want (ofReserved claimed) l) l := by
  induction l using List.reverseRecOn with
  | nil => exact numbered_ofReserved
  | append_singleton l k ih =>
    have hn := ih fun k' hk' => hl k' (List.mem_append_left _ hk')
    rw [assignAll, List.foldl_append]
    exact (hn.assign (hl k (by simp))).2

/-! ### Distinct keys have distinct ids -/

theorem idIn_inj {l : List κ} (hclaim : ∀ k ∈ l, ∀ id, want k = some id → id ∈ claimed)
    (hwant : ∀ k ∈ l, ∀ k' ∈ l, ∀ id, want k = some id → want k' = some id → k = k')
    {k k' : κ} (hk : k ∈ l) (hk' : k' ∈ l)
    (heq : idIn want claimed l k = idIn want claimed l k') : k = k' := by
  have hfree : ∀ i, numeral (Nat.nth (Unclaimed claimed) i) ∉ claimed :=
    fun i => Nat.nth_mem_of_infinite (infinite_unclaimed claimed) i
  unfold idIn at heq
  cases hw : want k with
  | some id =>
    cases hw' : want k' with
    | some id' =>
      simp only [hw, hw'] at heq
      exact hwant k hk k' hk' id hw (heq ▸ hw')
    | none =>
      simp only [hw, hw'] at heq
      exact absurd (heq ▸ hclaim k hk id hw) (hfree _)
  | none =>
    cases hw' : want k' with
    | some id' =>
      simp only [hw, hw'] at heq
      exact absurd (heq ▸ hclaim k' hk' id' hw') (hfree _)
    | none =>
      simp only [hw, hw'] at heq
      have hidx := Nat.nth_injective (infinite_unclaimed claimed) (numeral_injective heq)
      exact (List.idxOf_inj (mem_unnamed.mpr ⟨hk, hw⟩)).mp hidx

end Run

end Allocator

end ViewGraph
