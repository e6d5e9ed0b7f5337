import Mathlib.Data.List.Nodup
import ViewGraph.Proofs.Claims
import ViewGraph.Record
import ViewGraph.Value.Plain

/-!
# JSON data

What a JSON document can hold: nulls, truth values, numbers, texts, lists of such data, and tables of them
in which no name is given twice.

* `Value.isJson number`: these data, with numbers as far as `number` admits them.
* `Value.isDocument`: all of them.  Readers of JSON admit infinities too, and what is no number.
* `Value.isStrictDocument`: those with finite numbers only.
* `Value.isShortDocument`: those in which every whole number can be shown.
* `Value.finitePart`: data with a null in the place of every number that is not finite.
* `plain_of_isJson`: the plain data of JSON data are their finite part.
* `finitePart_eq_self_iff`: data are their finite part exactly if every number in them is finite.
-/

namespace ViewGraph

/-! ### Definitions -/

namespace Number

/-- Is a number finite? A whole number is. -/
def isFinite : Number → Bool
  | whole _ => true
  | real x => x.isFinite

def isWhole : Number → Bool
  | whole _ => true
  | real _ => false

/-- Can a number be shown? A whole number with too many digits cannot. -/
def isShown : Number → Bool
  | whole n => (writeNat n.natAbs).length ≤ maxDigits
  | real _ => true

end Number

namespace Value

mutual

/-- Is a value JSON data, with numbers as far as `number` admits them? -/
def isJson (number : Number → Bool) : Value → Bool
  | null => true
  | bool _ => true
  | int n => number (.whole n)
  | float x => number (.real x)
  | str _ => true
  | list items => allJson number items
  | dict members => decide (members.map (·.1)).Nodup && allMembersJson number members
  | _ => false

def allJson (number : Number → Bool) : List Value → Bool
  | [] => true
  | v :: rest => isJson number v && allJson number rest

def allMembersJson (number : Number → Bool) : List (String × Value) → Bool
  | [] => true
  | (_, v) :: rest => isJson number v && allMembersJson number rest

end

/-- Is a value the data of a JSON document? -/
def isDocument (v : Value) : Bool := v.isJson fun _ => true

/-- Is a value the data of a JSON document in which every number is finite? -/
def isStrictDocument (v : Value) : Bool := v.isJson Number.isFinite

/-- Is a value the data of a JSON document in which every whole number can be shown? -/
def isShortDocument (v : Value) : Bool := v.isJson Number.isShown

mutual

/-- Data with a null in the place of every number that is not finite. -/
def finitePart : Value → Value
  | float x => if x.isFinite then float x else null
  | list items => list (finiteParts items)
  | dict members => dict (finiteMembers members)
  | v => v

def finiteParts : List Value → List Value
  | [] => []
  | v :: rest => finitePart v :: finiteParts rest

def finiteMembers : List (String × Value) → List (String × Value)
  | [] => []
  | (name, v) :: rest => (name, finitePart v) :: finiteMembers rest

end

/-! ### Parts -/

variable {number : Number → Bool}

theorem allJson_iff {items : List Value} :
    allJson number items = true ↔ ∀ v ∈ items, v.isJson number = true := by
  induction items with
  | nil => simp [allJson]
  | cons v rest ih => simp [allJson, ih]

theorem allMembersJson_iff {members : List (String × Value)} :
    allMembersJson number members = true ↔ ∀ a ∈ members, a.2.isJson number = true := by
  induction members with
  | nil => simp [allMembersJson]
  | cons a rest ih =>
    obtain ⟨name, v⟩ := a
    simp [allMembersJson, ih]

theorem isJson_list {items : List Value} :
    (list items).isJson number = true ↔ ∀ v ∈ items, v.isJson number = true := by
  rw [isJson, allJson_iff]

theorem isJson_dict {members : List (String × Value)} :
    (dict members).isJson number = true ↔
      (members.map (·.1)).Nodup ∧ ∀ a ∈ members, a.2.isJson number = true := by
  rw [isJson, Bool.and_eq_true, allMembersJson_iff, decide_eq_true_iff]

/-- A member of JSON data is JSON data. -/
theorem isJson_of_find? {members : List (String × Value)} (h : (dict members).isJson number = true)
    {name : String} {v : Value} (hv : Table.find? name members = some v) : v.isJson number = true :=
  (isJson_dict.mp h).2 (name, v) (Table.mem_of_find? hv)

variable {other admitted : Number → Bool}

mutual

/-- Numbers are admitted in JSON data if both of two tests that all of them pass admit them. -/
theorem isJson_both (h : ∀ n, number n = true → other n = true → admitted n = true) :
    ∀ v : Value, v.isJson number = true → v.isJson other = true → v.isJson admitted = true
  | null, _, _ => rfl
  | bool _, _, _ => rfl
  | int n, hv, hv' => h (.whole n) hv hv'
  | float x, hv, hv' => h (.real x) hv hv'
  | str _, _, _ => rfl
  | list items, hv, hv' => allJson_both h items hv hv'
  | dict members, hv, hv' => by
    obtain ⟨hnames, hmembers⟩ := Bool.and_eq_true_iff.mp hv
    obtain ⟨-, hmembers'⟩ := Bool.and_eq_true_iff.mp hv'
    exact Bool.and_eq_true_iff.mpr ⟨hnames, allMembersJson_both h members hmembers hmembers'⟩
  | tuple _, hv, _ => by simp [isJson] at hv
  | wrapped _ _, hv, _ => by simp [isJson] at hv
  | action _ _, hv, _ => by simp [isJson] at hv
  | page _ _, hv, _ => by simp [isJson] at hv
  | style _ _ _, hv, _ => by simp [isJson] at hv
  | fragment, hv, _ => by simp [isJson] at hv
  | component _, hv, _ => by simp [isJson] at hv
  | .element _, hv, _ => by simp [isJson] at hv

theorem allJson_both (h : ∀ n, number n = true → other n = true → admitted n = true) :
    ∀ vs : List Value, allJson number vs = true → allJson other vs = true → allJson admitted vs = true
  | [], _, _ => rfl
  | v :: rest, hvs, hvs' => by
    obtain ⟨hv, hrest⟩ := Bool.and_eq_true_iff.mp hvs
    obtain ⟨hv', hrest'⟩ := Bool.and_eq_true_iff.mp hvs'
    exact Bool.and_eq_true_iff.mpr ⟨isJson_both h v hv hv', allJson_both h rest hrest hrest'⟩

theorem allMembersJson_both (h : ∀ n, number n = true → other n = true → admitted n = true) :
    ∀ ms : List (String × Value), allMembersJson number ms = true → allMembersJson other ms = true →
      allMembersJson admitted ms = true
  | [], _, _ => rfl
  | (_, v) :: rest, hms, hms' => by
    obtain ⟨hv, hrest⟩ := Bool.and_eq_true_iff.mp hms
    obtain ⟨hv', hrest'⟩ := Bool.and_eq_true_iff.mp hms'
    exact Bool.and_eq_true_iff.mpr ⟨isJson_both h v hv hv', allMembersJson_both h rest hrest hrest'⟩

end

/-- JSON data are JSON data wherever all their numbers are admitted. -/
theorem isJson_mono (h : ∀ n, number n = true → admitted n = true) (v : Value)
    (hv : v.isJson number = true) : v.isJson admitted = true :=
  isJson_both (fun n hn _ => h n hn) v hv hv

/-! ### Plain data -/

section

variable (element : Handle → Except DumpError Value)

mutual

/-- **Plain data.** The plain data of JSON data are their finite part. -/
theorem plain_of_isJson : ∀ v : Value, v.isJson number = true → v.plain false element = .ok v.finitePart
  | null, _ => rfl
  | bool _, _ => rfl
  | int _, _ => rfl
  | float x, _ => by simp [plain, finitePart]
  | str _, _ => rfl
  | list items, h => by
    rw [plain, plains_of_allJson items (by simpa [isJson] using h), finitePart]
    rfl
  | dict members, h => by
    obtain ⟨-, hmembers⟩ : (members.map (·.1)).Nodup ∧ allMembersJson number members = true := by
      simpa [isJson] using h
    rw [plain, plainMembers_of_allMembersJson members hmembers, finitePart]
    rfl
  | tuple _, h => by simp [isJson] at h
  | wrapped _ _, h => by simp [isJson] at h
  | action _ _, h => by simp [isJson] at h
  | page _ _, h => by simp [isJson] at h
  | style _ _ _, h => by simp [isJson] at h
  | fragment, h => by simp [isJson] at h
  | component _, h => by simp [isJson] at h
  | .element _, h => by simp [isJson] at h

theorem plains_of_allJson : ∀ vs : List Value, allJson number vs = true →
    plains false element vs = .ok (finiteParts vs)
  | [], _ => rfl
  | v :: rest, h => by
    obtain ⟨hv, hrest⟩ : v.isJson number = true ∧ allJson number rest = true := by
      simpa [allJson] using h
    rw [plains, plain_of_isJson v hv, plains_of_allJson rest hrest]
    rfl

theorem plainMembers_of_allMembersJson : ∀ ms : List (String × Value), allMembersJson number ms = true →
    plainMembers false element ms = .ok (finiteMembers ms)
  | [], _ => rfl
  | (name, v) :: rest, h => by
    obtain ⟨hv, hrest⟩ : v.isJson number = true ∧ allMembersJson number rest = true := by
      simpa [allMembersJson] using h
    rw [plainMembers, plain_of_isJson v hv, plainMembers_of_allMembersJson rest hrest]
    rfl

end

end

/-! ### Finite parts -/

theorem names_finiteMembers (members : List (String × Value)) :
    (finiteMembers members).map (·.1) = members.map (·.1) := by
  induction members with
  | nil => rfl
  | cons a rest ih => rw [finiteMembers, List.map_cons, List.map_cons, ih]

mutual

/-- The finite part of JSON data is JSON data wherever finite numbers are admitted. -/
theorem isJson_finitePart (hfinite : ∀ n, number n = true → n.isFinite = true → admitted n = true) :
    ∀ v : Value, v.isJson number = true → v.finitePart.isJson admitted = true
  | null, _ => rfl
  | bool _, _ => rfl
  | int n, h => hfinite (.whole n) h rfl
  | float x, h => by
    rw [finitePart]
    split_ifs with hx
    · exact hfinite (.real x) h hx
    · rfl
  | str _, _ => rfl
  | list items, h => by
    rw [finitePart, isJson]
    exact allJson_finiteParts hfinite items (by simpa [isJson] using h)
  | dict members, h => by
    obtain ⟨hnames, hmembers⟩ : (members.map (·.1)).Nodup ∧ allMembersJson number members = true := by
      simpa [isJson] using h
    rw [finitePart, isJson, names_finiteMembers, allMembersJson_finiteMembers hfinite members hmembers]
    simpa using hnames
  | tuple _, h => by simp [isJson] at h
  | wrapped _ _, h => by simp [isJson] at h
  | action _ _, h => by simp [isJson] at h
  | page _ _, h => by simp [isJson] at h
  | style _ _ _, h => by simp [isJson] at h
  | fragment, h => by simp [isJson] at h
  | component _, h => by simp [isJson] at h
  | .element _, h => by simp [isJson] at h

theorem allJson_finiteParts (hfinite : ∀ n, number n = true → n.isFinite = true → admitted n = true) :
    ∀ vs : List Value, allJson number vs = true → allJson admitted (finiteParts vs) = true
  | [], _ => rfl
  | v :: rest, h => by
    obtain ⟨hv, hrest⟩ : v.isJson number = true ∧ allJson number rest = true := by
      simpa [allJson] using h
    rw [finiteParts, allJson, isJson_finitePart hfinite v hv, allJson_finiteParts hfinite rest hrest]
    rfl

theorem allMembersJson_finiteMembers (hfinite : ∀ n, number n = true → n.isFinite = true → admitted n = true) :
    ∀ ms : List (String × Value), allMembersJson number ms = true →
      allMembersJson admitted (finiteMembers ms) = true
  | [], _ => rfl
  | (name, v) :: rest, h => by
    obtain ⟨hv, hrest⟩ : v.isJson number = true ∧ allMembersJson number rest = true := by
      simpa [allMembersJson] using h
    rw [finiteMembers, allMembersJson, isJson_finitePart hfinite v hv,
      allMembersJson_finiteMembers hfinite rest hrest]
    rfl

end

mutual

/-- Data in which every number is finite are their finite part. -/
theorem finitePart_of_isStrictDocument : ∀ v : Value, v.isJson Number.isFinite = true → v.finitePart = v
  | null, _ => rfl
  | bool _, _ => rfl
  | int _, _ => rfl
  | float x, h => by
    have hfinite : x.isFinite = true := h
    rw [finitePart, if_pos hfinite]
  | str _, _ => rfl
  | list items, h => by rw [finitePart, finiteParts_of_allJson items (by simpa [isJson] using h)]
  | dict members, h => by
    obtain ⟨-, hmembers⟩ : (members.map (·.1)).Nodup ∧
        allMembersJson Number.isFinite members = true := by simpa [isJson] using h
    rw [finitePart, finiteMembers_of_allMembersJson members hmembers]
  | tuple _, _ => rfl
  | wrapped _ _, _ => rfl
  | action _ _, _ => rfl
  | page _ _, _ => rfl
  | style _ _ _, _ => rfl
  | fragment, _ => rfl
  | component _, _ => rfl
  | .element _, _ => rfl

theorem finiteParts_of_allJson : ∀ vs : List Value, allJson Number.isFinite vs = true → finiteParts vs = vs
  | [], _ => rfl
  | v :: rest, h => by
    obtain ⟨hv, hrest⟩ : v.isJson Number.isFinite = true ∧ allJson Number.isFinite rest = true := by
      simpa [allJson] using h
    rw [finiteParts, finitePart_of_isStrictDocument v hv, finiteParts_of_allJson rest hrest]

theorem finiteMembers_of_allMembersJson : ∀ ms : List (String × Value),
    allMembersJson Number.isFinite ms = true → finiteMembers ms = ms
  | [], _ => rfl
  | (name, v) :: rest, h => by
    obtain ⟨hv, hrest⟩ : v.isJson Number.isFinite = true ∧
        allMembersJson Number.isFinite rest = true := by simpa [allMembersJson] using h
    rw [finiteMembers, finitePart_of_isStrictDocument v hv, finiteMembers_of_allMembersJson rest hrest]

end

/-- Every number in JSON data is finite exactly if the data are their finite part. -/
theorem finitePart_eq_self_iff {v : Value} (hv : v.isJson number = true) :
    v.finitePart = v ↔ v.isStrictDocument = true := by
  constructor
  · intro h
    rw [isStrictDocument, ← h]
    exact isJson_finitePart (fun _ _ hn => hn) v hv
  · exact finitePart_of_isStrictDocument v

end Value

end ViewGraph
