import ViewGraph.Document.Text
import ViewGraph.Proofs.JsonBrackets

/-!
# Written text reads back

Data without floating-point numbers, and without numbers that have too many digits, are written in ASCII, and the
text is read as the data, under every layout whose line breaks are spaces.

* `Fits indent data`: the indentations under which data have a text.
* `exists_readsAs`: what the writer makes of a value is read as the value.
* `written_reads_back`: the text of data is read as the data.
-/

namespace ViewGraph

/-! ### Definitions -/

/-- An indentation fits data: it is null or a number within bounds, or the data are a text, which needs none. -/
def Fits (indent data : Value) : Prop := (∃ s, data = .str s) ∨ indent.IsIndent

namespace Json

/-! ### Leaves -/

/-- What is read as a leaf, if it is no string and opens no bracket. -/
theorem readsAs_leaf {c : Char} {cs : List Char} {v : Value} (hchars : ∀ d ∈ c :: cs, IsText d)
    (hc : isBlank c = false ∧ c ∉ ['"', '[', '\x7b', ']', '\x7d'])
    (hread : ∀ rest, EndsNumber rest → readLeaf (c :: cs ++ rest) = .ok (v, rest)) : ReadsAs (c :: cs) v where
  chars := hchars
  begins := ⟨c, cs, rfl, hc.1, fun h => hc.2 (by simp [h]), fun h => hc.2 (by simp [h])⟩
  reads := by
    intro fuel rest hrest hfuel
    obtain ⟨fuel, rfl⟩ := Nat.exists_eq_add_one_of_ne_zero (n := fuel) (by simp at hfuel; omega)
    have hquote : c ≠ '"' := fun h => hc.2 (by simp [h])
    have hbracket : c ≠ '[' := fun h => hc.2 (by simp [h])
    have hbrace : c ≠ '\x7b' := fun h => hc.2 (by simp [h])
    rw [List.cons_append, readValue, if_neg hquote, if_neg hbracket, if_neg hbrace]
    exact hread rest hrest

theorem isText_of_isDigit {c : Char} (hc : c.isDigit = true) : IsText c := by
  rw [Char.isDigit, Bool.and_eq_true, decide_eq_true_iff, decide_eq_true_iff] at hc
  have hlow : 48 ≤ c.toNat := hc.1
  have hhigh : c.toNat ≤ 57 := hc.2
  exact .inr ⟨by omega, by omega⟩

/-- A digit is no blank, no quote and no bracket. -/
theorem not_opening_of_isDigit {c : Char} (hc : c.isDigit = true) :
    isBlank c = false ∧ c ∉ ['"', '[', '\x7b', ']', '\x7d'] := by
  have hne : ∀ d ∈ [' ', '\t', '\n', '\r', '"', '[', '\x7b', ']', '\x7d'], d ≠ c :=
    ne_of_isDigit (by decide) hc
  simp [eq_comm] at hne
  simp [isBlank, hne]

theorem readsAs_int {n : Int} (hn : Number.isShown (.whole n) = true) : ReadsAs (writeInt n) (.int n) := by
  have hdigits : (writeNat n.natAbs).length ≤ maxDigits := of_decide_eq_true hn
  have hread : ∀ rest, EndsNumber rest → readLeaf (writeInt n ++ rest) = .ok (.int n, rest) :=
    fun rest hrest => readLeaf_writeInt hrest hdigits
  have htext : ∀ m, ∀ d ∈ writeNat m, IsText d := fun m d hd => isText_of_isDigit (isDigit_of_mem_writeNat hd)
  cases n with
  | ofNat m =>
    obtain ⟨c, cs, hcs, hc⟩ := exists_digit_cons m
    have hchars := htext m
    rw [writeInt] at hread ⊢
    rw [hcs] at hchars hread ⊢
    exact readsAs_leaf hchars (not_opening_of_isDigit hc) hread
  | negSucc m =>
    refine readsAs_leaf (List.forall_mem_cons.mpr ⟨.inr (by decide), htext (m + 1)⟩) ?_ hread
    exact ⟨rfl, by decide⟩

theorem readsAs_string (s : String) : ReadsAs (string s) (.str s) where
  chars _ := isText_of_mem_string
  begins := ⟨'"', _, rfl, rfl, by decide, by decide⟩
  reads := by
    intro fuel rest hrest hfuel
    obtain ⟨fuel, rfl⟩ := Nat.exists_eq_add_one_of_ne_zero (n := fuel) (by simp [string] at hfuel; omega)
    have htext : string s ++ rest = '"' :: (escaped s.toList ++ '"' :: rest) := by simp [string]
    rw [htext, readValue, if_pos rfl, readString_string]
    rfl

/-! ### Values -/

section

variable (display : Value → Shown (List Char)) {layout : Layout}

mutual

/-- **Values.** A value without floating-point numbers has a text, and this is read as the value. -/
theorem exists_readsAs (hlayout : layout.IsSpaced) : ∀ (v : Value) (depth : ℕ),
    v.isJson Number.isWhole = true → v.isShortDocument = true →
      ∃ text, writeValue display layout depth v = .ok text ∧ ReadsAs text v
  | .null, _, _, _ => ⟨_, rfl, readsAs_leaf (by simp [IsText]) ⟨rfl, by decide⟩ fun _ _ => rfl⟩
  | .bool true, _, _, _ => ⟨_, rfl, readsAs_leaf (by simp [IsText]) ⟨rfl, by decide⟩ fun _ _ => rfl⟩
  | .bool false, _, _, _ => ⟨_, rfl, readsAs_leaf (by simp [IsText]) ⟨rfl, by decide⟩ fun _ _ => rfl⟩
  | .int n, _, _, hshort => by
    refine ⟨writeInt n, ?_, readsAs_int hshort⟩
    rw [writeValue, showInt, if_pos (of_decide_eq_true hshort)]
    rfl
  | .str s, _, _, _ => ⟨_, rfl, readsAs_string s⟩
  | .list items, depth, hjson, hshort => by
    obtain ⟨texts, htexts, hread⟩ := exists_readsAs_items hlayout items (depth + 1) hjson hshort
    refine ⟨layout.bracketed depth '[' ']' texts, ?_, readsAs_list hlayout depth hread⟩
    rw [writeValue, htexts]
    rfl
  | .dict members, depth, hjson, hshort => by
    obtain ⟨hnames, hmembers⟩ := Bool.and_eq_true_iff.mp hjson
    obtain ⟨texts, htexts, hread⟩ :=
      exists_readsAs_members hlayout members (depth + 1) hmembers (Bool.and_eq_true_iff.mp hshort).2
    refine ⟨layout.bracketed depth '\x7b' '\x7d' texts, ?_,
      readsAs_dict hlayout depth (of_decide_eq_true hnames) hread⟩
    rw [writeValue, htexts]
    rfl
  | .float _, _, h, _ => by simp [Value.isJson, Number.isWhole] at h
  | .tuple _, _, h, _ => by simp [Value.isJson] at h
  | .wrapped _ _, _, h, _ => by simp [Value.isJson] at h
  | .action _ _, _, h, _ => by simp [Value.isJson] at h
  | .page _ _, _, h, _ => by simp [Value.isJson] at h
  | .style _ _ _, _, h, _ => by simp [Value.isJson] at h
  | .fragment, _, h, _ => by simp [Value.isJson] at h
  | .component _, _, h, _ => by simp [Value.isJson] at h
  | .element _, _, h, _ => by simp [Value.isJson] at h

theorem exists_readsAs_items (hlayout : layout.IsSpaced) : ∀ (items : List Value) (depth : ℕ),
    Value.allJson Number.isWhole items = true → Value.allJson Number.isShown items = true →
      ∃ texts, writeItems display layout depth items = .ok texts ∧ List.Forall₂ ReadsAs texts items
  | [], _, _, _ => ⟨[], rfl, .nil⟩
  | v :: rest, depth, hjson, hshort => by
    obtain ⟨hv, hrest⟩ := Bool.and_eq_true_iff.mp hjson
    obtain ⟨hshortValue, hshortRest⟩ := Bool.and_eq_true_iff.mp hshort
    obtain ⟨text, htext, hread⟩ := exists_readsAs hlayout v depth hv hshortValue
    obtain ⟨texts, htexts, hreads⟩ := exists_readsAs_items hlayout rest depth hrest hshortRest
    refine ⟨text :: texts, ?_, .cons hread hreads⟩
    rw [writeItems, htext, htexts]
    rfl

theorem exists_readsAs_members (hlayout : layout.IsSpaced) : ∀ (members : List (String × Value)) (depth : ℕ),
    Value.allMembersJson Number.isWhole members = true → Value.allMembersJson Number.isShown members = true →
      ∃ texts, writeMembers display layout depth members = .ok texts ∧ List.Forall₂ ReadsAsMember texts members
  | [], _, _, _ => ⟨[], rfl, .nil⟩
  | (name, v) :: rest, depth, hjson, hshort => by
    obtain ⟨hv, hrest⟩ := Bool.and_eq_true_iff.mp hjson
    obtain ⟨hshortValue, hshortRest⟩ := Bool.and_eq_true_iff.mp hshort
    obtain ⟨text, htext, hread⟩ := exists_readsAs hlayout v depth hv hshortValue
    obtain ⟨texts, htexts, hreads⟩ := exists_readsAs_members hlayout rest depth hrest hshortRest
    refine ⟨(string name ++ ':' :: ' ' :: text) :: texts, ?_, .cons ⟨text, rfl, hread⟩ hreads⟩
    rw [writeMembers, htext, htexts]
    rfl

end

end

/-- A text that is read as a value is a whole text of the value. -/
theorem read_of_readsAs {text : List Char} {v : Value} (h : ReadsAs text v) : read text = .ok v := by
  have hmark : text.head? ≠ some (Char.ofNat 0xFEFF) := by
    intro hhead
    have hc := h.chars _ (List.mem_of_mem_head? hhead)
    revert hc
    decide
  have hread : readValue (2 * text.length + 2) (text ++ []) = .ok (v, []) := h.reads nofun (by omega)
  rw [List.append_nil] at hread
  have hskip : skipBlanks text = text := by simpa using h.begins.skipBlanks []
  rw [read, if_neg hmark, hskip, hread]
  rfl

end Json

/-! ### Whole texts -/

/-- Where no carriage return stands, the line ends stay. -/
theorem unifyLineEnds_eq_self {text : List Char} (h : '\r' ∉ text) : unifyLineEnds text = text := by
  induction text with
  | nil => rfl
  | cons c text ih =>
    obtain ⟨hc, htext⟩ : c ≠ '\r' ∧ '\r' ∉ text := by
      simpa [eq_comm] using h
    rw [unifyLineEnds, ih htext]
    · exact fun _ hreturn => absurd hreturn hc
    · exact hc

theorem ofText_of_readsAs {text : List Char} {v : Value} (h : Json.ReadsAs text v) :
    Document.ofText text = .ok v := by
  have hreturn : '\r' ∉ text := fun hmem => absurd (h.chars _ hmem) (by decide)
  rw [Document.ofText, unifyLineEnds_eq_self hreturn, Json.read_of_readsAs h]

variable {display : Value → Shown (List Char)} {data indent : Value}

/-- The text of data is what the writer makes of them under the layout of the indentation. -/
theorem jsonText_of_layout {layout : Json.Layout} (hlayout : Json.Layout.ofValue indent = .ok layout)
    {text : List Char} (h : Json.writeValue display layout 0 data = .ok text) :
    jsonText display indent data = .ok (String.ofList text) := by
  unfold jsonText
  split
  · obtain rfl := Except.ok.inj h
    rfl
  · rw [hlayout]
    show layoutText display layout data = _
    rw [layoutText, Json.write, h]

/-- The text of data under a layout of spaces is ASCII, and it is read as the data. -/
theorem exists_text_of_layout {layout : Json.Layout} (hlayout : Json.Layout.ofValue indent = .ok layout)
    (hspaced : layout.IsSpaced) (hdata : data.isJson Number.isWhole = true) (hshort : data.isShortDocument = true) :
    ∃ text, jsonText display indent data = .ok text ∧ (∀ c ∈ text.toList, c.toNat < 0x80) ∧
      Document.ofText text.toList = .ok data := by
  obtain ⟨text, htext, hread⟩ := Json.exists_readsAs display hspaced data 0 hdata hshort
  refine ⟨String.ofList text, jsonText_of_layout hlayout htext, ?_, ?_⟩
  · intro c hc
    rw [String.toList_ofList] at hc
    exact Json.lt_of_isText (hread.chars c hc)
  · rw [String.toList_ofList]
    exact ofText_of_readsAs hread

/-- A text on its own is written the same under every indentation. -/
theorem jsonText_str (indent : Value) (s : String) :
    jsonText display indent (.str s) = jsonText display .null (.str s) := rfl

theorem jsonText_of_ofValue_eq_error {e : TextError} (h : Json.Layout.ofValue indent = .error e)
    (hdata : ∀ s, data ≠ .str s) : jsonText display indent data = .error e := by
  unfold jsonText
  split
  · rename_i s
    exact absurd rfl (hdata s)
  · rw [h]
    rfl

/-- **Reading back.** Data without floating-point numbers have a text under every indentation that fits them.
The text is ASCII, and it is read as the data. No other number is an indentation. -/
theorem written_reads_back (hdata : data.isJson Number.isWhole = true) (hshort : data.isShortDocument = true)
    (hindent : indent = .null ∨ ∃ n, indent = .int n) :
    (Fits indent data → ∃ text, jsonText display indent data = .ok text ∧
      (∀ c ∈ text.toList, c.toNat < 0x80) ∧ Document.ofText text.toList = .ok data) ∧
    (¬ Fits indent data → jsonText display indent data = .error .indentTooLarge) := by
  refine ⟨?_, fun hfits => ?_⟩
  · rintro (⟨s, rfl⟩ | hfits)
    · rw [jsonText_str]
      exact exists_text_of_layout rfl (Json.isSpaced_of_isIndent (.inl rfl) rfl) hdata hshort
    · obtain ⟨layout, hlayout⟩ := Json.exists_layout hfits
      exact exists_text_of_layout hlayout (Json.isSpaced_of_isIndent hfits hlayout) hdata hshort
  · obtain ⟨hstr, hbounds⟩ := not_or.mp hfits
    rcases hindent with rfl | ⟨n, rfl⟩
    · exact absurd (.inl rfl) hbounds
    · have hn : n < -wordBound ∨ wordBound ≤ n := by
        by_contra hn
        exact hbounds (.inr ⟨n, rfl, by omega, by omega⟩)
      exact jsonText_of_ofValue_eq_error (Json.layout_eq_error hn) fun s hs => hstr ⟨s, hs⟩

/-- Data with nested brackets, empty ones among them, and with characters of every kind in a text. -/
def nestedData : Value := .dict
  [("b", .list [.null, .list [], .dict [], .int (-12)]), ("", .bool true),
   ("a", .dict [("\"\\\n\x00\x7f", .str "é€😀")])]

theorem written_reads_back_nestedData : nestedData.isJson Number.isWhole = true ∧ nestedData.isShortDocument = true ∧
    Fits (.int 2) nestedData ∧ ∃ text, jsonText (fun _ => .ok []) (.int 2) nestedData = .ok text ∧
      (∀ c ∈ text.toList, c.toNat < 0x80) ∧ Document.ofText text.toList = .ok nestedData := by
  have hdata : nestedData.isJson Number.isWhole = true := by decide +kernel
  have hshort : nestedData.isShortDocument = true := by decide +kernel
  have hfits : Fits (.int 2) nestedData := .inr (.inr ⟨2, rfl, by decide, by decide⟩)
  exact ⟨hdata, hshort, hfits, (written_reads_back hdata hshort (.inr ⟨2, rfl⟩)).1 hfits⟩

/-- A number beyond the bounds gives data no text. -/
theorem not_written_of_tooLarge : ¬ ∀ (display : Value → Shown (List Char)) (data indent : Value),
    data.isJson Number.isWhole = true → data.isShortDocument = true → (indent = .null ∨ ∃ n, indent = .int n) →
      ∃ text, jsonText display indent data = .ok text ∧ (∀ c ∈ text.toList, c.toNat < 0x80) ∧
        Document.ofText text.toList = .ok data := by
  intro h
  obtain ⟨text, htext, -⟩ := h (fun _ => .ok []) (.list []) (.int wordBound) rfl rfl (.inr ⟨_, rfl⟩)
  rw [jsonText_of_ofValue_eq_error (Json.layout_eq_error (.inr le_rfl)) (by simp)] at htext
  cases htext

end ViewGraph
