import Mathlib.Data.List.Forall2
import ViewGraph.Proofs.JsonNumber
import ViewGraph.Proofs.Tables
import ViewGraph.Proofs.Writing

/-!
# Items and members read back

Between brackets stand the texts of the parts, with commas, line breaks and spaces.  If each part is read as a
value, the whole is read as the list or the table of these values.

* `ReadsAs text v`: a text is read as a value wherever it stands.
* `isSpaced_of_isIndent`: null or a number lays a text out with spaces and line feeds.
* `readItems_joined`, `readMembers_joined`: what stands between brackets, from the texts of its parts.
* `readsAs_list`, `readsAs_dict`: so lists and tables from their parts.
-/

namespace ViewGraph.Json

/-! ### Definitions -/

/-- A text of line feeds and spaces. -/
def IsSpace (bs : List Char) : Prop := ∀ c ∈ bs, c = '\n' ∨ c = ' '

/-- The line breaks of a layout are spaces. -/
def Layout.IsSpaced (layout : Layout) : Prop := ∀ depth, IsSpace (layout.lineBreak depth)

/-- A text begins with what no blank and no closing bracket is. -/
def Begins (text : List Char) : Prop :=
  ∃ c cs, text = c :: cs ∧ isBlank c = false ∧ c ≠ ']' ∧ c ≠ '\x7d'

/-- A text is read as a value, if the text behind it does not go on like a number and there is fuel enough. -/
structure ReadsAs (text : List Char) (v : Value) : Prop where
  chars : ∀ c ∈ text, IsText c
  begins : Begins text
  reads : ∀ {fuel : ℕ} {rest : List Char}, EndsNumber rest → 2 * text.length ≤ fuel + 1 →
    readValue fuel (text ++ rest) = .ok (v, rest)

/-- A text is that of a member: its name, and the text of its value behind a colon. -/
def ReadsAsMember (text : List Char) (a : String × Value) : Prop :=
  ∃ value, text = string a.1 ++ ':' :: ' ' :: value ∧ ReadsAs value a.2

/-! ### Spaces -/

theorem isBlank_of_space {c : Char} (hc : c = '\n' ∨ c = ' ') : isBlank c = true := by
  rcases hc with rfl | rfl <;> rfl

theorem isText_of_space {c : Char} (hc : c = '\n' ∨ c = ' ') : IsText c := by
  rcases hc with rfl | rfl
  · exact .inl rfl
  · exact .inr (by decide)

theorem skipBlanks_append {bs : List Char} (hbs : IsSpace bs) (cs : List Char) :
    skipBlanks (bs ++ cs) = skipBlanks cs :=
  List.dropWhile_append_of_pos fun c hc => isBlank_of_space (hbs c hc)

theorem skipBlanks_cons {c : Char} (hc : isBlank c = false) (cs : List Char) :
    skipBlanks (c :: cs) = c :: cs := by
  rw [skipBlanks, List.dropWhile_cons_of_neg (by simp [hc])]

theorem endsNumber_cons {c : Char} (hc : c ∈ ['\n', ' ', ',', ']', '\x7d']) (cs : List Char) :
    EndsNumber (c :: cs) := by
  intro d hd
  obtain rfl : c = d := by simpa using hd
  clear hd
  simp only [List.mem_cons, List.not_mem_nil, or_false] at hc
  rcases hc with rfl | rfl | rfl | rfl | rfl <;> decide

theorem endsNumber_append {bs : List Char} (hbs : IsSpace bs) {c : Char} (hc : c ∈ [',', ']', '\x7d'])
    (cs : List Char) : EndsNumber (bs ++ c :: cs) := by
  cases bs with
  | nil => exact endsNumber_cons (List.mem_cons_of_mem _ (List.mem_cons_of_mem _ hc)) cs
  | cons b bs =>
    rcases hbs b List.mem_cons_self with rfl | rfl
    · exact endsNumber_cons (by simp) _
    · exact endsNumber_cons (by simp) _

theorem Begins.length_pos {text : List Char} (h : Begins text) : 0 < text.length := by
  obtain ⟨c, cs, rfl, -⟩ := h
  exact Nat.succ_pos _

theorem Begins.skipBlanks {text : List Char} (h : Begins text) (rest : List Char) :
    Json.skipBlanks (text ++ rest) = text ++ rest := by
  obtain ⟨c, cs, rfl, hblank, -⟩ := h
  exact skipBlanks_cons hblank _

/-! ### Layouts -/

theorem isSpaced_of_isIndent {indent : Value} (h : indent.IsIndent) {layout : Layout}
    (hlayout : Layout.ofValue indent = .ok layout) : layout.IsSpaced := by
  rcases h with rfl | ⟨n, rfl, hlow, hhigh⟩
  · obtain rfl := Except.ok.inj hlayout
    exact fun _ => nofun
  · rw [Layout.ofValue, if_pos (by simp [hlow, hhigh])] at hlayout
    obtain rfl := Except.ok.inj hlayout
    intro depth c hc
    rcases List.mem_cons.mp hc with rfl | hc
    · exact .inl rfl
    · obtain ⟨unit, hunit, hc⟩ := List.mem_flatten.mp hc
      rw [List.eq_of_mem_replicate hunit] at hc
      exact .inr (List.eq_of_mem_replicate hc)

/-- What stands between two items is a comma and spaces. -/
theorem exists_separator {layout : Layout} (hlayout : layout.IsSpaced) (depth : ℕ) :
    ∃ bs, layout.separator depth = ',' :: bs ∧ IsSpace bs := by
  cases layout with
  | oneLine => exact ⟨[' '], rfl, by simp [IsSpace]⟩
  | indented unit => exact ⟨_, rfl, hlayout depth⟩

/-! ### Items -/

section Joined

variable (bs : List Char) (text u : List Char) (us : List (List Char))

theorem joined_cons_append (rest : List Char) :
    joined (',' :: bs) (text :: u :: us) ++ rest =
      text ++ ',' :: (bs ++ (joined (',' :: bs) (u :: us) ++ rest)) := by
  simp [joined]

theorem length_joined_cons : (joined (',' :: bs) (text :: u :: us)).length =
    text.length + 1 + bs.length + (joined (',' :: bs) (u :: us)).length := by
  simp [joined]
  omega

theorem begins_joined {text : List Char} (h : Begins text) : Begins (joined (',' :: bs) (text :: us)) := by
  obtain ⟨c, cs, rfl, hc⟩ := h
  cases us with
  | nil => exact ⟨c, cs, rfl, hc⟩
  | cons u us => exact ⟨c, _, rfl, hc⟩

end Joined

theorem readItems_last {fuel : ℕ} {cs more rest : List Char} {v : Value}
    (hread : readValue fuel cs = .ok (v, more)) (hskip : skipBlanks more = ']' :: rest) :
    readItems (fuel + 1) cs = .ok ([v], rest) := by
  rw [readItems, hread]
  simp only [bind, Except.bind, hskip]
  rfl

theorem readItems_more {fuel : ℕ} {cs more next rest : List Char} {v : Value} {vs : List Value}
    (hread : readValue fuel cs = .ok (v, more)) (hskip : skipBlanks more = ',' :: next)
    (hitems : readItems fuel (skipBlanks next) = .ok (vs, rest)) :
    readItems (fuel + 1) cs = .ok (v :: vs, rest) := by
  rw [readItems, hread]
  simp only [bind, Except.bind, hskip, hitems]
  rfl

/-- **Items.** Items that are joined are read as their values, up to the bracket behind them. -/
theorem readItems_joined {bs ends : List Char} (hbs : IsSpace bs) (hends : IsSpace ends)
    {texts : List (List Char)} {vs : List Value} (h : List.Forall₂ ReadsAs texts vs) (hne : texts ≠ [])
    {fuel : ℕ} (rest : List Char) (hfuel : 2 * (joined (',' :: bs) texts).length ≤ fuel) :
    readItems fuel (joined (',' :: bs) texts ++ (ends ++ ']' :: rest)) = .ok (vs, rest) := by
  -- One step goes to each item, and a comma behind it is a character more: so the fuel for the rest is left.
  induction h generalizing fuel with
  | nil => exact absurd rfl hne
  | @cons text v texts vs hv hvs ih =>
    have hpos := hv.begins.length_pos
    cases hvs with
    | nil =>
      rw [joined] at hfuel ⊢
      obtain ⟨fuel, rfl⟩ := Nat.exists_eq_add_one_of_ne_zero (n := fuel) (by omega)
      refine readItems_last (hv.reads (endsNumber_append hends (by simp) rest) hfuel) ?_
      rw [skipBlanks_append hends, skipBlanks_cons rfl]
    | @cons u w us ws hw hws =>
      rw [length_joined_cons] at hfuel
      obtain ⟨fuel, rfl⟩ := Nat.exists_eq_add_one_of_ne_zero (n := fuel) (by omega)
      rw [joined_cons_append]
      refine readItems_more (hv.reads (endsNumber_cons (by simp) _) (by omega)) (skipBlanks_cons rfl _) ?_
      rw [skipBlanks_append hbs, (begins_joined bs us hw.begins).skipBlanks]
      exact ih (List.cons_ne_nil _ _) (by omega)

/-! ### Members -/

theorem readMembers_last {fuel : ℕ} {cs after more behind rest : List Char} {name : String} {v : Value}
    (hname : readString cs = .ok (name, after)) (hcolon : skipBlanks after = ':' :: more)
    (hread : readValue fuel (skipBlanks more) = .ok (v, behind))
    (hskip : skipBlanks behind = '\x7d' :: rest) :
    readMembers (fuel + 1) ('"' :: cs) = .ok ([(name, v)], rest) := by
  rw [readMembers, hname]
  simp only [bind, Except.bind, hcolon, hread, hskip]
  rfl

theorem readMembers_more {fuel : ℕ} {cs after more behind next rest : List Char} {name : String} {v : Value}
    {members : List (String × Value)} (hname : readString cs = .ok (name, after))
    (hcolon : skipBlanks after = ':' :: more) (hread : readValue fuel (skipBlanks more) = .ok (v, behind))
    (hskip : skipBlanks behind = ',' :: next)
    (hmembers : readMembers fuel (skipBlanks next) = .ok (members, rest)) :
    readMembers (fuel + 1) ('"' :: cs) = .ok ((name, v) :: members, rest) := by
  rw [readMembers, hname]
  simp only [bind, Except.bind, hcolon, hread, hskip, hmembers]
  rfl

/-- The text of a member is its name and what is read as its value. -/
theorem member_append (name : String) (value rest : List Char) :
    string name ++ ':' :: ' ' :: value ++ rest =
      '"' :: (escaped name.toList ++ '"' :: ':' :: ' ' :: (value ++ rest)) := by
  simp [string]

theorem readValue_member {value : List Char} {v : Value} (h : ReadsAs value v) {rest : List Char}
    (hrest : EndsNumber rest) {fuel : ℕ} (hfuel : 2 * value.length ≤ fuel + 1) :
    readValue fuel (skipBlanks (' ' :: (value ++ rest))) = .ok (v, rest) := by
  have hspace : IsSpace [' '] := by simp [IsSpace]
  rw [← List.singleton_append, skipBlanks_append hspace, h.begins.skipBlanks]
  exact h.reads hrest hfuel

theorem ReadsAsMember.begins {text : List Char} {a : String × Value} (h : ReadsAsMember text a) :
    Begins text := by
  obtain ⟨value, rfl, -⟩ := h
  exact ⟨'"', _, rfl, rfl, by decide, by decide⟩

/-- **Members.** Members that are joined are read as they are, up to the brace behind them. -/
theorem readMembers_joined {bs ends : List Char} (hbs : IsSpace bs) (hends : IsSpace ends)
    {texts : List (List Char)} {members : List (String × Value)}
    (h : List.Forall₂ ReadsAsMember texts members) (hne : texts ≠ []) {fuel : ℕ} (rest : List Char)
    (hfuel : 2 * (joined (',' :: bs) texts).length ≤ fuel) :
    readMembers fuel (joined (',' :: bs) texts ++ (ends ++ '\x7d' :: rest)) = .ok (members, rest) := by
  induction h generalizing fuel with
  | nil => exact absurd rfl hne
  | @cons text a texts members ha hmembers ih =>
    obtain ⟨value, htext, hv⟩ := ha
    have hlen : text.length = (string a.1).length + value.length + 2 := by
      simp [htext]
      omega
    cases hmembers with
    | nil =>
      rw [joined] at hfuel ⊢
      obtain ⟨fuel, rfl⟩ := Nat.exists_eq_add_one_of_ne_zero (n := fuel) (by omega)
      rw [htext, member_append]
      have hread : readValue fuel (skipBlanks (' ' :: (value ++ (ends ++ '\x7d' :: rest)))) =
          .ok (a.2, ends ++ '\x7d' :: rest) :=
        readValue_member hv (endsNumber_append hends (by simp) rest) (by omega)
      refine readMembers_last (readString_string a.1 _) (skipBlanks_cons rfl _) hread ?_
      rw [skipBlanks_append hends, skipBlanks_cons rfl]
    | @cons u b us more hb hmore =>
      rw [length_joined_cons] at hfuel
      obtain ⟨fuel, rfl⟩ := Nat.exists_eq_add_one_of_ne_zero (n := fuel) (by omega)
      rw [joined_cons_append, htext, member_append]
      refine readMembers_more (readString_string a.1 _) (skipBlanks_cons rfl _)
        (readValue_member hv (endsNumber_cons (by simp) _) (by omega)) (skipBlanks_cons rfl _) ?_
      rw [skipBlanks_append hbs, (begins_joined bs us hb.begins).skipBlanks]
      exact ih (List.cons_ne_nil _ _) (by omega)

/-! ### Brackets -/

theorem readValue_list {fuel : ℕ} {cs next rest : List Char} {vs : List Value} (hskip : skipBlanks cs = next)
    (hne : ∀ tail, next ≠ ']' :: tail) (hitems : readItems fuel next = .ok (vs, rest)) :
    readValue (fuel + 1) ('[' :: cs) = .ok (.list vs, rest) := by
  rw [readValue, if_neg (by decide), if_pos rfl, hskip]
  split
  · rename_i tail
    exact absurd rfl (hne tail)
  · rw [hitems]
    rfl

theorem readValue_dict {fuel : ℕ} {cs next rest : List Char} {members : List (String × Value)}
    (hskip : skipBlanks cs = next) (hne : ∀ tail, next ≠ '\x7d' :: tail)
    (hmembers : readMembers fuel next = .ok (members, rest)) :
    readValue (fuel + 1) ('\x7b' :: cs) = .ok (.dict (Table.ofList members), rest) := by
  rw [readValue, if_neg (by decide), if_neg (by decide), if_pos rfl, hskip]
  split
  · rename_i tail
    exact absurd rfl (hne tail)
  · rw [hmembers]
    rfl

section Bracketed

variable {layout : Layout} {opening closing : Char} {texts : List (List Char)}

theorem bracketed_cons (layout : Layout) (depth : ℕ) (opening closing : Char) (text : List Char)
    (texts : List (List Char)) (rest : List Char) :
    layout.bracketed depth opening closing (text :: texts) ++ rest =
      opening :: (layout.lineBreak (depth + 1) ++ (joined (layout.separator (depth + 1)) (text :: texts) ++
        (layout.lineBreak depth ++ closing :: rest))) := by
  simp [Layout.bracketed]

theorem length_bracketed_cons (layout : Layout) (depth : ℕ) (opening closing : Char) (text : List Char)
    (texts : List (List Char)) :
    (joined (layout.separator (depth + 1)) (text :: texts)).length + 2 ≤
      (layout.bracketed depth opening closing (text :: texts)).length := by
  simp [Layout.bracketed]
  omega

theorem begins_bracketed (depth : ℕ) (hblank : isBlank opening = false) (hbracket : opening ≠ ']')
    (hbrace : opening ≠ '\x7d') : Begins (layout.bracketed depth opening closing texts) := by
  cases texts with
  | nil => exact ⟨opening, _, rfl, hblank, hbracket, hbrace⟩
  | cons text texts => exact ⟨opening, _, rfl, hblank, hbracket, hbrace⟩

theorem isText_of_mem_joined {bs : List Char} (hbs : IsSpace bs) (htexts : ∀ text ∈ texts, ∀ c ∈ text, IsText c)
    {c : Char} (hc : c ∈ joined (',' :: bs) texts) : IsText c := by
  induction texts with
  | nil => simp [joined] at hc
  | cons text texts ih =>
    obtain ⟨htext, hrest⟩ := List.forall_mem_cons.mp htexts
    cases texts with
    | nil => exact htext c hc
    | cons u us =>
      rw [← List.append_nil (joined _ _), joined_cons_append, List.append_nil] at hc
      rcases List.mem_append.mp hc with hc | hc
      · exact htext c hc
      rcases List.mem_cons.mp hc with rfl | hc
      · exact .inr (by decide)
      rcases List.mem_append.mp hc with hc | hc
      · exact isText_of_space (hbs c hc)
      · exact ih hrest hc

theorem isText_of_mem_bracketed (hlayout : layout.IsSpaced) (depth : ℕ) (hopening : IsText opening)
    (hclosing : IsText closing) (htexts : ∀ text ∈ texts, ∀ c ∈ text, IsText c) {c : Char}
    (hc : c ∈ layout.bracketed depth opening closing texts) : IsText c := by
  cases texts with
  | nil =>
    rcases List.mem_pair.mp hc with rfl | rfl
    · exact hopening
    · exact hclosing
  | cons text texts =>
    obtain ⟨bs, hsep, hbs⟩ := exists_separator hlayout (depth + 1)
    rw [← List.append_nil (Layout.bracketed ..), bracketed_cons, hsep] at hc
    rcases List.mem_cons.mp hc with rfl | hc
    · exact hopening
    rcases List.mem_append.mp hc with hc | hc
    · exact isText_of_space (hlayout _ c hc)
    rcases List.mem_append.mp hc with hc | hc
    · exact isText_of_mem_joined hbs htexts hc
    rcases List.mem_append.mp hc with hc | hc
    · exact isText_of_space (hlayout _ c hc)
    · exact List.mem_singleton.mp hc ▸ hclosing

end Bracketed

theorem Begins.ne_bracket {text : List Char} (h : Begins text) (rest tail : List Char) :
    text ++ rest ≠ ']' :: tail := by
  obtain ⟨c, cs, rfl, -, hc, -⟩ := h
  simp [hc]

theorem Begins.ne_brace {text : List Char} (h : Begins text) (rest tail : List Char) :
    text ++ rest ≠ '\x7d' :: tail := by
  obtain ⟨c, cs, rfl, -, -, hc⟩ := h
  simp [hc]

theorem ReadsAsMember.chars {text : List Char} {a : String × Value} (h : ReadsAsMember text a) :
    ∀ c ∈ text, IsText c := by
  obtain ⟨value, rfl, hv⟩ := h
  intro c hc
  rcases List.mem_append.mp hc with hc | hc
  · exact isText_of_mem_string hc
  rcases List.mem_cons.mp hc with rfl | hc
  · exact .inr (by decide)
  rcases List.mem_cons.mp hc with rfl | hc
  · exact .inr (by decide)
  · exact hv.chars c hc

section

variable {layout : Layout} (hlayout : layout.IsSpaced) (depth : ℕ) {texts : List (List Char)}

include hlayout

/-- **Lists.** The texts of items between brackets are read as the list of the items. -/
theorem readsAs_list {vs : List Value} (h : List.Forall₂ ReadsAs texts vs) :
    ReadsAs (layout.bracketed depth '[' ']' texts) (.list vs) where
  chars c hc := isText_of_mem_bracketed hlayout depth (.inr (by decide)) (.inr (by decide))
    ((List.forall₂_and_left _ _).mp (h.imp fun _ _ hread => ⟨hread.chars, hread⟩)).1 hc
  begins := begins_bracketed depth rfl (by decide) (by decide)
  reads := by
    intro fuel rest hrest hfuel
    cases h with
    | nil =>
      obtain ⟨fuel, rfl⟩ := Nat.exists_eq_add_one_of_ne_zero (n := fuel) (by simp [Layout.bracketed] at hfuel; omega)
      rfl
    | @cons text v texts vs hv hvs =>
      obtain ⟨bs, hsep, hbs⟩ := exists_separator hlayout (depth + 1)
      have hlen := length_bracketed_cons layout depth '[' ']' text texts
      obtain ⟨fuel, rfl⟩ := Nat.exists_eq_add_one_of_ne_zero (n := fuel) (by omega)
      rw [bracketed_cons]
      rw [hsep] at hlen ⊢
      have hbegins := begins_joined bs texts hv.begins
      have hskip := (skipBlanks_append (hlayout (depth + 1)) _).trans
        (hbegins.skipBlanks (layout.lineBreak depth ++ ']' :: rest))
      exact readValue_list hskip (hbegins.ne_bracket _)
        (readItems_joined hbs (hlayout _) (.cons hv hvs) (List.cons_ne_nil _ _) rest (by omega))

/-- **Tables.** The texts of members between braces are read as the table of the members. -/
theorem readsAs_dict {members : List (String × Value)} (hnames : (members.map (·.1)).Nodup)
    (h : List.Forall₂ ReadsAsMember texts members) :
    ReadsAs (layout.bracketed depth '\x7b' '\x7d' texts) (.dict members) where
  chars c hc := isText_of_mem_bracketed hlayout depth (.inr (by decide)) (.inr (by decide))
    ((List.forall₂_and_left _ _).mp (h.imp fun _ _ hread => ⟨hread.chars, hread⟩)).1 hc
  begins := begins_bracketed depth rfl (by decide) (by decide)
  reads := by
    intro fuel rest hrest hfuel
    cases h with
    | nil =>
      obtain ⟨fuel, rfl⟩ := Nat.exists_eq_add_one_of_ne_zero (n := fuel) (by simp [Layout.bracketed] at hfuel; omega)
      rfl
    | @cons text a texts members ha hmembers =>
      obtain ⟨bs, hsep, hbs⟩ := exists_separator hlayout (depth + 1)
      have hlen := length_bracketed_cons layout depth '\x7b' '\x7d' text texts
      obtain ⟨fuel, rfl⟩ := Nat.exists_eq_add_one_of_ne_zero (n := fuel) (by omega)
      rw [bracketed_cons]
      rw [hsep] at hlen ⊢
      have hbegins := begins_joined bs texts ha.begins
      -- The reader sets one name after the other, and as no name is set twice, the members stay as they are.
      conv_rhs => rw [← Table.ofList_of_nodup hnames]
      have hskip := (skipBlanks_append (hlayout (depth + 1)) _).trans
        (hbegins.skipBlanks (layout.lineBreak depth ++ '\x7d' :: rest))
      exact readValue_dict hskip (hbegins.ne_brace _)
        (readMembers_joined hbs (hlayout _) (.cons ha hmembers) (List.cons_ne_nil _ _) rest (by omega))

end

end ViewGraph.Json
