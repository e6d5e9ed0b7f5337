import ViewGraph.Log.Format
import ViewGraph.Proofs.JsonLength

/-!
# Lines of the log as JSON

A line of JSON has the texts of its entry between quotes as they are.  If each character of the logger and of the
message can stand for itself in a string, the line is read as a table with the parts of the entry.  If one cannot, no
table that is read from the line has them: the texts would take more room than the line has.

* `LogEntry.IsBare e`: the logger and the message of an entry need no escape.
* `CarriesEntry line e`: a line is read as a table with the level, the logger and the message of an entry.
* `isBare_of_mem_levelName`: the name of a level needs no escape.
* `bare_of_readMembers`: if logger and message are read back, they need no escape.
* `carriesEntry_render_iff`: so a line of JSON has the parts of its entry exactly if they need no escape.
-/

namespace ViewGraph

open ViewGraph.Json

/-! ### Definitions -/

/-- The logger and the message of an entry need no escape. -/
def LogEntry.IsBare (e : LogEntry) : Prop :=
  (∀ c ∈ e.logger.toList, Json.IsBare c) ∧ ∀ c ∈ e.message.toList, Json.IsBare c

/-- A line is read as a table that has the level, the logger and the message of an entry. -/
def CarriesEntry (line : String) (e : LogEntry) : Prop :=
  ∃ members, Json.read line.toList = .ok (.dict members) ∧
    Table.find? "level" members = some (.str (levelName e.level)) ∧
    Table.find? "logger" members = some (.str e.logger) ∧ Table.find? "message" members = some (.str e.message)

/-- The parts of an entry, as the members of a table. -/
def LogEntry.members (time : String) (e : LogEntry) : List (String × Value) :=
  [("timestamp", .str time), ("level", .str (levelName e.level)), ("logger", .str e.logger),
    ("message", .str e.message)]

/-- The names of the members of a line. -/
def memberNames : List String := ["timestamp", "level", "logger", "message"]

/-- The text of a line behind its level. -/
def lineEnd (logger message : List Char) : List Char :=
  opened "logger".toList (followed logger (opened "message".toList (message ++ ['"', '\x7d'])))

/-- The text of a line. -/
def lineText (time level logger message : List Char) : List Char :=
  '\x7b' :: opened "timestamp".toList (followed time (opened "level".toList (followed level (lineEnd logger message))))

/-! ### Levels -/

theorem isBare_of_isDigit {c : Char} (hc : c.isDigit = true) : IsBare c := by
  obtain ⟨hlow, -⟩ : 48 ≤ c.toNat ∧ c.toNat ≤ 57 := by
    simpa [Char.isDigit, UInt32.le_iff_toNat_le] using hc
  refine ⟨?_, ?_, by omega⟩
  · rintro rfl
    cases hc
  · rintro rfl
    cases hc

theorem isBare_of_mem_writeInt {n : Int} {c : Char} (hc : c ∈ writeInt n) : IsBare c := by
  cases n with
  | ofNat n => exact isBare_of_isDigit (isDigit_of_mem_writeNat hc)
  | negSucc n =>
    rcases List.mem_cons.mp hc with rfl | hc
    · decide
    · exact isBare_of_isDigit (isDigit_of_mem_writeNat hc)

/-- The name of a level needs no escape. -/
theorem isBare_of_mem_levelName {level : Level} {c : Char} (hc : c ∈ (levelName level).toList) : IsBare c := by
  rw [levelName] at hc
  cases hname : namedLevels.lookup level with
  | none =>
    have hword : ∀ d ∈ "Level ".toList, IsBare d := isBare_of_all (by decide)
    rw [hname, Option.getD_none, String.toList_append] at hc
    rcases List.mem_append.mp hc with hc | hc
    · exact hword c hc
    · rw [String.toList_ofList] at hc
      exact isBare_of_mem_writeInt hc
  | some name =>
    have hnames : ∀ a ∈ namedLevels, (a.2.toList.all fun d => IsBare d) = true := by decide
    rw [hname, Option.getD_some] at hc
    exact isBare_of_all (hnames _ (Table.mem_of_find? hname)) c hc

/-! ### Room -/

theorem isBare_of_mem_memberNames (name : String) (h : name ∈ memberNames) : ∀ c ∈ name.toList, IsBare c := by
  have hnames : ∀ name ∈ memberNames, (name.toList.all fun c => IsBare c) = true := by decide
  exact isBare_of_all (hnames name h)

section Reading

variable {logger message : List Char} {fuel : ℕ} {members : List (String × Value)} {rest : List Char}

theorem memberLength_logger (cs : List Char) :
    memberLength ("logger", .str (String.ofList cs)) = bodyLength cs + 12 := by
  have hname : stringLength "logger" = 8 := by decide
  rw [memberLength, hname, valueLength, stringLength, String.toList_ofList]
  omega

theorem memberLength_message (cs : List Char) :
    memberLength ("message", .str (String.ofList cs)) = bodyLength cs + 13 := by
  have hname : stringLength "message" = 9 := by decide
  rw [memberLength, hname, valueLength, stringLength, String.toList_ofList]
  omega

/-- If the last member is read back, its characters stand for themselves. -/
theorem bare_of_readMembers_message
    (h : readMembers fuel (opened "message".toList (message ++ ['"', '\x7d'])) = .ok (members, rest))
    (hmessage : ("message", .str (String.ofList message)) ∈ members) : ∀ c ∈ message, IsBare c := by
  obtain ⟨s, body, behind, later, hcs, hbody, rfl, hroom⟩ :=
    exists_body_of_readMembers_opened (isBare_of_mem_memberNames "message" (by decide)) h
  have hlength : message.length + 2 = body.length + (behind.length + 1) := by
    simpa using congrArg List.length hcs
  rcases List.mem_cons.mp hmessage with heq | hlater
  · obtain rfl : String.ofList message = s := Value.str.inj (Prod.mk.inj heq).2
    rw [String.toList_ofList] at hbody
    exact isBare_of_bodyLength_le (by omega)
  · have hmember := memberLength_le hlater
    have := length_le_bodyLength message
    rw [memberLength_message] at hmember
    omega

/-- A string that begins with the logger and does not end at the quote behind it takes in the next two characters. -/
theorem length_add_three_le {body behind next : List Char}
    (h : followed logger next = body ++ '"' :: behind) (hlong : logger.length < body.length) :
    logger.length + 3 ≤ body.length := by
  have hquote : (followed logger next)[body.length]? = some '"' := by
    rw [h]
    simp
  by_contra hshort
  have hcases : body.length = logger.length + 1 ∨ body.length = logger.length + 2 := by omega
  rcases hcases with heq | heq
  · rw [heq] at hquote
    simp [followed] at hquote
  · rw [heq] at hquote
    simp [followed] at hquote

/-- **Room.** A line has no room for both texts unless it has them as they are. -/
theorem bare_of_readMembers (h : readMembers fuel (lineEnd logger message) = .ok (members, rest))
    (hlogger : ("logger", .str (String.ofList logger)) ∈ members)
    (hmessage : ("message", .str (String.ofList message)) ∈ members) :
    (∀ c ∈ logger, IsBare c) ∧ ∀ c ∈ message, IsBare c := by
  have hread := h
  obtain ⟨s, body, behind, later, hcs, hbody, rfl, hroom⟩ :=
    exists_body_of_readMembers_opened (isBare_of_mem_memberNames "logger" (by decide)) h
  have hlength : logger.length + message.length + 17 = body.length + (behind.length + 1) := by
    have := congrArg List.length hcs
    simp [followed, opened] at this
    omega
  have hloggerRoom := length_le_bodyLength logger
  have hmessageRoom := length_le_bodyLength message
  have hlater : ("message", .str (String.ofList message)) ∈ later :=
    (List.mem_cons.mp hmessage).resolve_left fun heq => absurd (Prod.mk.inj heq).1 (by decide)
  have hmember := memberLength_le hlater
  rw [memberLength_message] at hmember
  -- The first string is the logger, as there is no room for the logger and the message behind another one.
  obtain rfl : String.ofList logger = s := by
    by_contra hne
    have hmem : ("logger", .str (String.ofList logger)) ∈ later :=
      (List.mem_cons.mp hlogger).resolve_left fun heq => hne (Value.str.inj (Prod.mk.inj heq).2)
    have hboth := memberLength_add_le hmem hlater fun heq => absurd (Prod.mk.inj heq).1 (by decide)
    rw [memberLength_logger, memberLength_message] at hboth
    omega
  -- It ends at the quote behind the logger, as otherwise the message does not fit in.
  have hbare : ∀ c ∈ logger, IsBare c := by
    rw [String.toList_ofList] at hbody
    refine isBare_of_bodyLength_le (Nat.le_of_not_lt fun hlong => ?_)
    have := length_add_three_le hcs (by omega)
    omega
  obtain ⟨less, more, hmore, heq⟩ :=
    exists_of_readMembers_followed (isBare_of_mem_memberNames "logger" (by decide)) hbare hread
  obtain rfl : later = more := (List.cons.inj heq).2
  exact ⟨hbare, bare_of_readMembers_message hmore hlater⟩

end Reading

/-! ### Lines -/

theorem toList_line (parts : LineParts) : (LineFormat.json.line parts).toList =
    lineText parts.time.toList parts.level.toList parts.logger.toList parts.message.toList := by
  simp [LineFormat.line, LineFormat.pieces, String.join, LineParts.at, lineText, opened, followed, lineEnd]

section Lines

variable {time level logger message : List Char} (htime : ∀ c ∈ time, IsBare c) (hlevel : ∀ c ∈ level, IsBare c)

include htime hlevel

/-- What is read of a line begins with the time and the level. -/
theorem exists_members_of_read {members : List (String × Value)}
    (h : Json.read (lineText time level logger message) = .ok (.dict members)) :
    ∃ fuel later rest, readMembers fuel (lineEnd logger message) = .ok (later, rest) ∧
      members = Table.ofList (("timestamp", .str (String.ofList time)) ::
        ("level", .str (String.ofList level)) :: later) := by
  rw [Json.read, if_neg (by simp [lineText])] at h
  obtain ⟨⟨v, rest⟩, hv, h⟩ := Logged.bind_eq_ok.mp h
  obtain rfl : v = .dict members := by
    simp only at h
    split at h
    · exact Except.ok.inj h
    · simp at h
  rw [lineText, skipBlanks_cons rfl, readValue, if_neg (by decide), if_neg (by decide), if_pos rfl] at hv
  split at hv
  · rename_i heq
    rw [skipBlanks_opened] at heq
    cases (List.cons.inj heq).1
  obtain ⟨⟨ms, after⟩, hms, hv⟩ := Logged.bind_eq_ok.mp hv
  obtain rfl : Table.ofList ms = members := Value.dict.inj (Prod.mk.inj (Except.ok.inj hv)).1
  rw [skipBlanks_opened] at hms
  obtain ⟨fuel, more, hmore, rfl⟩ :=
    exists_of_readMembers_followed (isBare_of_mem_memberNames "timestamp" (by decide)) htime hms
  obtain ⟨fuel, later, hlater, rfl⟩ :=
    exists_of_readMembers_followed (isBare_of_mem_memberNames "level" (by decide)) hlevel hmore
  exact ⟨fuel, later, after, hlater, rfl⟩

/-- A line whose texts need no escape is read as the table of its parts. -/
theorem read_lineText (hlogger : ∀ c ∈ logger, IsBare c) (hmessage : ∀ c ∈ message, IsBare c) :
    Json.read (lineText time level logger message) =
      .ok (.dict [("timestamp", .str (String.ofList time)), ("level", .str (String.ofList level)),
        ("logger", .str (String.ofList logger)), ("message", .str (String.ofList message))]) := by
  obtain ⟨fuel, hfuel⟩ : ∃ fuel, 2 * (lineText time level logger message).length + 2 = fuel + 6 := by
    refine Nat.exists_eq_add_of_le' ?_
    simp [lineText, opened]
    omega
  have hclosed := readMembers_closed (isBare_of_mem_memberNames "message" (by decide)) hmessage fuel []
  have hrest := readMembers_followed (isBare_of_mem_memberNames "logger" (by decide)) hlogger hclosed
  have hbehind := readMembers_followed (isBare_of_mem_memberNames "level" (by decide)) hlevel hrest
  have hmembers := readMembers_followed (isBare_of_mem_memberNames "timestamp" (by decide)) htime hbehind
  have hvalue := readValue_dict (skipBlanks_opened _ _) (by simp [opened]) hmembers
  rw [Table.ofList_of_nodup (by simp)] at hvalue
  rw [Json.read, if_neg (by simp [lineText]), hfuel, lineText, skipBlanks_cons rfl, lineEnd, hvalue]
  rfl

end Lines

/-! ### Entries -/

section Entries

variable {time : String} {e : LogEntry} (coloured : Bool) (htime : ∀ c ∈ time.toList, Json.IsBare c)

theorem toList_render_json : ((Formatter.ofName "json" coloured).render time e).toList =
    lineText time.toList (levelName e.level).toList e.logger.toList e.message.toList := by
  simp [Formatter.ofName, LineFormat.ofName, Formatter.render, toList_line]

include htime

theorem isBare_of_carriesEntry (h : CarriesEntry ((Formatter.ofName "json" coloured).render time e) e) :
    e.IsBare := by
  obtain ⟨members, hread, -, hlogger, hmessage⟩ := h
  rw [toList_render_json] at hread
  obtain ⟨fuel, later, rest, hlater, rfl⟩ := exists_members_of_read htime (fun _ => isBare_of_mem_levelName) hread
  -- A member of the table was read, and it is neither the time nor the level.
  have hmem : ∀ {name : String} {v : Value}, name ≠ "timestamp" → name ≠ "level" →
      Table.find? name (Table.ofList (("timestamp", .str (String.ofList time.toList)) ::
        ("level", .str (String.ofList (levelName e.level).toList)) :: later)) = some v → (name, v) ∈ later := by
    intro name v htimestamp hlevel hfind
    have hentry := Table.mem_of_mem_ofList (Table.mem_of_find? hfind)
    simpa [htimestamp, hlevel] using hentry
  refine bare_of_readMembers hlater ?_ ?_
  · rw [String.ofList_toList]
    exact hmem (by decide) (by decide) hlogger
  · rw [String.ofList_toList]
    exact hmem (by decide) (by decide) hmessage

theorem read_render (he : e.IsBare) : Json.read ((Formatter.ofName "json" coloured).render time e).toList =
    .ok (.dict (e.members time)) := by
  rw [toList_render_json, read_lineText htime (fun _ => isBare_of_mem_levelName) he.1 he.2, LogEntry.members]
  simp only [String.ofList_toList]

/-- **Lines of JSON.** A line of JSON is read as a table that has the level, the logger and the message of its entry
exactly if the characters of logger and message can all stand for themselves in a string, without quotes, backslashes
and control characters.  Then it has these parts and the time, and nothing else. -/
theorem carriesEntry_render_iff :
    (CarriesEntry ((Formatter.ofName "json" coloured).render time e) e ↔ e.IsBare) ∧
      (e.IsBare → Json.read ((Formatter.ofName "json" coloured).render time e).toList =
        .ok (.dict (e.members time))) := by
  refine ⟨⟨isBare_of_carriesEntry coloured htime, fun he => ?_⟩, read_render coloured htime⟩
  refine ⟨e.members time, read_render coloured htime he, ?_, ?_, ?_⟩ <;>
    simp [LogEntry.members, Table.find?_cons]

end Entries

/-- An entry of an ordinary error is read back from its line. -/
theorem carriesEntry_render_iff_plainError :
    (∀ c ∈ "2024-01-02 03:04:05".toList, Json.IsBare c) ∧
      CarriesEntry ((Formatter.ofName "json" false).render "2024-01-02 03:04:05" ⟨40, "core.template", "boom"⟩)
        ⟨40, "core.template", "boom"⟩ := by
  have htime : ∀ c ∈ "2024-01-02 03:04:05".toList, Json.IsBare c := isBare_of_all (by decide)
  exact ⟨htime, (carriesEntry_render_iff false htime).1.mpr ⟨isBare_of_all (by decide), isBare_of_all (by decide)⟩⟩

/-- An entry whose message quotes a name is not read back from its line. -/
theorem not_carriesEntry_render_quotedName :
    ¬ CarriesEntry
      ((Formatter.ofName "json" false).render "2024-01-02 03:04:05" ⟨40, "core.template", "say \"hi\""⟩)
      ⟨40, "core.template", "say \"hi\""⟩ := by
  intro h
  have hbare := isBare_of_carriesEntry false (isBare_of_all (by decide)) h
  have hquote : ¬ Json.IsBare '"' := by decide
  exact hquote (hbare.2 '"' (by decide))

end ViewGraph
