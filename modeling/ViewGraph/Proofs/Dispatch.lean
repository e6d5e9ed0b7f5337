import ViewGraph.Proofs.Grammar
import ViewGraph.Proofs.Revalidation

/-!
# The record of an attribute, for every value

The value of an attribute may be any value at all.  The first rule that matches it tells the kind and the content of
its record, and there is no record if the content is not as the kind wants it.

* `ruling v`: the kind and the content, by the first rule that matches.
* `Unfit v`: a typed value whose payload its record does not take.
* `Unlisted v`: an action whose arguments cannot be listed.
* `classify_eq`: a value is classified by the first rule that matches.
* `checkPage_of_isTarget`, `exists_checkPage_issues`: what can be the target of a link.
* `dispatch_exact`: a value that is unfit is refused, and any other value has the record of its rule.
-/

namespace ViewGraph

open ViewGraph.Checked

/-! ### Definitions -/

/-- The kind of records that shares its name with a kind of typed values. -/
def PropKind.named? (name : String) : Option PropKind := PropKind.all.find? fun kind => kind.tag = name

namespace Value

/-- The kind and the content of a record: a typed value has its own kind and its payload, an action stands in a
list of one; then come texts, numbers and truth values; anything else, and what a placeholder holds, is data. -/
def ruling (v : Value) : PropKind × Value :=
  match v.kind?.bind PropKind.named?, v.payload? with
  | some .action, some payload => (.action, .list [payload])
  | some kind, some payload => (kind, payload)
  | _, _ =>
    if v.typeName = "str" then (.string, v)
    else if v.typeName = "int" ∨ v.typeName = "float" then (.number, v)
    else if v.typeName = "bool" then (.boolean, v)
    else (.json, v.payload?.getD v)

/-- A table from texts to texts. -/
def IsTextTable (v : Value) : Prop := ∃ members, v = .dict members ∧ ∀ a ∈ members, a.2.IsText

/-- A typed value whose payload its record does not take. -/
inductive Unfit : Value → Prop
  | text {kind : Wrapper} {payload : Value} (hkind : kind ≠ .placeholder) (hpayload : ¬ payload.IsText) :
      Unfit (.wrapped kind payload)
  | anchored {target anchor : Value} (hanchor : ¬ anchor.IsVoid) (htexts : ¬ (target.IsText ∧ anchor.IsText)) :
      Unfit (.page target anchor)
  | page {target anchor : Value} (hanchor : anchor.IsVoid) (htext : ¬ target.IsText)
      (htable : ¬ target.IsTextTable) : Unfit (.page target anchor)

/-- An action whose arguments cannot be listed. -/
def Unlisted (v : Value) : Prop := ∃ args code, v = .action args code ∧ args.items? = none

end Value

/-- The fields that the record of an attribute is made of. -/
def attributeFields (instanceId name : String) (content : Value) : List (String × Value) :=
  [("id", .str (propId instanceId name)), ("instance_id", .str instanceId), ("name", .str name), ("value", content)]

open Value

variable {g : Graph}

/-! ### Classification -/

/-- A value is classified by the first rule that matches. -/
theorem classify_eq {v : Value} (hv : ¬ v.Unlisted) : classify v = .ok v.ruling := by
  cases v with
  | wrapped kind payload => cases kind <;> rfl
  | action args code =>
    cases hitems : args.items? with
    | none => exact absurd ⟨args, code, rfl, hitems⟩ hv
    | some items =>
      have hruling : (Value.action args code).ruling = (.action, .list [actionPayload items code]) := by
        simp only [ruling, payload?, hitems]
        rfl
      rw [hruling, classify, hitems]
  | _ => rfl

theorem classify_of_unlisted {v : Value} (hv : v.Unlisted) : classify v = .error .notIterable := by
  obtain ⟨args, code, rfl, hitems⟩ := hv
  rw [classify, hitems]

/-! ### Contents -/

theorem checkText_of_not_isText {v : Value} (hv : ¬ v.IsText) : checkText v = fail .textExpected := by
  cases v with
  | str s => exact absurd ⟨s, rfl⟩ hv
  | _ => rfl

/-- A table that passes as a table of texts is one. -/
theorem eq_of_checkTexts {members : List (String × Value)} {texts : List (String × String)}
    (h : checkTexts members = .valid texts) : .dict members = dumpPage (.anchored texts) := by
  induction members generalizing texts with
  | nil =>
    obtain rfl := Checked.valid.inj h
    rfl
  | cons a rest ih =>
    obtain ⟨name, v⟩ := a
    obtain ⟨f, more, hf, hmore, rfl⟩ := seq_eq_valid.mp h
    cases v with
    | str s =>
      obtain rfl := Checked.valid.inj hf
      rw [Value.dict.inj (ih hmore)]
      rfl
    | _ => simp [checkText, fail, within, Checked.map] at hf

theorem isTextTable_dumpPage (texts : List (String × String)) : (dumpPage (.anchored texts)).IsTextTable := by
  refine ⟨_, rfl, fun a ha => ?_⟩
  obtain ⟨b, -, rfl⟩ := List.mem_map.mp ha
  exact ⟨b.2, rfl⟩

/-- A text or a table of texts is the target of a link. -/
theorem exists_dumpPage_eq {v : Value} (hv : v.IsText ∨ v.IsTextTable) : ∃ target, dumpPage target = v := by
  rcases hv with ⟨s, rfl⟩ | ⟨members, rfl, hmembers⟩
  · exact ⟨.page s, rfl⟩
  · suffices htexts : ∃ texts, dumpPage (.anchored texts) = .dict members by
      obtain ⟨texts, htexts⟩ := htexts
      exact ⟨_, htexts⟩
    induction members with
    | nil => exact ⟨[], rfl⟩
    | cons a rest ih =>
      obtain ⟨⟨s, hs⟩, hrest⟩ := List.forall_mem_cons.mp hmembers
      obtain ⟨texts, htexts⟩ := ih hrest
      refine ⟨(a.1, s) :: texts, ?_⟩
      rw [← Value.dict.inj htexts, show a = (a.1, .str s) from Prod.ext rfl hs]
      rfl

/-- Anything else is not. -/
theorem exists_checkPage_issues {v : Value} (htext : ¬ v.IsText) (htable : ¬ v.IsTextTable) :
    ∃ first rest, checkPage v = .invalid (first :: rest) := by
  cases v with
  | str s => exact absurd ⟨s, rfl⟩ htext
  | dict members =>
    cases htexts : checkTexts members with
    | valid texts => exact absurd (eq_of_checkTexts htexts ▸ isTextTable_dumpPage texts) htable
    | invalid issues => exact ⟨_, _, by rw [checkPage, htexts]⟩
  | _ => exact ⟨_, _, rfl⟩

/-- A content of a kind is valid as this kind. -/
theorem checkContent_attributeFields (c : PropContent) (i n : String) :
    checkContent c.kind (attributeFields i n c.data) = .valid c := by
  cases c with
  | action items =>
    have hitems : checkList checkTable (.list (items.map .dict)) = .valid items :=
      checkList_map fun members _ => rfl
    exact congrArg (fun r => Checked.map PropContent.action (within "value" r)) hitems
  | page target =>
    exact congrArg (fun r => Checked.map PropContent.page (within "value" r)) (checkPage_dumpPage target)
  | number n =>
    exact congrArg (fun r => Checked.map PropContent.number (within "value" r)) (checkNumber_toValue n)
  | _ => rfl

/-! ### Records -/

theorem pagePayload_of_isVoid {target anchor : Value} (h : anchor.IsVoid) : pagePayload target anchor = target :=
  if_neg (by simp [Document.isVoid_iff.mp h])

theorem pagePayload_of_not_isVoid {target anchor : Value} (h : ¬ anchor.IsVoid) :
    pagePayload target anchor = .dict [("pageId", target), ("instanceId", anchor)] :=
  if_pos (by simpa [Document.isVoid_iff] using h)

/-- A value that is not unfit has a content. -/
theorem exists_content_of_not_unfit {v : Value} (hfit : ¬ v.Unfit) (hlisted : ¬ v.Unlisted) :
    ∃ c : PropContent, c.kind = v.ruling.1 ∧ c.data = v.ruling.2 := by
  cases v with
  | str s => exact ⟨.string s, rfl, rfl⟩
  | int n => exact ⟨.number (.whole n), rfl, rfl⟩
  | float x => exact ⟨.number (.real x), rfl, rfl⟩
  | bool b => exact ⟨.boolean b, rfl, rfl⟩
  | wrapped kind payload =>
    by_cases hkind : kind = .placeholder
    · subst hkind
      exact ⟨.json payload, rfl, rfl⟩
    · have htext : payload.IsText := not_not.mp fun h => hfit (.text hkind h)
      obtain ⟨s, rfl⟩ := htext
      cases kind with
      | expression => exact ⟨.expression s, rfl, rfl⟩
      | parameter => exact ⟨.parameter s, rfl, rfl⟩
      | resource => exact ⟨.resource s, rfl, rfl⟩
      | asset => exact ⟨.asset s, rfl, rfl⟩
      | placeholder => exact absurd rfl hkind
  | action args code =>
    have hruled := classify_eq hlisted
    cases hitems : args.items? with
    | none => exact absurd ⟨args, code, rfl, hitems⟩ hlisted
    | some items =>
      rw [classify, hitems] at hruled
      rw [← Except.ok.inj hruled]
      exact ⟨.action [[("type", .str "execute"), ("args", .list items), ("code", code)]], rfl, rfl⟩
  | page target anchor =>
    have hcontent : (pagePayload target anchor).IsText ∨ (pagePayload target anchor).IsTextTable := by
      by_cases hanchor : anchor.IsVoid
      · rw [pagePayload_of_isVoid hanchor]
        by_contra hnone
        rw [not_or] at hnone
        exact hfit (.page hanchor hnone.1 hnone.2)
      · rw [pagePayload_of_not_isVoid hanchor]
        have htexts : target.IsText ∧ anchor.IsText := not_not.mp fun h => hfit (.anchored hanchor h)
        exact .inr ⟨_, rfl, by simpa using htexts⟩
    obtain ⟨page, hpage⟩ := exists_dumpPage_eq hcontent
    exact ⟨.page page, rfl, hpage⟩
  | _ => exact ⟨.json _, rfl, rfl⟩

/-- The content of a link that is neither a text nor a table of texts is refused. -/
theorem exists_issues_page {content : Value} (htext : ¬ content.IsText) (htable : ¬ content.IsTextTable)
    (i n : String) : ∃ first rest,
      checkContent .page (attributeFields i n content) = within "value" (.invalid (first :: rest)) := by
  obtain ⟨first, rest, hissues⟩ := exists_checkPage_issues htext htable
  exact ⟨first, rest, congrArg (fun r => Checked.map PropContent.page (within "value" r)) hissues⟩

/-- What a value that is unfit holds is refused as the content of its record. -/
theorem exists_issues_of_unfit {v : Value} (hv : v.Unfit) (i n : String) : ∃ first rest,
    checkContent v.ruling.1 (attributeFields i n v.ruling.2) = within "value" (.invalid (first :: rest)) := by
  cases hv with
  | @text kind payload hkind hpayload =>
    have hrefused := checkText_of_not_isText hpayload
    cases kind with
    | expression => exact ⟨_, _, congrArg (fun r => Checked.map PropContent.expression (within "value" r)) hrefused⟩
    | parameter => exact ⟨_, _, congrArg (fun r => Checked.map PropContent.parameter (within "value" r)) hrefused⟩
    | resource => exact ⟨_, _, congrArg (fun r => Checked.map PropContent.resource (within "value" r)) hrefused⟩
    | asset => exact ⟨_, _, congrArg (fun r => Checked.map PropContent.asset (within "value" r)) hrefused⟩
    | placeholder => exact absurd rfl hkind
  | @anchored target anchor hanchor htexts =>
    have hruling : (Value.page target anchor).ruling = (.page, pagePayload target anchor) := rfl
    rw [hruling, pagePayload_of_not_isVoid hanchor]
    refine exists_issues_page ?_ ?_ i n
    · rintro ⟨s, heq⟩
      cases heq
    · rintro ⟨members, heq, hmembers⟩
      obtain rfl := Value.dict.inj heq
      exact htexts (by simpa using hmembers)
  | @page target anchor hanchor htext htable =>
    have hruling : (Value.page target anchor).ruling = (.page, pagePayload target anchor) := rfl
    rw [hruling, pagePayload_of_isVoid hanchor]
    exact exists_issues_page htext htable i n

/-- The record of an attribute is refused if its content is. -/
theorem createProp_of_issues {i n : String} {v content : Value} {kind : PropKind} {issues : List Issue}
    (hkind : classify v = .ok (kind, content))
    (hc : checkContent kind (attributeFields i n content) = .invalid issues) :
    (createProp g.text (.str i) (.str n) v).outcome = .error (.invalidRecord kind.className issues) := by
  rw [outcome_createProp, hkind]
  show ofChecked kind.className (checkPropOf kind (attributeFields i n content)) = _
  unfold checkPropOf
  rw [hc]
  rfl

/-- **Dispatch.** Every value of an attribute meets one of three ends.  A typed value whose payload is not as its
record wants it is refused, under the class of this record, and every issue is about the content.  An action whose
arguments cannot be listed stops the dispatch.  Any other value has a record, whose id is made of the instance and
the name, with the kind and the content of the first rule that matches the value. -/
theorem dispatch_exact (g : Graph) (instanceId name : String) (v : Value) :
    (v.Unfit → ∃ issues, issues ≠ [] ∧ (∀ issue ∈ issues, issue.path.head? = some "value") ∧
      (createProp g.text (.str instanceId) (.str name) v).outcome =
        .error (.invalidRecord v.ruling.1.className issues)) ∧
    (v.Unlisted → (createProp g.text (.str instanceId) (.str name) v).outcome = .error .notIterable) ∧
    (¬ v.Unfit → ¬ v.Unlisted → ∃ content : PropContent,
      content.kind = v.ruling.1 ∧ content.data = v.ruling.2 ∧
      (createProp g.text (.str instanceId) (.str name) v).outcome =
        .ok ⟨instanceId ++ ":" ++ name, instanceId, name, content⟩) := by
  refine ⟨fun hunfit => ?_, fun hunlisted => ?_, fun hfit hlisted => ?_⟩
  · have hlisted : ¬ v.Unlisted := by
      rintro ⟨args, code, rfl, -⟩
      cases hunfit
    obtain ⟨first, rest, hissues⟩ := exists_issues_of_unfit hunfit instanceId name
    refine ⟨_, ?_, ?_, createProp_of_issues (classify_eq hlisted) hissues⟩
    · exact List.cons_ne_nil _ _
    · intro issue hmem
      obtain ⟨inner, -, rfl⟩ := List.mem_map.mp hmem
      rfl
  · rw [outcome_createProp, classify_of_unlisted hunlisted]
    rfl
  · obtain ⟨content, hkind, hdata⟩ := exists_content_of_not_unfit hfit hlisted
    refine ⟨content, hkind, hdata, ?_⟩
    have hclass : classify v = .ok (content.kind, content.data) := by rw [classify_eq hlisted, hkind, hdata]
    exact createProp_of_checkContent hclass (checkContent_attributeFields content instanceId name)

/-- A link to a page that is no text, with an anchor. -/
def numberedPage : Value := .page (.int 1) (.str "top")

/-- A link whose anchor is empty and does not count, to a page that is a table of texts. -/
def tabledPage : Value := .page (.dict [("pageId", .str "home")]) (.str "")

/-- An action whose arguments are a tuple. -/
def tupledAction : Value := .action (.tuple [.str "value"]) (.str "x = value")

/-- An action whose arguments are missing. -/
def bareAction : Value := .action .null (.str "go()")

theorem dispatch_exact_links :
    (∃ issues, (createProp Graph.empty.text (.str "box") (.str "a:b") numberedPage).outcome =
      .error (.invalidRecord "PageProp" issues)) ∧
    (createProp Graph.empty.text (.str "box") (.str "a:b") bareAction).outcome = .error .notIterable ∧
    (∃ content : PropContent, content.kind = .page ∧ content.data = .dict [("pageId", .str "home")] ∧
      (createProp Graph.empty.text (.str "box") (.str "a:b") tabledPage).outcome =
        .ok ⟨"box:a:b", "box", "a:b", content⟩) ∧
    ∃ content : PropContent, content.kind = .action ∧ content.data = .list
        [.dict [("type", .str "execute"), ("args", .list [.str "value"]), ("code", .str "x = value")]] ∧
      (createProp Graph.empty.text (.str "box") (.str "a:b") tupledAction).outcome =
        .ok ⟨"box:a:b", "box", "a:b", content⟩ := by
  have hunfit : numberedPage.Unfit := by
    refine .anchored (by simp [Document.isVoid_iff, Value.isTrue]) ?_
    rintro ⟨⟨s, heq⟩, -⟩
    cases heq
  have htabled : ¬ tabledPage.Unfit := by
    rintro (_ | ⟨hanchor, -⟩ | ⟨-, -, htable⟩)
    · exact hanchor .text
    · exact htable ⟨_, rfl, by simp [Value.IsText]⟩
  have htupled : ¬ tupledAction.Unfit := fun h => by cases h
  obtain ⟨issues, -, -, hrefused⟩ := (dispatch_exact .empty "box" "a:b" numberedPage).1 hunfit
  refine ⟨⟨issues, hrefused⟩, (dispatch_exact .empty "box" "a:b" bareAction).2.1 ⟨_, _, rfl, rfl⟩, ?_, ?_⟩
  · exact (dispatch_exact .empty "box" "a:b" tabledPage).2.2 htabled (by rintro ⟨args, code, heq, -⟩; cases heq)
  · refine (dispatch_exact .empty "box" "a:b" tupledAction).2.2 htupled ?_
    rintro ⟨args, code, heq, hitems⟩
    cases heq
    cases hitems

end ViewGraph
