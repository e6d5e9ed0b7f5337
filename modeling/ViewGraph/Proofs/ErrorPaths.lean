import ViewGraph.Proofs.Declared

/-!
# Paths of errors

The loader may be told the path of a document, and writes the path of every part down before it goes there.
The errors then name the places as if the document had been a part of a larger one.  A number that has too many
digits to be a child has no place: what it raises is the same at every path.

* `PlacedError`: a place and a text.
* `PlacedFailure`: such an error, or a number with too many digits.
* `loadAt path v`: the tree of a node that stands at a path; every part is given its own path.
* `loadAt_eq`: it is the tree that is loaded, and an error is reported where the way from that path leads.
* `joinPaths p q`: the path of a place in a document that stands at `p` itself.
* `FirstRejected doc place c`: `c` is the first child in a document that is rejected, and `place` its path.
* `paths_compose`: paths of errors are joined, and so they lead through the places of the children.
-/

namespace ViewGraph

/-! ### Definitions -/

/-- An error as it is reported: the place and what is wrong there. -/
structure PlacedError where
  path : String
  text : String
deriving DecidableEq

/-- Why a document that stands at a path has no tree. -/
inductive PlacedFailure
  | format (e : PlacedError)
  | tooManyDigits
deriving DecidableEq

/-- The path of a place in a document that stands at `p` itself. An index follows without a dot. -/
def joinPaths (p q : String) : String :=
  if p = "" then q
  else if q = "" then p
  else if q.toList.head? = some '[' then p ++ q
  else p ++ "." ++ q

/-- A step with which a path can begin: an index, or a member whose name has no bracket in front. -/
def Step.Begins : Step → Prop
  | member name => name ≠ "" ∧ name.toList.head? ≠ some '['
  | index _ => True

namespace Document

section Defs

variable {α : Type} (path : String)

/-- The problem of the value at a path. -/
def refuse (problem : Problem) : Except PlacedFailure α := .error (.format ⟨path, problem.text⟩)

/-- What is put before the name of a member of a node. The node at the root has no path. -/
def memberPrefix : String := if path = "" then "" else path ++ "."

/-- The path of the payload of a typed value. -/
def payloadPath (tag : String) : String := if path = "" then tag else path ++ "." ++ tag

def textAt : Value → Except PlacedFailure String
  | .str s => .ok s
  | v => refuse path (.textExpected v.typeName)

def loadActionAt : Value → Except PlacedFailure Value
  | .dict members => do
    let args := (Table.find? "args" members).getD (.list [])
    match args with
    | .list items =>
      if items.all isText then
        let code ← textAt (path ++ "." ++ "code") ((Table.find? "code" members).getD (.str ""))
        return .action (.list items) (.str code)
      else refuse (path ++ "." ++ "args") .argumentsExpected
    | _ => refuse (path ++ "." ++ "args") .argumentsExpected
  | _ => refuse path .actionExpected

def loadPageAt : Value → Except PlacedFailure Value
  | .str s => .ok (.page (.str s) .null)
  | .dict members =>
    match Table.find? "pageId" members with
    | none => refuse path .pageExpected
    | some page => do
      let page ← textAt (path ++ "." ++ "pageId") page
      match (Table.find? "instanceId" members).getD .null with
      | .null => return .page (.str page) .null
      | anchor =>
        let anchor ← textAt (path ++ "." ++ "instanceId") anchor
        return .page (.str page) (.str anchor)
  | _ => refuse path .pageExpected

def loadWrappedAt (kind : Wrapper) (payload : Value) : Except PlacedFailure Value := do
  return .wrapped kind (.str (← textAt path payload))

/-- The typed value of a tag. The payload has a path of its own, and an unknown tag has not. -/
def loadPayloadAt (tag : String) (payload : Value) : Except PlacedFailure Value :=
  if tag = "$expression" then loadWrappedAt (payloadPath path tag) .expression payload
  else if tag = "$parameter" then loadWrappedAt (payloadPath path tag) .parameter payload
  else if tag = "$resource" then loadWrappedAt (payloadPath path tag) .resource payload
  else if tag = "$asset" then loadWrappedAt (payloadPath path tag) .asset payload
  else if tag = "$placeholder" then loadWrappedAt (payloadPath path tag) .placeholder payload
  else if tag = "$action" then loadActionAt (payloadPath path tag) payload
  else if tag = "$page" then loadPageAt (payloadPath path tag) payload
  else refuse path (.unknownTag tag)

def loadValueAt (v : Value) : Except PlacedFailure Value :=
  match tagged? v with
  | some (tag, payload) => loadPayloadAt path tag payload
  | none => .ok v

def checkLabelAt : Option Value → Except PlacedFailure Unit
  | none | some .null | some (.str _) => .ok ()
  | some _ => refuse path .labelExpected

def checkDeclarationTableAt : Value → Except PlacedFailure Unit
  | .dict members =>
    match Table.find? "property" members, Table.find? "value" members with
    | some property, some _ => do
      let _ ← textAt (path ++ "." ++ "property") property
      match (Table.find? "state" members).getD .null with
      | .null => return ()
      | state =>
        let _ ← textAt (path ++ "." ++ "state") state
        return ()
    | _, _ => refuse path .declarationExpected
  | _ => refuse path .declarationExpected

def checkDeclarationsAt : Nat → List Value → Except PlacedFailure Unit
  | _, [] => .ok ()
  | i, v :: rest => do
    checkDeclarationTableAt (path ++ "[" ++ toString i ++ "]") v
    checkDeclarationsAt (i + 1) rest

def checkStylesAt : Option Value → Except PlacedFailure Unit
  | none | some .null => .ok ()
  | some (.list items) => checkDeclarationsAt path 0 items
  | some _ => refuse path .stylesExpected

def checkReservedAt (props : List (String × Value)) : Except PlacedFailure Unit := do
  checkLabelAt (path ++ "." ++ Element.labelAttribute) (Table.find? Element.labelAttribute props)
  checkStylesAt (path ++ "." ++ Element.styleAttribute) (Table.find? Element.styleAttribute props)

def loadPropsAt : List (String × Value) → Except PlacedFailure (List (String × Value))
  | [] => .ok []
  | (name, v) :: rest => do
    let v ← loadValueAt (path ++ "." ++ name) v
    let rest ← loadPropsAt rest
    return (name, v) :: rest

def propsOfAt (members : List (String × Value)) : Except PlacedFailure (List (String × Value)) :=
  match (Table.find? "props" members).getD .null with
  | .dict props => .ok props
  | v => if v.isTrue then refuse path .propsExpected else .ok []

def checkChildrenAt (members : List (String × Value)) : Except PlacedFailure Unit :=
  match (Table.find? "children" members).getD .null with
  | .list _ => .ok ()
  | v => if v.isTrue then refuse path .childrenExpected else .ok ()

/-- A whole number among children. If it has no text, that is reported without a path. -/
def loadWholeAt (n : Int) : Except PlacedFailure Value :=
  match showInt n with
  | .ok text => .ok (.str (String.ofList text))
  | .error _ => .error .tooManyDigits

def loadLeafAt? : Value → Option (Except PlacedFailure Value)
  | .str s => some (.ok (.str s))
  | .int n => some (loadWholeAt n)
  | .float x => some (.ok (.str (String.ofList x.text)))
  | v => (tagged? v).map fun (tag, payload) => do
    let value ← loadPayloadAt path tag payload
    match value with
    | .wrapped .expression _ | .wrapped .placeholder _ => return value
    | _ => refuse path .valueAsChild

end Defs

mutual

/-- The tree of a node that stands at a path. -/
def loadAt (path : String) : Value → Except PlacedFailure Tree
  | .list items => do
    let children ← loadChildrenAt path 0 items
    return .node .fragment [] children
  | .dict members => do
    let some component := Table.find? "component" members | refuse path .componentMissing
    let name ← textAt (memberPrefix path ++ "component") component
    let props ← propsOfAt (memberPrefix path ++ "props") members
    checkReservedAt (memberPrefix path ++ "props") props
    checkChildrenAt (memberPrefix path ++ "children") members
    let props ← loadPropsAt (memberPrefix path ++ "props") props
    let children ← loadMemberAt (memberPrefix path ++ "children") members
    return .node (if name = fragmentComponent then .fragment else .str name) props children
  | v => refuse path (.nodeExpected v.typeName)

def loadMemberAt (path : String) : List (String × Value) → Except PlacedFailure (List Tree)
  | [] => .ok []
  | (name, v) :: rest =>
    if name = "children" then
      match v with
      | .list items => loadChildrenAt path 0 items
      | _ => .ok []
    else loadMemberAt path rest

/-- The children in a list at a path, the first of them at this index. A null is no child, but counts. -/
def loadChildrenAt (path : String) : Nat → List Value → Except PlacedFailure (List Tree)
  | _, [] => .ok []
  | i, v :: rest =>
    if v.isNull then loadChildrenAt path (i + 1) rest
    else do
      let child ← (match loadLeafAt? (path ++ "[" ++ toString i ++ "]") v with
        | some leaf => Tree.leaf <$> leaf
        | none => loadAt (path ++ "[" ++ toString i ++ "]") v)
      let rest ← loadChildrenAt path (i + 1) rest
      return child :: rest

end

/-- A child that stands at a path: a leaf, or a node. -/
def loadChildAt (path : String) (v : Value) : Except PlacedFailure Tree :=
  match loadLeafAt? path v with
  | some leaf => Tree.leaf <$> leaf
  | none => loadAt path v

/-- A child: a leaf, or a node. -/
def loadChild (v : Value) : Loading Tree :=
  match loadLeaf? v with
  | some leaf => Tree.leaf <$> leaf
  | none => load v

/-- `c` is the first child in a document that is rejected, and `place` is its path there: the document is
accepted if that child and those after it are left out, and the child has an error of its own. A null is no child,
but it counts. -/
inductive FirstRejected : Value → String → Value → Prop
  | item {pre post : List Value} {c : Value} (hpre : ∃ t, loadAt "" (.list pre) = .ok t)
      (hnull : c.isNull = false) (hc : ∃ e, loadChildAt "" c = .error (.format e)) :
      FirstRejected (.list (pre ++ c :: post)) ("[" ++ toString pre.length ++ "]") c
  | child {members : List (String × Value)} {pre post : List Value} {c : Value}
      (hmember : Table.find? "children" members = some (.list (pre ++ c :: post)))
      (hpre : ∃ t, loadAt "" (.dict (Table.insert "children" (.list pre) members)) = .ok t)
      (hnull : c.isNull = false) (hc : ∃ e, loadChildAt "" c = .error (.format e)) :
      FirstRejected (.dict members) ("children" ++ "[" ++ toString pre.length ++ "]") c
  | deeper {doc c c' : Value} {place place' : String} (h : FirstRejected doc place c)
      (h' : FirstRejected c place' c') : FirstRejected doc (joinPaths place place') c'

/-! ### What is reported -/

/-- What is loaded, with the error as it is reported for a document at a path. -/
def report {α : Type} (path : String) (r : Loading α) : Except PlacedFailure α :=
  r.mapError fun
    | .format e => .format ⟨e.path path, e.problem.text⟩
    | .tooManyDigits => .tooManyDigits

section Report

variable {α β : Type} {path : String}

theorem report_within (step : Step) (r : Loading α) :
    report path (within step r) = report (step.extend path) r := by
  rcases r with (e | _) | a <;> rfl

theorem report_bind (r : Loading α) (f : α → Loading β) :
    report path (r >>= f) = report path r >>= fun a => report path (f a) := by
  cases r <;> rfl

theorem report_pure (a : α) : report path (pure a) = pure a := rfl

/-- A member of a part that has a path. -/
theorem report_member (hp : path ≠ "") (name : String) (r : Loading α) :
    report path (within (.member name) r) = report (path ++ "." ++ name) r := by
  rw [report_within]
  simp [Step.extend, hp]

/-- A member of a node, which may be at the root. -/
theorem report_nodeMember (name : String) (r : Loading α) :
    report path (within (.member name) r) = report (memberPrefix path ++ name) r := by
  rw [report_within]
  by_cases hp : path = ""
  · simp [Step.extend, memberPrefix, hp]
  · simp [Step.extend, memberPrefix, hp]

theorem report_payload (tag : String) (r : Loading α) :
    report path (within (.member tag) r) = report (payloadPath path tag) r := by
  rw [report_within]
  by_cases hp : path = "" <;> simp [Step.extend, payloadPath, hp]

theorem report_index (i : ℕ) (r : Loading α) :
    report path (within (.index i) r) = report (path ++ "[" ++ toString i ++ "]") r :=
  report_within (.index i) r

theorem memberPrefix_append_ne {name : String} (hname : name ≠ "") : memberPrefix path ++ name ≠ "" := by
  simp [hname]

theorem payloadPath_ne {tag : String} (htag : tag ≠ "") : payloadPath path tag ≠ "" := by
  unfold payloadPath
  split_ifs
  · exact htag
  · simp [htag]

theorem textAt_eq (v : Value) : textAt path v = report path (text v) := by
  cases v <;> rfl

theorem loadActionAt_eq (hp : path ≠ "") (v : Value) : loadActionAt path v = report path (loadAction v) := by
  cases v with
  | dict members =>
    cases hargs : (Table.find? "args" members).getD (.list []) with
    | list items =>
      simp only [loadActionAt, loadAction, hargs]
      by_cases hall : items.all isText = true
      · rw [if_pos hall, if_pos hall, report_bind, report_member hp, textAt_eq]
        rfl
      · rw [if_neg hall, if_neg hall, report_member hp]
        rfl
    | _ =>
      simp only [loadActionAt, loadAction, hargs]
      rw [report_member hp]
      rfl
  | _ => rfl

theorem loadPageAt_eq (hp : path ≠ "") (v : Value) : loadPageAt path v = report path (loadPage v) := by
  cases v with
  | dict members =>
    cases hpage : Table.find? "pageId" members with
    | none =>
      simp only [loadPageAt, loadPage, hpage]
      rfl
    | some page =>
      simp only [loadPageAt, loadPage, hpage]
      rw [report_bind, report_member hp, textAt_eq]
      congr 1
      funext id
      cases hanchor : (Table.find? "instanceId" members).getD .null with
      | null => rfl
      | _ =>
        simp only [report_bind, report_member hp, textAt_eq]
        rfl
  | _ => rfl

theorem loadWrappedAt_eq (kind : Wrapper) (v : Value) :
    loadWrappedAt path kind v = report path (loadWrapped kind v) := by
  rw [loadWrappedAt, loadWrapped, report_bind, textAt_eq]
  rfl

theorem loadPayloadAt_eq (tag : String) (v : Value) :
    loadPayloadAt path tag v = report path (loadPayload tag v) := by
  unfold loadPayloadAt loadPayload
  split_ifs with hexpression hparameter hresource hasset hplaceholder haction hpage
  · rw [report_payload, loadWrappedAt_eq]
  · rw [report_payload, loadWrappedAt_eq]
  · rw [report_payload, loadWrappedAt_eq]
  · rw [report_payload, loadWrappedAt_eq]
  · rw [report_payload, loadWrappedAt_eq]
  · rw [report_payload, loadActionAt_eq (payloadPath_ne (by simp [haction]))]
  · rw [report_payload, loadPageAt_eq (payloadPath_ne (by simp [hpage]))]
  · rfl

theorem loadValueAt_eq (v : Value) : loadValueAt path v = report path (loadValue v) := by
  unfold loadValueAt loadValue
  cases tagged? v with
  | none => rfl
  | some a => exact loadPayloadAt_eq a.1 a.2

theorem checkLabelAt_eq (o : Option Value) : checkLabelAt path o = report path (checkLabel o) := by
  cases o with
  | none => rfl
  | some v => cases v <;> rfl

theorem checkDeclarationTableAt_eq (hp : path ≠ "") (v : Value) :
    checkDeclarationTableAt path v = report path (checkDeclarationTable v) := by
  cases v with
  | dict members =>
    cases hproperty : Table.find? "property" members with
    | none =>
      simp only [checkDeclarationTableAt, checkDeclarationTable, hproperty]
      rfl
    | some property =>
      cases hvalue : Table.find? "value" members with
      | none =>
        simp only [checkDeclarationTableAt, checkDeclarationTable, hproperty, hvalue]
        rfl
      | some value =>
        simp only [checkDeclarationTableAt, checkDeclarationTable, hproperty, hvalue]
        rw [report_bind, report_member hp, textAt_eq]
        congr 1
        funext name
        cases (Table.find? "state" members).getD .null with
        | null => rfl
        | _ =>
          simp only [report_bind, report_member hp, textAt_eq]
          rfl
  | _ => rfl

theorem checkDeclarationsAt_eq (i : ℕ) (items : List Value) :
    checkDeclarationsAt path i items = report path (checkDeclarations i items) := by
  induction items generalizing i with
  | nil => rfl
  | cons v rest ih =>
    rw [checkDeclarationsAt, checkDeclarations, report_bind, report_index, ih,
      checkDeclarationTableAt_eq (by simp)]

theorem checkStylesAt_eq (o : Option Value) : checkStylesAt path o = report path (checkStyles o) := by
  cases o with
  | none => rfl
  | some v =>
    cases v with
    | list items => exact checkDeclarationsAt_eq 0 items
    | _ => rfl

theorem checkReservedAt_eq (hp : path ≠ "") (props : List (String × Value)) :
    checkReservedAt path props = report path (checkReserved props) := by
  rw [checkReservedAt, checkReserved, report_bind, report_member hp, report_member hp, checkLabelAt_eq,
    checkStylesAt_eq]

theorem loadPropsAt_eq (hp : path ≠ "") (props : List (String × Value)) :
    loadPropsAt path props = report path (loadProps props) := by
  induction props with
  | nil => rfl
  | cons a rest ih =>
    obtain ⟨name, v⟩ := a
    rw [loadPropsAt, loadProps, report_bind, report_member hp, loadValueAt_eq, ih]
    simp only [report_bind, report_pure]

theorem propsOfAt_eq (members : List (String × Value)) :
    propsOfAt path members = report path (propsOf members) := by
  unfold propsOfAt propsOf
  cases (Table.find? "props" members).getD .null with
  | dict props => rfl
  | _ =>
    dsimp only
    split_ifs <;> rfl

theorem checkChildrenAt_eq (members : List (String × Value)) :
    checkChildrenAt path members = report path (checkChildren members) := by
  unfold checkChildrenAt checkChildren
  cases (Table.find? "children" members).getD .null with
  | list items => rfl
  | _ =>
    dsimp only
    split_ifs <;> rfl

/-- A typed value that stands for a child. -/
theorem taggedLeafAt_eq (a : String × Value) :
    (do
      let value ← loadPayloadAt path a.1 a.2
      match value with
      | .wrapped .expression _ | .wrapped .placeholder _ => return value
      | _ => refuse path .valueAsChild) =
    report path (do
      let value ← loadPayload a.1 a.2
      match value with
      | .wrapped .expression _ | .wrapped .placeholder _ => return value
      | _ => fail .valueAsChild) := by
  rw [report_bind, loadPayloadAt_eq]
  congr 1
  funext value
  cases value with
  | wrapped kind payload => cases kind <;> rfl
  | _ => rfl

theorem loadWholeAt_eq (n : Int) : loadWholeAt n = report path (loadWhole n) := by
  unfold loadWholeAt loadWhole
  cases showInt n <;> rfl

theorem loadLeafAt?_eq (v : Value) : loadLeafAt? path v = (loadLeaf? v).map (report path) := by
  cases v with
  | str s => rfl
  | int n => exact congrArg some (loadWholeAt_eq n)
  | float x => rfl
  | dict members =>
    show (tagged? (.dict members)).map _ = ((tagged? (.dict members)).map _).map (report path)
    rw [Option.map_map]
    congr 1
    funext a
    exact taggedLeafAt_eq a
  | _ => rfl

end Report

mutual

/-- **Reports.** What is loaded at a path is what is loaded, and an error is reported where the way from that
path leads. -/
theorem loadAt_eq (path : String) : ∀ v : Value, loadAt path v = report path (load v)
  | .list items => by
    rw [loadAt, load, report_bind, loadChildrenAt_eq path 0 items]
    rfl
  | .dict members => by
    rw [loadAt, load]
    cases Table.find? "component" members with
    | none => rfl
    | some component =>
      have hprops : memberPrefix path ++ "props" ≠ "" := memberPrefix_append_ne (by decide)
      simp only [report_bind, report_nodeMember, textAt_eq, propsOfAt_eq, checkReservedAt_eq hprops,
        checkChildrenAt_eq, loadPropsAt_eq hprops, loadMemberAt_eq (memberPrefix path ++ "children") members,
        report_pure]
  | .null => rfl
  | .bool _ => rfl
  | .int _ => rfl
  | .float _ => rfl
  | .str _ => rfl
  | .tuple _ => rfl
  | .wrapped _ _ => rfl
  | .action _ _ => rfl
  | .page _ _ => rfl
  | .style _ _ _ => rfl
  | .fragment => rfl
  | .component _ => rfl
  | .element _ => rfl

theorem loadMemberAt_eq (path : String) : ∀ members : List (String × Value),
    loadMemberAt path members = report path (loadMember members)
  | [] => rfl
  | (name, v) :: rest => by
    by_cases hname : name = "children"
    · cases v with
      | list items =>
        simp only [loadMemberAt, loadMember, if_pos hname]
        exact loadChildrenAt_eq path 0 items
      | _ =>
        simp only [loadMemberAt, loadMember, if_pos hname]
        rfl
    · cases v with
      | _ =>
        simp only [loadMemberAt, loadMember, if_neg hname]
        exact loadMemberAt_eq path rest

theorem loadChildrenAt_eq (path : String) : ∀ (i : ℕ) (items : List Value),
    loadChildrenAt path i items = report path (loadChildren i items)
  | _, [] => rfl
  | i, v :: rest => by
    rw [loadChildrenAt, loadChildren]
    split_ifs with hnull
    · exact loadChildrenAt_eq path (i + 1) rest
    · -- the child is given a path of its own, so the statement is about every path
      rw [report_bind, report_index, loadLeafAt?_eq]
      simp only [report_bind, report_pure, loadChildrenAt_eq path (i + 1) rest]
      congr 1
      cases loadLeaf? v with
      | some leaf => cases leaf <;> rfl
      | none => exact loadAt_eq _ v

end

theorem loadChildAt_eq (path : String) (v : Value) : loadChildAt path v = report path (loadChild v) := by
  unfold loadChildAt loadChild
  rw [loadLeafAt?_eq]
  cases loadLeaf? v with
  | some leaf => cases leaf <;> rfl
  | none => exact loadAt_eq path v

/-! ### Joined paths -/

section Join

variable {p q r : String}

theorem joinPaths_root : joinPaths "" q = q := rfl

theorem joinPaths_self : joinPaths p "" = p := by
  by_cases hp : p = "" <;> simp [joinPaths, hp]

/-- What follows a path that is not empty follows the joined path. -/
theorem joinPaths_append (hq : q ≠ "") (s : String) : joinPaths p (q ++ s) = joinPaths p q ++ s := by
  have hne : q ++ s ≠ "" := by simp [hq]
  have hhead : (q ++ s).toList.head? = q.toList.head? := by
    rw [String.toList_append, List.head?_append_of_ne_nil]
    simpa using hq
  unfold joinPaths
  simp only [hq, hne, hhead, if_false]
  split_ifs
  · rfl
  · rw [String.append_assoc]
  · simp only [String.append_assoc]

theorem joinPaths_ne (hq : q ≠ "") : joinPaths p q ≠ "" := by
  unfold joinPaths
  split_ifs <;> simp [hq]

/-- A path is put behind every path that is not empty in the same way. -/
theorem exists_joinPaths_eq (r : String) : ∃ s, ∀ q, q ≠ "" → joinPaths q r = q ++ s := by
  by_cases hr : r = ""
  · exact ⟨"", fun q _ => by rw [hr, joinPaths_self, String.append_empty]⟩
  · by_cases hhead : r.toList.head? = some '['
    · exact ⟨r, fun q hq => by simp [joinPaths, hq, hr, hhead]⟩
    · exact ⟨"." ++ r, fun q hq => by simp [joinPaths, hq, hr, hhead, String.append_assoc]⟩

theorem joinPaths_assoc : joinPaths (joinPaths p q) r = joinPaths p (joinPaths q r) := by
  by_cases hq : q = ""
  · rw [hq, joinPaths_self, joinPaths_root]
  · obtain ⟨s, hs⟩ := exists_joinPaths_eq r
    rw [hs q hq, hs _ (joinPaths_ne hq), joinPaths_append hq]

/-- A step goes on in the same way behind every path that is not empty. -/
theorem exists_extend_eq (step : Step) : ∃ s, ∀ q, q ≠ "" → step.extend q = q ++ s := by
  cases step with
  | member name => exact ⟨"." ++ name, fun q hq => by simp [Step.extend, hq, String.append_assoc]⟩
  | index i => exact ⟨"[" ++ toString i ++ "]", fun q _ => by simp [Step.extend, String.append_assoc]⟩

/-- The first step of a path is put behind another path as the joined path is. -/
theorem extend_of_begins {step : Step} (hstep : step.Begins) (p : String) :
    step.extend "" ≠ "" ∧ step.extend p = joinPaths p (step.extend "") := by
  cases step with
  | member name =>
    obtain ⟨hne, hhead⟩ := hstep
    by_cases hp : p = "" <;> simp [Step.extend, joinPaths, hp, hne, hhead]
  | index i =>
    by_cases hp : p = "" <;> simp [Step.extend, joinPaths, hp, String.append_assoc]

theorem extend_item (i : ℕ) (p : String) :
    (Step.index i).extend p = joinPaths p ("[" ++ toString i ++ "]") := by
  have hbegins : (Step.index i).Begins := trivial
  obtain ⟨-, hextend⟩ := extend_of_begins hbegins p
  rw [hextend, Step.extend, String.empty_append]

theorem extend_child (i : ℕ) (p : String) : (Step.index i).extend ((Step.member "children").extend p) =
    joinPaths p ("children" ++ "[" ++ toString i ++ "]") := by
  have hbegins : (Step.member "children").Begins := ⟨by decide, by decide⟩
  obtain ⟨hne, hextend⟩ := extend_of_begins hbegins p
  have hname : (Step.member "children").extend "" = "children" := rfl
  rw [hextend, hname, Step.extend, joinPaths_append (by simp), joinPaths_append (by simp),
    joinPaths_append (by decide)]

theorem foldl_extend (steps : List Step) (p : String) (hq : q ≠ "") :
    steps.foldl Step.extend (joinPaths p q) = joinPaths p (steps.foldl Step.extend q) := by
  induction steps generalizing q with
  | nil => rfl
  | cons step steps ih =>
    obtain ⟨s, hs⟩ := exists_extend_eq step
    have hqs : q ++ s ≠ "" := by simp [hq]
    rw [List.foldl_cons, List.foldl_cons, hs q hq, hs _ (joinPaths_ne hq), ← joinPaths_append hq, ih hqs]

/-- The path of an error is joined to the path of the document. -/
theorem path_eq_joinPaths {e : DocumentError} (he : ∀ step ∈ e.steps.head?, step.Begins) (p : String) :
    e.path p = joinPaths p (e.path "") := by
  unfold DocumentError.path
  cases hsteps : e.steps with
  | nil => exact joinPaths_self.symm
  | cons step steps =>
    obtain ⟨hne, hextend⟩ := extend_of_begins (he step (by simp [hsteps])) p
    rw [List.foldl_cons, List.foldl_cons, hextend, foldl_extend steps p hne]

end Join

/-! ### Where an error leads -/

/-- The errors of what is loaded lie at the place itself, or begin with such a step. -/
def Leads {α : Type} (r : Loading α) : Prop :=
  ∀ e, r = .error (.format e) → ∀ step ∈ e.steps.head?, step.Begins

/-- The names of the members with which the path of an error can begin. -/
def leadingNames : List String :=
  ["component", "props", "children", "$expression", "$parameter", "$resource", "$asset", "$placeholder", "$action",
    "$page"]

section Leads

variable {α β : Type}

theorem leads_ok (a : α) : Leads (.ok a : Loading α) := nofun

theorem leads_fail (problem : Problem) : Leads (fail problem : Loading α) := by
  rintro e he step hstep
  obtain rfl := LoadError.format.inj (Except.error.inj he)
  simp at hstep

theorem leads_tooManyDigits : Leads (.error .tooManyDigits : Loading α) := nofun

theorem leads_within {step : Step} (hstep : step.Begins) (r : Loading α) : Leads (within step r) := by
  intro e he
  cases r with
  | ok a => simp [within, Except.mapError] at he
  | error err =>
    cases err with
    | format e' =>
      obtain rfl := LoadError.format.inj (Except.error.inj he)
      simpa using hstep
    | tooManyDigits => cases Except.error.inj he

theorem Leads.bind {r : Loading α} {f : α → Loading β} (hr : Leads r) (hf : ∀ a, Leads (f a)) :
    Leads (r >>= f) := by
  cases r with
  | ok a => exact hf a
  | error e =>
    intro e' he'
    obtain rfl := Except.error.inj he'
    exact hr e' rfl

theorem leads_index (i : ℕ) (r : Loading α) : Leads (within (.index i) r) := by
  have hbegins : (Step.index i).Begins := trivial
  exact leads_within hbegins r

theorem leads_loadChildren (i : ℕ) (items : List Value) : Leads (loadChildren i items) := by
  induction items generalizing i with
  | nil => exact leads_ok []
  | cons v rest ih =>
    rw [loadChildren]
    split_ifs
    · exact ih (i + 1)
    · exact (leads_index i _).bind fun _ => (ih (i + 1)).bind fun _ => leads_ok _

/-- So it is with the members of a node, and with the tags. -/
theorem leads_member {name : String} (hname : name ∈ leadingNames) (r : Loading α) :
    Leads (within (.member name) r) := by
  have hall : ∀ name ∈ leadingNames, name ≠ "" ∧ name.toList.head? ≠ some '[' := by decide
  have hbegins : (Step.member name).Begins := hall name hname
  exact leads_within hbegins r

theorem leads_load (v : Value) : Leads (load v) := by
  cases v with
  | list items =>
    rw [load]
    exact (leads_loadChildren 0 items).bind fun _ => leads_ok _
  | dict members =>
    rw [load]
    cases Table.find? "component" members with
    | none => exact leads_fail _
    | some component =>
      have hcomponent : Leads (within (.member "component") (text component)) := leads_member (by decide) _
      have hgiven : Leads (within (.member "props") (propsOf members)) := leads_member (by decide) _
      refine hcomponent.bind fun name => hgiven.bind fun given => ?_
      have hreserved : Leads (within (.member "props") (checkReserved given)) := leads_member (by decide) _
      have hlist : Leads (within (.member "children") (checkChildren members)) := leads_member (by decide) _
      refine hreserved.bind fun _ => hlist.bind fun _ => ?_
      have hprops : Leads (within (.member "props") (loadProps given)) := leads_member (by decide) _
      have hchildren : Leads (within (.member "children") (loadMember members)) := leads_member (by decide) _
      exact hprops.bind fun props => hchildren.bind fun ts => leads_ok _
  | _ => exact leads_fail _

theorem leads_loadPayload (tag : String) (v : Value) : Leads (loadPayload tag v) := by
  unfold loadPayload
  split_ifs with hexpression hparameter hresource hasset hplaceholder haction hpage
  · exact leads_member (by simp [hexpression, leadingNames]) _
  · exact leads_member (by simp [hparameter, leadingNames]) _
  · exact leads_member (by simp [hresource, leadingNames]) _
  · exact leads_member (by simp [hasset, leadingNames]) _
  · exact leads_member (by simp [hplaceholder, leadingNames]) _
  · exact leads_member (by simp [haction, leadingNames]) _
  · exact leads_member (by simp [hpage, leadingNames]) _
  · exact leads_fail _

theorem leads_loadWhole (n : Int) : Leads (loadWhole n) := by
  unfold loadWhole
  cases showInt n with
  | ok text => exact leads_ok _
  | error _ => exact leads_tooManyDigits

theorem leads_loadLeaf {v : Value} {leaf : Loading Value} (h : loadLeaf? v = some leaf) : Leads leaf := by
  cases v with
  | str s =>
    obtain rfl := Option.some.inj h
    exact leads_ok _
  | int n =>
    obtain rfl := Option.some.inj h
    exact leads_loadWhole n
  | float x =>
    obtain rfl := Option.some.inj h
    exact leads_ok _
  | dict members =>
    obtain ⟨a, -, rfl⟩ := Option.map_eq_some_iff.mp h
    refine (leads_loadPayload a.1 a.2).bind fun value => ?_
    cases value with
    | wrapped kind payload => cases kind <;> first | exact leads_ok _ | exact leads_fail _
    | _ => exact leads_fail _
  | _ => simp [loadLeaf?, tagged?] at h

theorem leads_loadChild (v : Value) : Leads (loadChild v) := by
  unfold loadChild
  cases hleaf : loadLeaf? v with
  | some leaf => exact (leads_loadLeaf hleaf).bind fun _ => leads_ok _
  | none => exact leads_load v

end Leads

/-! ### The first child that is rejected -/

section Rejected

theorem report_eq_ok {α : Type} {path : String} {r : Loading α} {a : α} : report path r = .ok a ↔ r = .ok a := by
  cases r <;> simp [report, Except.mapError]

theorem report_eq_error {α : Type} {path : String} {r : Loading α} {err : PlacedError} :
    report path r = .error (.format err) ↔
      ∃ e, r = .error (.format e) ∧ err = ⟨e.path path, e.problem.text⟩ := by
  rcases r with (e | _) | a <;> simp [report, Except.mapError, eq_comm]

theorem report_eq_tooManyDigits {α : Type} {path : String} {r : Loading α} :
    report path r = .error .tooManyDigits ↔ r = .error .tooManyDigits := by
  rcases r with (e | _) | a <;> simp [report, Except.mapError]

/-- An error is reported where the way from the root leads, behind the path of the document. -/
theorem report_joinPaths {α : Type} {r : Loading α} (hr : Leads r) {q m : String}
    (h : report "" r = .error (.format ⟨q, m⟩)) (p : String) :
    report p r = .error (.format ⟨joinPaths p q, m⟩) := by
  obtain ⟨e, rfl, herr⟩ := report_eq_error.mp h
  obtain ⟨rfl, rfl⟩ := PlacedError.mk.inj herr
  exact report_eq_error.mpr ⟨e, rfl, by rw [path_eq_joinPaths (hr e rfl) p]⟩

theorem loadMember_eq (members : List (String × Value)) : loadMember members =
    match Table.find? "children" members with
    | some (.list items) => loadChildren 0 items
    | _ => .ok [] := by
  induction members with
  | nil => rfl
  | cons a rest ih =>
    obtain ⟨name, v⟩ := a
    by_cases hname : name = "children"
    · subst hname
      cases v <;> simp [loadMember, Table.find?_cons]
    · have hne : "children" ≠ name := fun heq => hname heq.symm
      cases v <;> simp [loadMember, Table.find?_cons, hname, hne, ih]

theorem loadChildren_cons {v : Value} (hnull : v.isNull = false) (i : ℕ) (rest : List Value) :
    loadChildren i (v :: rest) = do
      let child ← within (.index i) (loadChild v)
      let rest ← loadChildren (i + 1) rest
      return child :: rest := by
  rw [loadChildren, if_neg (by simp [hnull])]
  rfl

variable {pre post : List Value} {c doc : Value} {e : LoadError}

/-- The children before the first one that is rejected are loaded, and those after it are not looked at. -/
theorem loadChildren_rejected {i : ℕ} {ts : List Tree} (hpre : loadChildren i pre = .ok ts)
    (hnull : c.isNull = false) (hc : loadChild c = .error e) :
    loadChildren i (pre ++ c :: post) = within (.index (i + pre.length)) (.error e) := by
  induction pre generalizing i ts with
  | nil =>
    rw [List.nil_append, loadChildren_cons hnull, hc]
    rfl
  | cons v pre ih =>
    have hi : i + (v :: pre).length = i + 1 + pre.length := by
      rw [List.length_cons]
      omega
    rw [List.cons_append, hi]
    cases hv : v.isNull with
    | true =>
      rw [loadChildren, if_pos hv] at hpre ⊢
      exact ih hpre
    | false =>
      rw [loadChildren_cons hv] at hpre ⊢
      obtain ⟨t, ht, hpre⟩ := Logged.bind_eq_ok.mp hpre
      obtain ⟨rest, hrest, -⟩ := Logged.bind_eq_ok.mp hpre
      rw [ht, ih hrest]
      rfl

/-- In a fragment. -/
theorem load_list_rejected {t : Tree} (hpre : load (.list pre) = .ok t) (hnull : c.isNull = false)
    (hc : loadChild c = .error e) :
    load (.list (pre ++ c :: post)) = within (.index pre.length) (.error e) := by
  rw [load] at hpre ⊢
  obtain ⟨ts, hts, -⟩ := Logged.bind_eq_ok.mp hpre
  rw [loadChildren_rejected hts hnull hc, Nat.zero_add]
  rfl

/-- In another node. -/
theorem load_dict_rejected {members : List (String × Value)} {t : Tree}
    (hmember : Table.find? "children" members = some (.list (pre ++ c :: post)))
    (hpre : load (.dict (Table.insert "children" (.list pre) members)) = .ok t) (hnull : c.isNull = false)
    (hc : loadChild c = .error e) :
    load (.dict members) = within (.member "children") (within (.index pre.length) (.error e)) := by
  have hother : ∀ {name : String}, name ≠ "children" →
      Table.find? name (Table.insert "children" (.list pre) members) = Table.find? name members :=
    fun hname => Table.find?_insert_of_ne hname _ members
  have hgivenSame : propsOf (Table.insert "children" (.list pre) members) = propsOf members := by
    rw [propsOf, propsOf, hother (by decide)]
  have hchecked : checkChildren members = .ok () := by
    rw [checkChildren, hmember]
    rfl
  rw [load, hother (by decide), hgivenSame, loadMember_eq, Table.find?_insert_self] at hpre
  rw [load, loadMember_eq, hmember, hchecked]
  cases hcomponent : Table.find? "component" members with
  | none => simp [hcomponent] at hpre
  | some component =>
    simp only [hcomponent] at hpre ⊢
    obtain ⟨name, hname, hpre⟩ := Logged.bind_eq_ok.mp hpre
    obtain ⟨given, hgiven, hpre⟩ := Logged.bind_eq_ok.mp hpre
    obtain ⟨⟨⟩, hreserved, hpre⟩ := Logged.bind_eq_ok.mp hpre
    obtain ⟨⟨⟩, -, hpre⟩ := Logged.bind_eq_ok.mp hpre
    obtain ⟨props, hprops, hpre⟩ := Logged.bind_eq_ok.mp hpre
    obtain ⟨ts, hts, -⟩ := Logged.bind_eq_ok.mp hpre
    rw [within_eq_ok] at hts
    rw [hname, hgiven, loadChildren_rejected hts hnull hc, Nat.zero_add]
    show (within (.member "props") (checkReserved given) >>= _) = _
    rw [hreserved]
    show (within (.member "props") (loadProps given) >>= _) = _
    rw [hprops]
    rfl

theorem loadLeaf?_of_firstRejected {place : String} (h : FirstRejected doc place c) : loadLeaf? doc = none := by
  induction h with
  | item _ _ _ => rfl
  | @child members _ _ _ hmember _ _ _ =>
    have hnone : tagged? (.dict members) = none := by
      by_contra hsome
      obtain ⟨t, ht⟩ := Option.ne_none_iff_exists'.mp hsome
      rw [find?_of_tagged? ht (by decide +kernel)] at hmember
      cases hmember
    exact Option.map_eq_none_iff.mpr hnone
  | deeper _ _ ih _ => exact ih

/-- The error of a child is reported behind the path of the child, if that is what becomes of the document. -/
theorem exists_reported {place : String} (hc : ∃ err, loadChildAt "" c = .error (.format err))
    (hdoc : ∀ e, loadChild c = .error e → ∀ p, loadAt p doc = report (joinPaths p place) (.error e)) :
    ∃ q m, loadChildAt "" c = .error (.format ⟨q, m⟩) ∧
      ∀ p, loadAt p doc = .error (.format ⟨joinPaths (joinPaths p place) q, m⟩) := by
  obtain ⟨⟨q, m⟩, herr⟩ := hc
  refine ⟨q, m, herr, fun p => ?_⟩
  rw [loadChildAt_eq] at herr
  obtain ⟨e, he, -⟩ := report_eq_error.mp herr
  rw [hdoc _ he p, ← he]
  exact report_joinPaths (leads_loadChild c) herr _

/-- So it is with the first child that is rejected. -/
theorem reported_of_firstRejected {place : String} (h : FirstRejected doc place c) :
    ∃ q m, loadChildAt "" c = .error (.format ⟨q, m⟩) ∧
      ∀ p, loadAt p doc = .error (.format ⟨joinPaths (joinPaths p place) q, m⟩) := by
  induction h with
  | item hpre hnull hc =>
    obtain ⟨t, ht⟩ := hpre
    rw [loadAt_eq, report_eq_ok] at ht
    refine exists_reported hc fun e he p => ?_
    rw [loadAt_eq, load_list_rejected ht hnull he, report_within, extend_item]
  | child hmember hpre hnull hc =>
    obtain ⟨t, ht⟩ := hpre
    rw [loadAt_eq, report_eq_ok] at ht
    refine exists_reported hc fun e he p => ?_
    rw [loadAt_eq, load_dict_rejected hmember ht hnull he, report_within, report_within, extend_child]
  | @deeper doc c c' place place' h h' ih ih' =>
    obtain ⟨q, m, hown, hdoc⟩ := ih
    obtain ⟨q', m', hown', hchild⟩ := ih'
    have hnode : loadChildAt "" c = loadAt "" c := by
      rw [loadChildAt, loadLeafAt?_eq, loadLeaf?_of_firstRejected h']
      rfl
    rw [hnode, hchild "", joinPaths_root] at hown
    obtain ⟨rfl, rfl⟩ := PlacedError.mk.inj (PlacedFailure.format.inj (Except.error.inj hown))
    refine ⟨q', m', hown', fun p => ?_⟩
    rw [hdoc p, ← joinPaths_assoc, ← joinPaths_assoc]

/-- **Paths.** A document that is loaded at a path gives the same tree, or the same error, whose path is joined to
that of the document.  So the error of the first child that is rejected is reported behind the path of the
child.  A number that has too many digits to be a child is reported the same at every path. -/
theorem paths_compose (doc : Value) : (∀ p, loadAt p doc = report p (load doc)) ∧
    (∀ p t, loadAt p doc = .ok t ↔ loadAt "" doc = .ok t) ∧
      (∀ p q m, loadAt "" doc = .error (.format ⟨q, m⟩) →
        loadAt p doc = .error (.format ⟨joinPaths p q, m⟩)) ∧
      (∀ p, loadAt p doc = .error .tooManyDigits ↔ loadAt "" doc = .error .tooManyDigits) ∧
      ∀ place c, FirstRejected doc place c → ∃ q m, loadChildAt "" c = .error (.format ⟨q, m⟩) ∧
        ∀ p, loadAt p doc = .error (.format ⟨joinPaths (joinPaths p place) q, m⟩) := by
  refine ⟨fun p => loadAt_eq p doc, fun p t => ?_, fun p q m herr => ?_, fun p => ?_, fun place c h => ?_⟩
  · rw [loadAt_eq, loadAt_eq, report_eq_ok, report_eq_ok]
  · rw [loadAt_eq] at herr ⊢
    exact report_joinPaths (leads_load doc) herr p
  · rw [loadAt_eq, loadAt_eq, report_eq_tooManyDigits, report_eq_tooManyDigits]
  · exact reported_of_firstRejected h

end Rejected

/-- A node whose component is a number. -/
def brokenNode : Value := .dict [("component", .int 5), ("props", .null)]

/-- A box with that node in it, after a null. -/
def brokenBox : Value := .dict [("component", .str "Box"), ("children", .list [.null, brokenNode, .bool true])]

/-- A list with the box in it, after a text and a null. -/
def brokenList : Value := .list [.str "a", .null, brokenBox]

theorem firstRejected_brokenList : FirstRejected brokenList "[2].children[1]" brokenNode := by
  have hlist : FirstRejected brokenList ("[" ++ toString 2 ++ "]") brokenBox :=
    @FirstRejected.item [.str "a", .null] [] brokenBox ⟨_, rfl⟩ rfl ⟨_, rfl⟩
  have hbox : FirstRejected brokenBox ("children" ++ "[" ++ toString 1 ++ "]") brokenNode :=
    @FirstRejected.child _ [.null] [.bool true] brokenNode rfl ⟨_, rfl⟩ rfl ⟨_, rfl⟩
  exact hlist.deeper hbox

theorem paths_compose_brokenList : FirstRejected brokenList "[2].children[1]" brokenNode ∧
    loadChildAt "" brokenNode = .error (.format ⟨"component", "expected a string, got int"⟩) ∧
      loadAt "" brokenList = .error (.format ⟨"[2].children[1].component", "expected a string, got int"⟩) ∧
      loadAt "templates[0]" brokenList =
        .error (.format ⟨"templates[0][2].children[1].component", "expected a string, got int"⟩) ∧
      ∃ t, loadAt "templates[0]" (.list [.str "a", .null]) = .ok t := by
  obtain ⟨-, -, herror, -, hfirst⟩ := paths_compose brokenList
  obtain ⟨q, m, hown, hall⟩ := hfirst _ _ firstRejected_brokenList
  have hown' : loadChildAt "" brokenNode = .error (.format ⟨"component", "expected a string, got int"⟩) := rfl
  obtain ⟨rfl, rfl⟩ :=
    PlacedError.mk.inj (PlacedFailure.format.inj (Except.error.inj (hown.symm.trans hown')))
  obtain ⟨-, hok, -, -, -⟩ := paths_compose (.list [.str "a", .null])
  exact ⟨firstRejected_brokenList, hown', hall "", herror "templates[0]" _ _ (hall ""), _,
    (hok "templates[0]" _).mpr rfl⟩

end Document

end ViewGraph
