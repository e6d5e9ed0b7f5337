import ViewGraph.Proofs.Agreement

/-!
# Transparency of fragments

A fragment leaves no trace of its own.  A graph has the same outcome as the graph with all children
spliced, and the attributes of a fragment do not matter, unless a text that names an element shows them.

* `Nested.splice`: splicing makes no graph deeper.
* `spliced_spliced`, `listing_spliced`: what is spliced already is left alone, and the walk is the same.
* `agree_splice`, `agree_withFragmentProps`: the graphs agree on all that matters, if they show the same
  texts.
* `PlainlyNamed root`: the texts name no element.  Then they are the same.
* `fragments_transparent`: the outcomes are the same.
-/

namespace ViewGraph

open ViewGraph.Graph Relation

namespace Graph

variable {g : Graph}

/-! ### Definitions -/

variable (g) in
/-- The graph with other attributes on its fragments. -/
def withFragmentProps (props : Handle → List (String × Value)) : Graph :=
  ⟨g.nodes.mapIdx fun i e => if e.isFragment then { e with props := props ⟨i⟩ } else e⟩

/-! ### The spliced graph -/

theorem find?_splice (h : Handle) :
    g.splice.find? h = (g.find? h).map fun e => { e with children := g.spliced e.children } := by
  simp [splice, Graph.find?]

theorem depth_splice : g.splice.depth = g.depth := by
  simp [splice, depth]

/-- An element has the same role in the spliced graph. -/
theorem roleOf_splice (v : Value) :
    g.splice.roleOf v = match g.roleOf v with
      | .fragment cs => .fragment (g.spliced cs)
      | .concrete h e => .concrete h { e with children := g.spliced e.children }
      | r => r := by
  unfold roleOf
  cases v.leaf? with
  | some l => rfl
  | none =>
    cases v with
    | element h =>
      simp only [nodeRole, find?_splice]
      cases he : g.find? h with
      | none => rfl
      | some e =>
        by_cases hf : e.isFragment
        · have hf' : ({ e with children := g.spliced e.children } : Element).isFragment = true := hf
          simp only [Option.map_some, hf, hf', if_true]
        · have hf' : ¬ ({ e with children := g.spliced e.children } : Element).isFragment = true := hf
          simp only [Option.map_some, hf, hf', if_false, Bool.false_eq_true]
    | _ => rfl

/-- An element among spliced children stands below the children. -/
theorem reachesFrom_of_mem_splicedUpTo {n : ℕ} {vs : List Value} {k : Handle}
    (hk : .element k ∈ g.splicedUpTo n vs) : g.ReachesFrom vs k := by
  induction n generalizing vs with
  | zero => simp [splicedUpTo] at hk
  | succ n ih =>
    obtain ⟨w, hw, hkw⟩ := List.mem_flatMap.mp hk
    cases hr : g.roleOf w with
    | leaf l =>
      obtain rfl : Value.element k = w := by simpa [hr] using hkw
      exact absurd (roleOf_eq_leaf.mp hr) (by simp [Value.leaf?])
    | unsupported => simp [hr] at hkw
    | concrete h e =>
      obtain rfl : Value.element k = w := by simpa [hr] using hkw
      obtain ⟨heq, he, -⟩ := roleOf_eq_concrete.mp hr
      obtain rfl := Value.element.inj heq
      exact ⟨k, hw, by simp [he], .refl⟩
    | fragment cs =>
      simp only [hr] at hkw
      obtain ⟨h, e, rfl, he, -, rfl⟩ := roleOf_eq_fragment hr
      have hreach := ih (List.mem_of_mem_filter hkw)
      exact ReachesFrom.mono (by simpa using hw) ((reachesFrom_element he).mpr (.inr hreach))

/-- Splicing makes no graph deeper. -/
theorem Nested.splice {n m : ℕ} {vs : List Value} (hn : g.Nested n vs) :
    g.splice.Nested n (g.splicedUpTo m vs) := by
  induction n generalizing vs m with
  | zero => exact hn.elim
  | succ n ih =>
    intro k e' hk he'
    rw [find?_splice, Option.map_eq_some_iff] at he'
    obtain ⟨e, he, rfl⟩ := he'
    obtain ⟨n', hn', hcs⟩ := (hn.of_reaches (reachesFrom_of_mem_splicedUpTo hk)).children (by simp) he
    obtain rfl : n' = n := by omega
    exact ih hcs

theorem Nested.splice_self {n : ℕ} {vs : List Value} (hn : g.Nested n vs) : g.splice.Nested n vs := by
  cases n with
  | zero => exact hn.elim
  | succ n =>
    intro k e' hk he'
    rw [find?_splice, Option.map_eq_some_iff] at he'
    obtain ⟨e, he, rfl⟩ := he'
    exact Nested.splice (hn k e hk he)

theorem Grounded.splice {vs : List Value} (hg : g.Grounded vs) : g.splice.Grounded (g.spliced vs) := by
  unfold Grounded
  rw [depth_splice]
  exact Nested.splice hg

theorem Grounded.splice_self {vs : List Value} (hg : g.Grounded vs) : g.splice.Grounded vs := by
  unfold Grounded
  rw [depth_splice]
  exact Nested.splice_self hg

theorem Acyclic.splice {root : Value} (hac : g.Acyclic root) : g.splice.Acyclic root :=
  acyclic_of_nested hac.grounded.splice_self

/-! ### Walks over the spliced graph -/

/-- What is spliced already is left alone. -/
theorem spliced_eq_self {vs : List Value}
    (h : ∀ v ∈ vs, v.isLeaf = true ∨ ∃ k e, g.roleOf v = .concrete k e) : g.spliced vs = vs := by
  induction vs with
  | nil => rfl
  | cons v vs ih =>
    have hv : g.spliced [v] = [v] := by
      rcases h v (by simp) with hl | ⟨k, e, hr⟩
      · obtain ⟨l, hl⟩ := Option.isSome_iff_exists.mp hl
        exact spliced_leaf (roleOf_eq_leaf.mpr hl)
      · exact spliced_concrete hr
    rw [spliced_cons, hv, ih fun w hw => h w (List.mem_cons_of_mem _ hw)]
    rfl

theorem spliced_spliced (vs : List Value) : g.splice.spliced (g.spliced vs) = g.spliced vs := by
  refine spliced_eq_self fun v hv => ?_
  rcases role_of_mem_spliced hv with hl | ⟨k, e, hr⟩
  · exact .inl hl
  · exact .inr ⟨k, { e with children := g.spliced e.children }, by rw [roleOf_splice, hr]⟩

/-- Leaves are not met. -/
theorem listing_filter_isLeaf (vs : List Value) :
    g.listing (vs.filter fun v => !v.isLeaf) = g.listing vs := by
  induction vs with
  | nil => rfl
  | cons v vs ih =>
    rw [listing_cons v vs]
    by_cases hl : v.isLeaf
    · obtain ⟨l, hl'⟩ := Option.isSome_iff_exists.mp hl
      rw [List.filter_cons_of_neg (by simp [hl]), ih, listing_leaf (roleOf_eq_leaf.mpr hl')]
      rfl
    · rw [List.filter_cons_of_pos (by simp [hl]), listing_cons, ih]

/-- The walk over spliced children in the spliced graph is the walk over the children. -/
theorem listing_spliced {vs : List Value} (hg : g.Grounded vs) :
    g.splice.listing (g.spliced vs) = g.listing vs := by
  induction hg using Grounded.rec_children with
  | step vs hg ih =>
    induction vs with
    | nil => rfl
    | cons v vs ihv =>
      have htail := ihv hg.tail fun h e hh he => ih h e (List.mem_cons_of_mem _ hh) he
      have hv : g.Grounded [v] := hg.head
      rw [spliced_cons, listing_append, htail, listing_cons v vs]
      congr 1
      have hr' := g.roleOf_splice v
      cases hr : g.roleOf v with
      | leaf l =>
        rw [hr] at hr'
        rw [spliced_leaf hr, listing_leaf hr', listing_leaf hr]
      | unsupported => rw [spliced_unsupported hr, listing_unsupported hr, listing_nil]
      | concrete h e =>
        rw [hr] at hr'
        obtain ⟨rfl, he, -⟩ := roleOf_eq_concrete.mp hr
        rw [spliced_concrete hr, listing_concrete hv.splice_self hr', listing_concrete hv hr,
          ih h e (by simp) he]
      | fragment cs =>
        obtain ⟨h, e, rfl, he, -, rfl⟩ := roleOf_eq_fragment hr
        rw [spliced_fragment hv hr, listing_filter_isLeaf, ih h e (by simp) he, listing_fragment hv hr]

section Root

variable {root : Value} (hac : g.Acyclic root)

include hac

theorem spliced_root : g.splice.spliced [root] = g.spliced [root] := by
  have hr' := g.roleOf_splice root
  cases hr : g.roleOf root with
  | leaf l =>
    rw [hr] at hr'
    rw [spliced_leaf hr, spliced_leaf hr']
  | unsupported =>
    rw [hr] at hr'
    rw [spliced_unsupported hr, spliced_unsupported hr']
  | concrete h e =>
    rw [hr] at hr'
    rw [spliced_concrete hr, spliced_concrete hr']
  | fragment cs =>
    rw [hr] at hr'
    rw [spliced_fragment hac.grounded hr, spliced_fragment hac.grounded.splice_self hr', spliced_spliced]

theorem listing_root : g.splice.listing [root] = g.listing [root] := by
  have hr' := g.roleOf_splice root
  cases hr : g.roleOf root with
  | leaf l =>
    rw [hr] at hr'
    rw [listing_leaf hr, listing_leaf hr']
  | unsupported =>
    rw [hr] at hr'
    rw [listing_unsupported hr, listing_unsupported hr']
  | concrete h e =>
    rw [hr] at hr'
    rw [listing_concrete hac.grounded hr, listing_concrete hac.grounded.splice_self hr',
      listing_spliced (hac.grounded.of_concrete hr)]
  | fragment cs =>
    rw [hr] at hr'
    rw [listing_fragment hac.grounded hr, listing_fragment hac.grounded.splice_self hr',
      listing_spliced (hac.grounded.of_fragment hr)]

/-- The spliced graph agrees with the graph on all that matters, if it shows the same texts. -/
theorem agree_splice (ht : SameTexts g g.splice root) : Agree g g.splice root where
  acyclic := hac
  acyclic' := hac.splice
  top := by rw [structural, structural, spliced_root hac]
  visits := by rw [firstVisits, firstVisits, listing_root hac]
  find? := fun h e _ he =>
    ⟨{ e with children := g.spliced e.children }, by rw [find?_splice, he]; rfl, rfl, spliced_spliced _⟩
  texts := ht

end Root

/-! ### Other attributes on the fragments -/

section FragmentProps

variable (props : Handle → List (String × Value))

theorem find?_withFragmentProps (h : Handle) :
    (g.withFragmentProps props).find? h =
      (g.find? h).map fun e => if e.isFragment then { e with props := props h } else e := by
  simp [withFragmentProps, Graph.find?]

theorem sameShape_withFragmentProps : g.SameShape (g.withFragmentProps props) where
  size := by simp [withFragmentProps]
  shape := fun h => by
    rw [find?_withFragmentProps, Option.map_map]
    congr 1
    funext e
    rw [Function.comp_apply]
    split_ifs <;> rfl

/-- A graph agrees on all that matters with the graph that has other attributes on its fragments, if it
shows the same texts. -/
theorem agree_withFragmentProps {root : Value} (hac : g.Acyclic root)
    (ht : SameTexts g (g.withFragmentProps props) root) : Agree g (g.withFragmentProps props) root where
  acyclic := hac
  acyclic' := (sameShape_withFragmentProps props).acyclic hac
  top := (sameShape_withFragmentProps props).structural [root]
  visits := (sameShape_withFragmentProps props).firstVisits root
  find? := fun h e hh he => by
    obtain ⟨e', he', hf⟩ := hh.2
    obtain rfl : e' = e := by simpa [he] using he'.symm
    have hsame : (g.withFragmentProps props).find? h = some e' := by
      rw [find?_withFragmentProps, he]
      simp [hf]
    exact ⟨e', hsame, rfl, (sameShape_withFragmentProps props).spliced _⟩
  texts := ht

end FragmentProps

end Graph

/-! ### Texts that name no element -/

namespace Value

mutual

/-- Is no element in the value? -/
def isPlain : Value → Bool
  | list items => allPlain items
  | tuple items => allPlain items
  | dict members => allMembersPlain members
  | wrapped _ payload => isPlain payload
  | action args code => isPlain args && isPlain code
  | page target anchor => isPlain target && isPlain anchor
  | style _ value _ => isPlain value
  | component name => isPlain name
  | element _ => false
  | _ => true

def allPlain : List Value → Bool
  | [] => true
  | v :: rest => isPlain v && allPlain rest

def allMembersPlain : List (String × Value) → Bool
  | [] => true
  | (_, v) :: rest => isPlain v && allMembersPlain rest

end

variable (t t' : Handle → Shown (List Char))

mutual

theorem inner_of_isPlain : ∀ v : Value, v.isPlain = true → v.inner t' = v.inner t
  | null, _ => rfl
  | bool _, _ => rfl
  | int _, _ => rfl
  | float _, _ => rfl
  | str _, _ => rfl
  | list items, h => by
    simp only [inner, inners_of_allPlain items (by simpa [isPlain] using h)]
  | tuple items, h => by
    simp only [inner, inners_of_allPlain items (by simpa [isPlain] using h)]
  | dict members, h => by
    simp only [inner, innerMembers_of_allPlain members (by simpa [isPlain] using h)]
  | wrapped _ payload, h => by
    simp only [inner, inner_of_isPlain payload (by simpa [isPlain] using h)]
  | action args code, h => by
    obtain ⟨hargs, hcode⟩ : args.isPlain = true ∧ code.isPlain = true := by simpa [isPlain] using h
    simp only [inner, inner_of_isPlain args hargs, inner_of_isPlain code hcode]
  | page target anchor, h => by
    obtain ⟨htarget, hanchor⟩ : target.isPlain = true ∧ anchor.isPlain = true := by
      simpa [isPlain] using h
    simp only [inner, inner_of_isPlain target htarget, inner_of_isPlain anchor hanchor]
  | style _ value _, h => by
    simp only [inner, inner_of_isPlain value (by simpa [isPlain] using h)]
  | fragment, _ => rfl
  | component name, h => by
    simp only [inner, inner_of_isPlain name (by simpa [isPlain] using h)]
  | element _, h => by simp [isPlain] at h

theorem inners_of_allPlain : ∀ vs : List Value, allPlain vs = true → inners t' vs = inners t vs
  | [], _ => rfl
  | v :: rest, h => by
    obtain ⟨hv, hrest⟩ : v.isPlain = true ∧ allPlain rest = true := by simpa [allPlain] using h
    simp only [inners, inner_of_isPlain v hv, inners_of_allPlain rest hrest]

theorem innerMembers_of_allPlain : ∀ ms : List (String × Value), allMembersPlain ms = true →
    innerMembers t' ms = innerMembers t ms
  | [], _ => rfl
  | (name, v) :: rest, h => by
    obtain ⟨hv, hrest⟩ : v.isPlain = true ∧ allMembersPlain rest = true := by
      simpa [allMembersPlain] using h
    simp only [innerMembers, inner_of_isPlain v hv, innerMembers_of_allPlain rest hrest]

end

theorem display_of_isPlain {v : Value} (h : v.isPlain = true) : v.display t' = v.display t := by
  cases v with
  | str s => rfl
  | style property value state =>
    have hvalue : value.isPlain = true := by simpa [isPlain] using h
    simp only [display, inner_of_isPlain t t' value hvalue]
  | _ => simpa only [display] using inner_of_isPlain t t' _ h

end Value

/-- The texts that the elements below a root show name no element. -/
def PlainlyNamed (g : Graph) (root : Value) : Prop :=
  ∀ h e, g.HasInstance root h → g.find? h = some e → e.component.isPlain = true ∧
    ∀ a ∈ e.props, a.1 = Element.idAttribute ∨ a.1 = Element.labelAttribute → a.2.isPlain = true

section Texts

variable {g g' : Graph} {root : Value}

theorem text_eq_of_isPlain (g g' : Graph) {v : Value} (h : v.isPlain = true) :
    g'.text v = g.text v :=
  congrArg (String.ofList <$> ·) (Value.display_of_isPlain _ _ h)

theorem explicitId?_eq_of_isPlain {e e' : Element}
    (hfind : Table.find? Element.idAttribute e'.props = Table.find? Element.idAttribute e.props)
    (h : ∀ a ∈ e.props, a.1 = Element.idAttribute → a.2.isPlain = true) :
    g'.explicitId? e' = g.explicitId? e := by
  unfold explicitId?
  rw [hfind]
  split
  · rfl
  · rfl
  · rename_i v _ hv
    rw [text_eq_of_isPlain g g' (h _ (Table.mem_of_find? hv) rfl)]

theorem label?_eq_of_isPlain {e e' : Element}
    (hfind : Table.find? Element.labelAttribute e'.props = Table.find? Element.labelAttribute e.props)
    (h : ∀ a ∈ e.props, a.1 = Element.labelAttribute → a.2.isPlain = true) :
    g'.label? e' = g.label? e := by
  unfold label?
  rw [hfind]
  split
  · rfl
  · rename_i v hv
    rw [text_eq_of_isPlain g g' (h _ (Table.mem_of_find? hv) rfl)]

/-- Texts that name no element are the same in every graph with the same elements. -/
theorem PlainlyNamed.sameTexts (hp : PlainlyNamed g root)
    (hsame : ∀ h e e', g.HasInstance root h → g.find? h = some e → g'.find? h = some e' →
      Table.find? Element.idAttribute e'.props = Table.find? Element.idAttribute e.props ∧
        Table.find? Element.labelAttribute e'.props = Table.find? Element.labelAttribute e.props ∧
          e'.component = e.component) : SameTexts g g' root := by
  intro h e e' hh he he'
  obtain ⟨hcomponent, hprops⟩ := hp h e hh he
  obtain ⟨hi', hl', hc'⟩ := hsame h e e' hh he he'
  refine ⟨?_, ?_, ?_⟩
  · exact explicitId?_eq_of_isPlain hi' fun a ha hid => hprops a ha (.inl hid)
  · exact label?_eq_of_isPlain hl' fun a ha hlabel => hprops a ha (.inr hlabel)
  · rw [hc', text_eq_of_isPlain g g' hcomponent]

theorem PlainlyNamed.sameTexts_splice (hp : PlainlyNamed g root) : SameTexts g g.splice root := by
  refine hp.sameTexts fun h e e' _ he he' => ?_
  rw [find?_splice, he, Option.map_some, Option.some.injEq] at he'
  subst he'
  exact ⟨rfl, rfl, rfl⟩

theorem PlainlyNamed.sameTexts_withFragmentProps (hp : PlainlyNamed g root)
    (props : Handle → List (String × Value)) : SameTexts g (g.withFragmentProps props) root := by
  refine hp.sameTexts fun h e e' hh he he' => ?_
  obtain ⟨e'', he'', hf⟩ := hh.2
  obtain rfl : e'' = e := by simpa [he] using he''.symm
  rw [find?_withFragmentProps, he, Option.map_some, Option.some.injEq] at he'
  subst he'
  simp [hf]

/-- **Transparency.** A graph has the same outcome as the spliced graph, and the attributes of its
fragments do not matter, as long as the texts that its elements show are the same.  Texts that name no
element always are. -/
theorem fragments_transparent (hac : g.Acyclic root) :
    (SameTexts g g.splice root → (normalize g.splice root).outcome = (normalize g root).outcome) ∧
      (∀ props, SameTexts g (g.withFragmentProps props) root →
        (normalize (g.withFragmentProps props) root).outcome = (normalize g root).outcome) ∧
      (PlainlyNamed g root → SameTexts g g.splice root ∧
        ∀ props, SameTexts g (g.withFragmentProps props) root) := by
  refine ⟨fun ht => ?_, fun props ht => ?_, fun hp => ⟨?_, fun props => ?_⟩⟩
  · exact (agree_splice hac ht).outcome_normalize
  · exact (agree_withFragmentProps props hac ht).outcome_normalize
  · exact hp.sameTexts_splice
  · exact hp.sameTexts_withFragmentProps props

theorem plainlyNamed_sharedGraph : PlainlyNamed sharedGraph sharedRoot := by
  have hall : ∀ e ∈ sharedGraph.nodes.toList, e.component.isPlain = true ∧ ∀ a ∈ e.props,
      a.1 = Element.idAttribute ∨ a.1 = Element.labelAttribute → a.2.isPlain = true := by
    decide
  intro h e _ he
  exact hall e (Array.mem_toList_iff.mpr (Array.mem_of_getElem? he))

/-- The fragment in the shared graph does not matter, nor does the title on it. -/
theorem fragments_transparent_sharedGraph : ∃ f, f.equals sharedRecords = true ∧
    (normalize sharedGraph.splice sharedRoot).outcome = .ok f ∧
      (normalize (sharedGraph.withFragmentProps fun _ => []) sharedRoot).outcome = .ok f := by
  obtain ⟨f, hok, hsame⟩ := normalize_sharedGraph
  obtain ⟨hsplice, hprops, htexts⟩ := fragments_transparent acyclic_sharedGraph
  obtain ⟨ht, ht'⟩ := htexts plainlyNamed_sharedGraph
  exact ⟨f, hsame, (hsplice ht).trans hok, (hprops _ (ht' _)).trans hok⟩

end Texts

/-! ### A text that names an element -/

/-- A box whose id is an element with a fragment in it. The id shows the fragment. -/
def namedByElement : Graph := ⟨#[
  ⟨.fragment, [], []⟩,
  ⟨.str "X", [], [.element ⟨0⟩]⟩,
  ⟨.str "Box", [("ws:id", .element ⟨1⟩)], [.element ⟨1⟩]⟩]⟩

theorem not_transparent_of_element_id : ¬ ∀ (g : Graph) (root : Value), g.Acyclic root →
    (normalize g.splice root).outcome = (normalize g root).outcome := by
  intro h
  have hsame := h namedByElement (.element ⟨2⟩) (acyclic_of_index_lt (by decide) _)
  have hids := congrArg (fun r => r.toOption.map fun f => f.instances.map (·.id)) hsame
  revert hids
  decide +kernel

end ViewGraph
