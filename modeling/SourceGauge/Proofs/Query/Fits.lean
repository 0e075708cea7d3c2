/-
# SourceGauge.Proofs.Query.Fits -- which fits and matches a query has

What is in the lists that matching builds: a slot without an anchor takes each
child that fills its field (`Slot.mem_candidates_iff`), fits are made one for each
key (`nodup_key_distinct`, `mem_key_distinct`), and the matches of a query without
conditions are the fits of its patterns at the nodes of the tree, each found once
(`mem_found_ofPatterns`, `nodup_found_ofPatterns`).
-/
import Mathlib.Data.List.Induction
import Mathlib.Data.List.Nodup
import SourceGauge.Proofs.Query.Written
import SourceGauge.Proofs.Syntax.Layout

namespace SourceGauge

set_option autoImplicit false

/-- The kind of a node, if it is named. -/
def Node.namedKind? (node : Node) : Option String :=
  if node.isNamed then some node.kind else none

theorem Node.kind_of_namedKind? {node : Node} {kind : String}
    (named : node.namedKind? = some kind) : node.kind = kind := by
  unfold namedKind? at named
  split at named
  · exact Option.some.inj named
  · cases named

namespace Query

/-! ## Children -/

theorem mem_positioned_iff {node child : Node} {i : Nat} :
    (i, child) ∈ positioned node ↔ node.children[i]? = some child := by
  simp [positioned, List.mem_zipIdx_iff_getElem?]

theorem map_positioned (node : Node) : (positioned node).map (·.2) = node.children := by
  simp [positioned, Function.comp_def]

/-- A slot without an anchor takes every child that fills its field. -/
theorem Slot.mem_candidates_iff {slot : Slot} (loose : slot.anchored = false)
    {children rest : List (Nat × Node)} {child : Nat × Node} :
    (child, rest) ∈ slot.candidates children ↔
      slot.fits child.2 = true ∧ ∃ before, children = before ++ child :: rest := by
  induction children with
  | nil => simp [candidates]
  | cons first others ih =>
      have later : (∃ before, first :: others = before ++ child :: rest) ↔
          child = first ∧ rest = others ∨ ∃ before, others = before ++ child :: rest := by
        constructor
        · rintro ⟨before, split⟩
          cases before with
          | nil =>
              cases split
              exact Or.inl ⟨rfl, rfl⟩
          | cons head before =>
              cases split
              exact Or.inr ⟨before, rfl⟩
        · rintro (⟨rfl, rfl⟩ | ⟨before, rfl⟩)
          · exact ⟨[], rfl⟩
          · exact ⟨first :: before, rfl⟩
      rw [later, candidates, if_neg (by simp [loose])]
      by_cases fits : slot.fits first.2 = true
      · rw [if_pos fits, List.mem_cons, ih, Prod.mk.injEq]
        constructor
        · rintro (⟨rfl, rfl⟩ | ⟨fills, found⟩)
          · exact ⟨fits, Or.inl ⟨rfl, rfl⟩⟩
          · exact ⟨fills, Or.inr found⟩
        · rintro ⟨fills, same | found⟩
          · exact Or.inl same
          · exact Or.inr ⟨fills, found⟩
      · rw [if_neg fits, ih]
        constructor
        · rintro ⟨fills, found⟩
          exact ⟨fills, Or.inr found⟩
        · rintro ⟨fills, ⟨rfl, rfl⟩ | found⟩
          · exact absurd fills fits
          · exact ⟨fills, found⟩

/-- A slot takes children, and leaves children. -/
theorem Slot.subset_of_mem_candidates {slot : Slot} {children rest : List (Nat × Node)}
    {child : Nat × Node} (mem : (child, rest) ∈ slot.candidates children) :
    child ∈ children ∧ rest ⊆ children := by
  induction children with
  | nil => exact absurd mem List.not_mem_nil
  | cons first others ih =>
      have later : (child, rest) ∈ slot.candidates others →
          child ∈ first :: others ∧ rest ⊆ first :: others := fun mem =>
        ⟨List.mem_cons_of_mem _ (ih mem).1, List.subset_cons_of_subset _ (ih mem).2⟩
      have now : (child, rest) = (first, others) →
          child ∈ first :: others ∧ rest ⊆ first :: others := by
        rintro ⟨⟩
        exact ⟨List.mem_cons_self, List.subset_cons_self ..⟩
      rw [candidates] at mem
      split at mem
      · split at mem
        · split at mem
          · exact now (List.mem_singleton.mp mem)
          · exact absurd mem List.not_mem_nil
        · exact later mem
      · split at mem
        · rcases List.mem_cons.mp mem with same | mem
          · exact now same
          · exact later mem
        · exact later mem

namespace Pattern

theorem mem_findChildren_cons_iff {pattern : Pattern} {rest : List Pattern} {here : Address}
    {children : List (Nat × Node)} {fit : Fit} :
    fit ∈ findChildren (pattern :: rest) here children ↔
      ∃ child others, (child, others) ∈ pattern.slot.candidates children ∧
        ∃ first ∈ pattern.findAt (here ++ [child.1]) child.2,
          ∃ later ∈ findChildren rest here others, first.followedBy later = fit := by
  simp [findChildren]

theorem mem_findAt_node_iff {slot : Slot} {test : Test} {names : List String}
    {children : List Pattern} {here : Address} {target : Node} {fit : Fit} :
    fit ∈ (node slot test [] names children).findAt here target ↔
      test.accepts target = true ∧
        ∃ inner ∈ findChildren children here (positioned target),
          inner.under names here target = fit := by
  by_cases accepted : test.accepts target = true <;> simp [findAt, accepted]

theorem accepts_named_iff {kind : String} {target : Node} :
    (Test.named kind).accepts target = true ↔ target.namedKind? = some kind := by
  simp [Test.accepts, Node.namedKind?]

theorem accepts_named_eq (kind : String) (node : Node) :
    (Test.named kind).accepts node = decide (node.namedKind? = some kind) := by
  rw [Bool.eq_iff_iff, accepts_named_iff, decide_eq_true_iff]

/-- A pattern of a kind with one child fits where a child fits the inner pattern. -/
theorem mem_findAt_ofKind_iff {kind : String} {inner : Pattern}
    (loose : inner.slot.anchored = false) {here : Address} {target : Node} {fit : Fit} :
    fit ∈ (ofKind kind [inner]).findAt here target ↔
      target.namedKind? = some kind ∧ ∃ i child, target.children[i]? = some child ∧
        inner.slot.fits child = true ∧
          ∃ first ∈ inner.findAt (here ++ [i]) child, first.followedBy ⟨[], here⟩ = fit := by
  have under : ∀ fit : Fit, fit.under [] here target = fit := fun _ => rfl
  simp only [ofKind, mem_findAt_node_iff, accepts_named_iff, under, exists_eq_right,
    mem_findChildren_cons_iff]
  simp only [findChildren, List.mem_singleton, exists_eq_left]
  refine and_congr_right fun _ => ⟨?_, ?_⟩
  · rintro ⟨⟨i, child⟩, others, candidate, fits⟩
    obtain ⟨fills, before, split⟩ := (Slot.mem_candidates_iff loose).mp candidate
    exact ⟨i, child, mem_positioned_iff.mp (split ▸ by simp), fills, fits⟩
  · rintro ⟨i, child, there, fills, fits⟩
    obtain ⟨before, others, split⟩ := List.append_of_mem (mem_positioned_iff.mpr there)
    exact ⟨(i, child), others, (Slot.mem_candidates_iff loose).mpr ⟨fills, before, split⟩, fits⟩

/-! ## Captured nodes -/

mutual

/-- What a fit captures below a node is the node at its address. -/
theorem at?_of_mem_findAt (pattern : Pattern) {here : Address} {target : Node} {fit : Fit}
    (mem : fit ∈ pattern.findAt here target) :
    ∀ capture ∈ fit.captures, ∃ b, capture.address = here ++ b ∧
      target.at? b = some capture.node := by
  cases pattern with
  | node slot test absent names children =>
      rw [findAt] at mem
      split at mem
      · obtain ⟨inner, memInner, rfl⟩ := List.mem_map.mp mem
        have below := at?_of_mem_findChildren children (fun i child there =>
          mem_positioned_iff.mp there) memInner
        intro capture captured
        rcases List.mem_append.mp captured with own | inside
        · obtain ⟨_, _, rfl⟩ := List.mem_map.mp own
          exact ⟨[], by simp, rfl⟩
        · exact below capture inside
      · exact absurd mem List.not_mem_nil
  | oneOf slot names choices =>
      rw [findAt] at mem
      obtain ⟨inner, memInner, rfl⟩ := List.mem_map.mp mem
      intro capture captured
      rcases List.mem_append.mp captured with own | inside
      · obtain ⟨_, _, rfl⟩ := List.mem_map.mp own
        exact ⟨[], by simp, rfl⟩
      · exact at?_of_mem_findChoices choices memInner capture inside

theorem at?_of_mem_findChildren (patterns : List Pattern) {here : Address} {target : Node}
    {children : List (Nat × Node)}
    (are : ∀ i child, (i, child) ∈ children → target.children[i]? = some child) {fit : Fit}
    (mem : fit ∈ findChildren patterns here children) :
    ∀ capture ∈ fit.captures, ∃ b, capture.address = here ++ b ∧
      target.at? b = some capture.node := by
  cases patterns with
  | nil =>
      rw [findChildren, List.mem_singleton] at mem
      rw [mem]
      exact fun _ captured => absurd captured List.not_mem_nil
  | cons pattern rest =>
      obtain ⟨⟨i, child⟩, others, candidate, first, memFirst, later, memLater, rfl⟩ :=
        mem_findChildren_cons_iff.mp mem
      obtain ⟨isChild, after⟩ := Slot.subset_of_mem_candidates candidate
      intro capture captured
      rcases List.mem_append.mp captured with own | inside
      · obtain ⟨b, address, below⟩ := at?_of_mem_findAt pattern memFirst capture own
        exact ⟨i :: b, by simp [address], by simp [Node.at?_cons, are i child isChild, below]⟩
      · exact at?_of_mem_findChildren rest (fun j other there => are j other (after there))
          memLater capture inside

theorem at?_of_mem_findChoices (choices : List Pattern) {here : Address} {target : Node}
    {fit : Fit} (mem : fit ∈ findChoices choices here target) :
    ∀ capture ∈ fit.captures, ∃ b, capture.address = here ++ b ∧
      target.at? b = some capture.node := by
  cases choices with
  | nil => exact absurd mem List.not_mem_nil
  | cons pattern rest =>
      rw [findChoices] at mem
      rcases List.mem_append.mp mem with first | later
      · exact at?_of_mem_findAt pattern first
      · exact at?_of_mem_findChoices rest later

end

end Pattern

/-! ## Fits of one key -/

@[simp] theorem Fit.key_completed (fit : Fit) (completed : Address) :
    { fit with completed }.key = fit.key := rfl

theorem map_key_mergeInto (fit : Fit) (fits : List Fit) :
    (fit.mergeInto fits).map Fit.key =
      if fit.key ∈ fits.map Fit.key then fits.map Fit.key else fits.map Fit.key ++ [fit.key] := by
  induction fits with
  | nil => simp [Fit.mergeInto]
  | cons other rest ih =>
      rw [Fit.mergeInto]
      by_cases same : other.key = fit.key
      · rw [if_pos same]
        simp [same]
      · simp only [if_neg same, List.map_cons, ih, List.mem_cons, Ne.symm same, false_or]
        split <;> rfl

theorem distinct_concat (fits : List Fit) (fit : Fit) :
    distinct (fits ++ [fit]) = fit.mergeInto (distinct fits) := by
  simp [distinct, List.foldl_append]

theorem nodup_key_distinct (fits : List Fit) : ((distinct fits).map Fit.key).Nodup := by
  induction fits using List.reverseRecOn with
  | nil => exact List.nodup_nil
  | append_singleton fits fit ih =>
      rw [distinct_concat, map_key_mergeInto]
      split
      · exact ih
      · next new =>
        rw [← List.concat_eq_append]
        exact ih.concat (by simpa using new)

theorem mem_key_distinct {fits : List Fit} {fit : Fit} (mem : fit ∈ fits) :
    fit.key ∈ (distinct fits).map Fit.key := by
  induction fits using List.reverseRecOn with
  | nil => exact absurd mem List.not_mem_nil
  | append_singleton fits last ih =>
      rw [distinct_concat, map_key_mergeInto]
      rcases List.mem_append.mp mem with old | new
      · split
        · exact ih old
        · exact List.mem_append_left _ (ih old)
      · rw [List.mem_singleton.mp new]
        split
        · next there => exact there
        · simp

/-- Of fits that all have one key the first is left, if none is complete before it. -/
theorem distinct_eq_singleton {fit : Fit} {rest : List Fit}
    (same : ∀ other ∈ rest, other.key = fit.key)
    (first : ∀ other ∈ rest, other.completed.lt fit.completed = false) :
    distinct (fit :: rest) = [fit] := by
  induction rest using List.reverseRecOn with
  | nil => rfl
  | append_singleton rest last ih =>
      simp only [List.mem_append, List.mem_singleton, or_imp, forall_and, forall_eq] at same first
      rw [← List.cons_append, distinct_concat, ih same.1 first.1, Fit.mergeInto,
        if_pos same.2.symm, Address.earlier, if_neg (by simp [first.2])]

/-- What holds of all fits, and of two fits of one key made one, holds of the
distinct ones. -/
theorem distinct_forall {holds : Fit → Prop} {fits : List Fit} (all : ∀ fit ∈ fits, holds fit)
    (merges : ∀ first second : Fit, holds first → holds second → first.key = second.key →
      holds { first with completed := Address.earlier first.completed second.completed }) :
    ∀ fit ∈ distinct fits, holds fit := by
  have mergeInto : ∀ (new : Fit) (old : List Fit), holds new → (∀ fit ∈ old, holds fit) →
      ∀ fit ∈ new.mergeInto old, holds fit := by
    intro new old isNew areOld
    induction old with
    | nil => simpa [Fit.mergeInto] using isNew
    | cons first rest ih =>
        obtain ⟨isFirst, areRest⟩ := List.forall_mem_cons.mp areOld
        rw [Fit.mergeInto]
        split
        · next same =>
          exact List.forall_mem_cons.mpr ⟨merges first new isFirst isNew same, areRest⟩
        · exact List.forall_mem_cons.mpr ⟨isFirst, ih areRest⟩
  exact List.foldlRecOn fits _ (motive := fun merged => ∀ fit ∈ merged, holds fit)
    (fun _ mem => absurd mem List.not_mem_nil)
    fun merged areMerged fit mem => mergeInto fit merged (all fit mem) areMerged

/-- Two fits at a node that capture the same addresses capture the same nodes. -/
theorem captures_eq_of_key {pattern : Pattern} {here : Address} {target : Node}
    {first second : Fit} (memFirst : first ∈ pattern.findAt here target)
    (memSecond : second ∈ pattern.findAt here target) (same : first.key = second.key) :
    first.captures = second.captures := by
  have firstAt := Pattern.at?_of_mem_findAt pattern memFirst
  have secondAt := Pattern.at?_of_mem_findAt pattern memSecond
  rw [Fit.key, Fit.key] at same
  generalize first.captures = captures at firstAt same ⊢
  generalize second.captures = others at secondAt same ⊢
  induction captures generalizing others with
  | nil => simpa using same.symm
  | cons capture rest ih =>
      cases others with
      | nil => cases same
      | cons other others =>
          obtain ⟨sameKey, sameRest⟩ := List.cons.inj same
          obtain ⟨sameName, sameAddress⟩ := Prod.mk.inj sameKey
          obtain ⟨b, address, found⟩ := firstAt capture List.mem_cons_self
          obtain ⟨c, addressThere, foundThere⟩ := secondAt other List.mem_cons_self
          have below : b = c := by
            rw [address, addressThere] at sameAddress
            exact List.append_cancel_left sameAddress
          subst below
          have sameNode : capture.node = other.node := Option.some.inj (found.symm.trans foundThere)
          have head : capture = other := by
            obtain ⟨_, _, _⟩ := capture
            obtain ⟨_, _, _⟩ := other
            exact congr (congrArg₂ Capture.mk sameName sameAddress) sameNode
          rw [head, ih (fun item mem => firstAt item (List.mem_cons_of_mem _ mem)) others
            (fun item mem => secondAt item (List.mem_cons_of_mem _ mem)) sameRest]

/-- The distinct fits at a node capture what the fits capture. -/
theorem exists_mem_distinct_iff {pattern : Pattern} {here : Address} {target : Node}
    {captures : List Capture} :
    (∃ fit ∈ distinct (pattern.findAt here target), fit.captures = captures) ↔
      ∃ fit ∈ pattern.findAt here target, fit.captures = captures := by
  have among : ∀ fit ∈ distinct (pattern.findAt here target),
      ∃ other ∈ pattern.findAt here target, other.captures = fit.captures :=
    distinct_forall (fun fit mem => ⟨fit, mem, rfl⟩) fun _ _ first _ _ => first
  constructor
  · rintro ⟨fit, mem, rfl⟩
    exact among fit mem
  · rintro ⟨fit, mem, rfl⟩
    obtain ⟨merged, memMerged, same⟩ := List.mem_map.mp (mem_key_distinct mem)
    obtain ⟨other, memOther, captures⟩ := among merged memMerged
    have sameKey : other.key = fit.key := by rw [← same, Fit.key, captures, Fit.key]
    exact ⟨merged, memMerged, captures ▸ captures_eq_of_key memOther mem sameKey⟩

/-! ## Matches -/

/-- A match is a fit of the pattern, in some way. -/
theorem exists_fit_of_mem_matchesAt {clause : Clause} {source : String} {here : Address}
    {node : Node} {fit : Fit} (mem : fit ∈ clause.matchesAt source here node) :
    ∃ first, first ∈ clause.pattern.findAt here node := by
  obtain ⟨first, among, _⟩ := exists_mem_distinct_iff.mp ⟨fit, (List.mem_filter.mp mem).1, rfl⟩
  exact ⟨first, among⟩

theorem matchesAt_ofPatterns (patterns : List Pattern) (source : String)
    (entry : Address × Node) :
    (ofPatterns patterns).matchesAt source entry =
      patterns.zipIdx.flatMap fun item =>
        (distinct (item.1.findAt entry.1 entry.2)).map fun fit =>
          ⟨fit, entry.1, entry.2, item.2⟩ := by
  simp only [matchesAt, ofPatterns, List.zipIdx_map, List.flatMap_map, Prod.map_fst, Prod.map_snd,
    id_eq, Clause.matchesAt, List.all_nil, List.filter_true]

theorem mem_found_iff {query : Query} {source : String} {root : Node} {found : Match} :
    found ∈ query.found source root ↔
      root.at? found.root = some found.node ∧
        ∃ clause, query.clauses[found.clause]? = some clause ∧
          found.toFit ∈ clause.matchesAt source found.root found.node := by
  simp only [Query.found, List.mem_flatMap, matchesAt, List.mem_map, Prod.exists,
    Node.mem_entries_iff, List.mem_zipIdx_iff_getElem?]
  constructor
  · rintro ⟨a, node, there, clause, number, numbered, fit, mem, rfl⟩
    exact ⟨there, clause, numbered, mem⟩
  · rintro ⟨there, clause, numbered, mem⟩
    exact ⟨found.root, found.node, there, clause, found.clause, numbered, found.toFit, mem, rfl⟩

/-- The matches of a query without conditions are the fits of its patterns. -/
theorem mem_found_ofPatterns {patterns : List Pattern} {source : String} {root : Node}
    {found : Match} :
    found ∈ (ofPatterns patterns).found source root ↔
      root.at? found.root = some found.node ∧
        ∃ pattern, patterns[found.clause]? = some pattern ∧
          found.toFit ∈ distinct (pattern.findAt found.root found.node) := by
  rw [mem_found_iff]
  simp [ofPatterns, Clause.matchesAt]

/-- No match is found twice. -/
theorem nodup_found_ofPatterns (patterns : List Pattern) (source : String) (root : Node) :
    ((ofPatterns patterns).found source root).Nodup := by
  have numbered : patterns.zipIdx.Pairwise fun m n => m.2 ≠ n.2 := by
    have numbers : (patterns.zipIdx.map (·.2)).Nodup := by simp [List.nodup_range']
    exact List.pairwise_map.mp numbers
  refine List.nodup_flatMap.mpr ⟨?_, (Node.pairwise_entries root).imp ?_⟩
  · intro entry _
    rw [matchesAt_ofPatterns]
    refine List.nodup_flatMap.mpr ⟨fun item _ => ?_, numbered.imp ?_⟩
    · exact (nodup_key_distinct _).of_map.map fun first second same => congrArg Match.toFit same
    · intro m n different found memM memN
      obtain ⟨_, _, rfl⟩ := List.mem_map.mp memM
      obtain ⟨_, _, same⟩ := List.mem_map.mp memN
      exact different (congrArg Match.clause same).symm
  · intro m n before found memM memN
    simp only [matchesAt_ofPatterns, List.mem_flatMap, List.mem_map] at memM memN
    obtain ⟨_, _, _, _, rfl⟩ := memM
    obtain ⟨_, _, _, _, same⟩ := memN
    have roots : n.1 = m.1 := congrArg Match.root same
    simp [roots, Address.lt_irrefl] at before

theorem mem_allMatches_iff {query : Query} {source : String} {root : Node} {found : Match} :
    found ∈ query.allMatches source root ↔ found ∈ query.found source root :=
  List.mem_mergeSort

end Query

end SourceGauge
