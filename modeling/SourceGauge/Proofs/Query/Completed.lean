/-
# SourceGauge.Proofs.Query.Completed -- where a match is complete

A match is complete at the last node that its pattern needs.  So nothing that it captures comes
after that place (`completeFrom_of_mem_findAt`), also where fits of one key were made one match,
since it keeps the place of one of them.  For a query that is compiled from any text this is all
that is known of its matches: which node is captured depends on the text, but it stands no later
than the match (`completed_not_lt_of_mem_found`).
-/
import SourceGauge.Proofs.Query.Fits

namespace SourceGauge

set_option autoImplicit false

/-! ## Addresses -/

namespace Address

variable {a b c : Address}

/-- What is not after an address that is not after another one is not after this one. -/
theorem not_lt_trans (ab : lt b a = false) (bc : lt c b = false) : lt c a = false := by
  rw [Bool.eq_false_iff] at ab bc ⊢
  intro ca
  by_cases same : b = c
  · exact ab (same ▸ ca)
  · rcases lt_or_lt same with before | after
    · exact ab (lt_trans before ca)
    · exact bc after

theorem later_not_lt_left (a b : Address) : lt (later a b) a = false := by
  unfold later
  split
  · next before => exact not_lt_of_lt before
  · exact lt_irrefl a

theorem later_not_lt_right (a b : Address) : lt (later a b) b = false := by
  unfold later
  split
  · exact lt_irrefl b
  · next notBefore => exact Bool.eq_false_iff.mpr notBefore

theorem earlier_not_lt (ac : lt a c = false) (bc : lt b c = false) :
    lt (earlier a b) c = false := by
  unfold earlier
  split
  · exact bc
  · exact ac

/-- A node is not after those below it. -/
theorem not_lt_of_prefix (below : a <+: b) : lt b a = false := by
  by_cases same : a = b
  · exact same ▸ lt_irrefl a
  · have before := lt_of_prefix below same
    exact not_lt_of_lt before

end Address

namespace Query

/-! ## Fits -/

/-- A fit is complete at `here` or later, and at no place before one that it captures. -/
structure Fit.CompleteFrom (fit : Fit) (here : Address) : Prop where
  since : fit.completed.lt here = false
  captured : ∀ capture ∈ fit.captures, fit.completed.lt capture.address = false

theorem Fit.CompleteFrom.under {fit : Fit} {here : Address} (complete : fit.CompleteFrom here)
    (names : List String) (target : Node) : (fit.under names here target).CompleteFrom here where
  since := complete.since
  captured := by
    intro capture mem
    rcases List.mem_append.mp mem with own | inside
    · obtain ⟨_, _, rfl⟩ := List.mem_map.mp own
      exact complete.since
    · exact complete.captured capture inside

theorem Fit.CompleteFrom.followedBy {first rest : Fit} {here there : Address}
    (complete : first.CompleteFrom there) (others : rest.CompleteFrom here) :
    (first.followedBy rest).CompleteFrom here where
  since := Address.not_lt_trans others.since (Address.later_not_lt_right _ _)
  captured := by
    intro capture mem
    rcases List.mem_append.mp mem with own | later
    · exact Address.not_lt_trans (complete.captured capture own) (Address.later_not_lt_left _ _)
    · exact Address.not_lt_trans (others.captured capture later) (Address.later_not_lt_right _ _)

namespace Pattern

mutual

/-- Nothing is captured after the place where a fit is complete. -/
theorem completeFrom_of_mem_findAt (pattern : Pattern) {here : Address} {target : Node} {fit : Fit}
    (mem : fit ∈ pattern.findAt here target) : fit.CompleteFrom here := by
  cases pattern with
  | node slot test absent names children =>
      rw [findAt] at mem
      split at mem
      · obtain ⟨inner, memInner, rfl⟩ := List.mem_map.mp mem
        exact (completeFrom_of_mem_findChildren children memInner).under names target
      · exact absurd mem List.not_mem_nil
  | oneOf slot names choices =>
      rw [findAt] at mem
      obtain ⟨inner, memInner, rfl⟩ := List.mem_map.mp mem
      exact (completeFrom_of_mem_findChoices choices memInner).under names target

theorem completeFrom_of_mem_findChildren (patterns : List Pattern) {here : Address}
    {children : List (Nat × Node)} {fit : Fit} (mem : fit ∈ findChildren patterns here children) :
    fit.CompleteFrom here := by
  cases patterns with
  | nil =>
      rw [findChildren, List.mem_singleton] at mem
      rw [mem]
      exact ⟨Address.lt_irrefl here, fun _ captured => absurd captured List.not_mem_nil⟩
  | cons pattern rest =>
      obtain ⟨_, _, _, first, memFirst, later, memLater, rfl⟩ := mem_findChildren_cons_iff.mp mem
      exact (completeFrom_of_mem_findAt pattern memFirst).followedBy
        (completeFrom_of_mem_findChildren rest memLater)

theorem completeFrom_of_mem_findChoices (choices : List Pattern) {here : Address} {target : Node}
    {fit : Fit} (mem : fit ∈ findChoices choices here target) : fit.CompleteFrom here := by
  cases choices with
  | nil => exact absurd mem List.not_mem_nil
  | cons pattern rest =>
      rw [findChoices] at mem
      rcases List.mem_append.mp mem with first | later
      · exact completeFrom_of_mem_findAt pattern first
      · exact completeFrom_of_mem_findChoices rest later

end

end Pattern

/-- The place of one match is that of some fit of its key. -/
theorem completeFrom_of_mem_distinct {pattern : Pattern} {here : Address} {target : Node}
    {fit : Fit} (mem : fit ∈ distinct (pattern.findAt here target)) : fit.CompleteFrom here := by
  refine distinct_forall (fun fit mem => pattern.completeFrom_of_mem_findAt mem) ?_ fit mem
  intro first second isFirst isSecond same
  -- the key tells the address of each capture, so the other fit has a capture there
  have isSecondToo : ∀ capture ∈ first.captures, second.completed.lt capture.address = false := by
    intro capture captured
    have inKey : (capture.name, capture.address) ∈ first.key := List.mem_map_of_mem captured
    rw [same] at inKey
    obtain ⟨other, among, sameKey⟩ := List.mem_map.mp inKey
    have there := isSecond.captured other among
    rwa [(Prod.mk.inj sameKey).2] at there
  exact ⟨Address.earlier_not_lt isFirst.since isSecond.since, fun capture captured =>
    Address.earlier_not_lt (isFirst.captured capture captured) (isSecondToo capture captured)⟩

/-! ## Matches -/

/-- A capture of a match is the node at its address, and it is not after the place where the match
is complete. -/
theorem completed_not_lt_of_mem_found {query : Query} {source : String} {root : Node}
    {found : Match} (mem : found ∈ query.found source root) {capture : Capture}
    (captured : capture ∈ found.captures) :
    root.at? capture.address = some capture.node ∧
      found.completed.lt capture.address = false := by
  obtain ⟨there, clause, _, fits⟩ := mem_found_iff.mp mem
  have among := (List.mem_filter.mp fits).1
  refine ⟨?_, (completeFrom_of_mem_distinct among).captured capture captured⟩
  obtain ⟨fit, memFit, same⟩ := exists_mem_distinct_iff.mp ⟨found.toFit, among, rfl⟩
  obtain ⟨b, address, below⟩ := clause.pattern.at?_of_mem_findAt memFit capture (same ▸ captured)
  rw [address, Node.at?_append, there]
  exact below

end Query

end SourceGauge
