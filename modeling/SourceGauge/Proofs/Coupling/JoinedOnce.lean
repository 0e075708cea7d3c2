/-
# SourceGauge.Proofs.Coupling.JoinedOnce -- two types are joined at most once

Whatever was collected, no ordered pair of full names is joined by two
relationships and no full name is joined with itself (`aggregate_joins_once`).
Direct relationships and chained ones are found in different ways, but both rules
ask for two names that differ and that no relationship joins yet, and that is all
that the proof uses of them (`Grown.distinct`).
-/
import Mathlib.Data.List.Nodup
import SourceGauge.Proofs.Coupling.Growth

namespace SourceGauge.Coupling

set_option autoImplicit false

/-- The full names that a relationship joins. -/
def Relationship.ends (relationship : Relationship) : String × String :=
  (relationship.fromName, relationship.toName)

theorem areJoined_iff {known : List Relationship} {fromName toName : String} :
    areJoined known fromName toName = true ↔ (fromName, toName) ∈ known.map Relationship.ends := by
  simp [areJoined, Relationship.joins, Relationship.ends]

/-- No pair of full names is joined twice, and no full name with itself. -/
structure Distinct (relationships : List Relationship) : Prop where
  ends_nodup : (relationships.map Relationship.ends).Nodup
  no_loop : ∀ r ∈ relationships, r.fromName ≠ r.toName

theorem Distinct.nil : Distinct [] :=
  ⟨List.nodup_nil, fun _ mem => (List.not_mem_nil mem).elim⟩

theorem Distinct.add {known : List Relationship} (distinct : Distinct known) {new : Relationship}
    (free : areJoined known new.fromName new.toName = false)
    (different : new.fromName ≠ new.toName) : Distinct (known ++ [new]) where
  ends_nodup := by
    rw [List.map_append, List.map_singleton, ← List.concat_eq_append]
    refine distinct.ends_nodup.concat ?_
    intro joined
    rw [areJoined_iff.mpr joined] at free
    cases free
  no_loop := by
    intro r mem
    rcases List.mem_append.mp mem with old | last
    · exact distinct.no_loop r old
    · rw [List.mem_singleton.mp last]
      exact different

/-- A list stays distinct when every step joins two different names that were not
joined. -/
theorem Grown.distinct {step : List Relationship → Relationship → Prop}
    {start known : List Relationship} (grown : Grown step start known) (base : Distinct start)
    (joins : ∀ known new, step known new →
      areJoined known new.fromName new.toName = false ∧ new.fromName ≠ new.toName) :
    Distinct known := by
  induction grown with
  | start => exact base
  | add _ allowed ih =>
      obtain ⟨free, different⟩ := joins _ _ allowed
      exact ih.add free different

namespace Analyzer

theorem direct_distinct (analyzer : Analyzer) : Distinct analyzer.direct := by
  refine analyzer.direct_grown.distinct Distinct.nil ?_
  rintro known new ⟨candidate, _, found, free⟩
  obtain ⟨different, _, _, _, _, rfl⟩ := relationshipOf?_some found
  exact ⟨free, different.symm⟩

theorem relationships_distinct (analyzer : Analyzer) : Distinct analyzer.relationships := by
  refine analyzer.relationships_grown.distinct analyzer.direct_distinct ?_
  rintro known new ⟨_, _, _, _, _, _, _, _, _, _, _, different, free, rfl⟩
  exact ⟨free, different⟩

/-- **Two types are joined at most once, and no type with itself**, by the direct
relationships together with those that all files gain from their call chains. -/
theorem aggregate_joins_once (analyzer : Analyzer) :
    analyzer.aggregate.relationships = analyzer.direct ++ analyzer.chained ∧
      (analyzer.aggregate.relationships.map fun r => (r.fromName, r.toName)).Nodup ∧
      ∀ name, (name, name) ∉ analyzer.aggregate.relationships.map fun r =>
        (r.fromName, r.toName) := by
  have distinct := analyzer.relationships_distinct
  refine ⟨analyzer.relationships_eq, distinct.ends_nodup, ?_⟩
  intro name loop
  obtain ⟨r, mem, ends⟩ := List.mem_map.mp loop
  obtain ⟨fromName, toName⟩ := Prod.mk.injEq _ _ _ _ ▸ ends
  exact distinct.no_loop r mem (fromName.trans toName.symm)

end Analyzer

end SourceGauge.Coupling
