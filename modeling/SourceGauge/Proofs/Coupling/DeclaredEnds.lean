/-
# SourceGauge.Proofs.Coupling.DeclaredEnds -- relationships join declared types

Every relationship, direct or chained, starts at a full name that its file
declares and leads to a full name whose prevailing declaration it describes: the
file, the name of the type, and whether it can be implemented
(`Analyzer.DeclaredEnds`).  A candidate brings this from the file that it was
collected in and from the look-up of its two ends; a step of a chain takes the
one end from its anchor and the other from a direct relationship.

* `aggregate_ends_declared`: so it is for all that collecting can lead to.
-/
import SourceGauge.Proofs.Coupling.Growth
import SourceGauge.Proofs.Coupling.Reachable

namespace SourceGauge.Coupling

set_option autoImplicit false

theorem kindTowards_implementation {used : DeclaredType} {kind : UsageKind}
    (implements : kindTowards used kind = .implementation) : used.kind = .interface := by
  cases kind with
  | implementation =>
      simp only [kindTowards] at implements
      split at implements
      · assumption
      · cases implements
  | _ => cases implements

namespace Analyzer

/-- The full name that a relationship starts at is declared in its file, and the
rest of it tells the prevailing declarations of its two full names. -/
structure DeclaredEnds (analyzer : Analyzer) (r : Relationship) : Prop where
  leaves : analyzer.Declares r.fromFile r.fromName
  origin : ∃ origin, analyzer.Prevails r.fromName origin ∧ r.fromType = origin.name
  target : ∃ target, analyzer.Prevails r.toName target ∧ r.toFile = target.file ∧
    r.toType = target.name ∧ (r.kind = .implementation → target.kind = .interface)

variable {analyzer : Analyzer}

theorem Good.direct_declaredEnds (good : analyzer.Good) :
    ∀ r ∈ analyzer.direct, analyzer.DeclaredEnds r := by
  refine analyzer.direct_grown.forall_mem (fun _ mem => (List.not_mem_nil mem).elim) ?_
  rintro known new _ ⟨candidate, mem, found, _⟩
  obtain ⟨_, used, origin, usedFound, originFound, rfl⟩ := relationshipOf?_some found
  obtain ⟨item, memItem, collected⟩ := List.mem_flatMap.mp mem
  obtain ⟨here, declared⟩ := (good.files item memItem).candidates candidate collected
  refine ⟨⟨item, memItem, here.symm, declared⟩, ?_, ?_⟩
  · exact ⟨origin, good.typeNamed?_prevails originFound, rfl⟩
  · exact ⟨used, good.typeNamed?_prevails usedFound, rfl, rfl, kindTowards_implementation⟩

theorem DeclaredEnds.through {anchor dependency : Relationship}
    (start : analyzer.DeclaredEnds anchor) (goal : analyzer.DeclaredEnds dependency) :
    analyzer.DeclaredEnds (anchor.through dependency) := by
  obtain ⟨target, prevails, file, name, _⟩ := goal.target
  exact ⟨start.leaves, start.origin, target, prevails, file, name, fun implements => by
    cases implements⟩

/-- What grows from the direct relationships by steps of chains has declared ends. -/
theorem Good.grown_declaredEnds (good : analyzer.Good) {known : List Relationship}
    (grown : Grown analyzer.ChainStep analyzer.direct known) :
    ∀ r ∈ known, analyzer.DeclaredEnds r := by
  refine grown.forall_mem good.direct_declaredEnds ?_
  rintro known new before ⟨_, _, _, _, _, _, anchor, memAnchor, _, dependency, hop, _, _, rfl⟩
  obtain ⟨_, _, _, _, _, _, leaves, _⟩ := hop
  exact (before anchor memAnchor).through
    (good.direct_declaredEnds dependency (List.mem_filter.mp leaves).1)

/-- **Relationships join declared types.**  The type that a relationship starts at
is declared in its file; the type that it leads to is declared in the file that it
names, which is the greatest of those that declare it; the names of the two types
are those of the prevailing declarations, and only an interface is implemented. -/
theorem aggregate_ends_declared [OwnGrammars] (reachable : analyzer.Reachable) {r : Relationship}
    (mem : r ∈ analyzer.aggregate.relationships) :
    analyzer.Declares r.fromFile r.fromName ∧
      analyzer.Declares r.toFile r.toName ∧
      (∀ path, analyzer.Declares path r.toName → path = r.toFile ∨ path.lt r.toFile = true) ∧
      ∃ origin target, analyzer.Prevails r.fromName origin ∧ analyzer.Prevails r.toName target ∧
        target.file = r.toFile ∧ r.fromType = origin.name ∧ r.toType = target.name ∧
        (r.kind = .implementation → target.kind = .interface) := by
  have ends := reachable.good.grown_declaredEnds analyzer.relationships_grown r mem
  obtain ⟨origin, originPrevails, originName⟩ := ends.origin
  obtain ⟨target, targetPrevails, file, targetName, interface⟩ := ends.target
  refine ⟨ends.leaves, ?_, ?_, origin, target, originPrevails, targetPrevails, file.symm,
    originName, targetName, interface⟩
  · rw [file]
    exact targetPrevails.declares
  · rw [file]
    exact targetPrevails.greatest

attribute [local instance] sampleGrammars

theorem aggregate_ends_declared_two_files :
    TwoFiles.analyzer.Declares ⟨"A.cs"⟩ "A" ∧ TwoFiles.analyzer.Declares ⟨"B.cs"⟩ "D" ∧
      (∀ path, TwoFiles.analyzer.Declares path "D" → path = ⟨"B.cs"⟩ ∨ path.lt ⟨"B.cs"⟩ = true) ∧
      ∃ origin target, TwoFiles.analyzer.Prevails "A" origin ∧
        TwoFiles.analyzer.Prevails "D" target ∧ target.file = ⟨"B.cs"⟩ ∧ "A" = origin.name ∧
        "D" = target.name ∧ (UsageKind.use = .implementation → target.kind = .interface) := by
  have mem : TwoFiles.uses TwoFiles.typeA TwoFiles.typeD ∈
      TwoFiles.analyzer.aggregate.relationships := by decide +kernel
  exact aggregate_ends_declared TwoFiles.reachable mem

end Analyzer

end SourceGauge.Coupling
