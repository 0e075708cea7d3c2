/-
# SourceGauge.Proofs.Coupling.ChainSound -- why a chained relationship is there

A relationship that a file gains from its call chains has a witness: a segment of
a call chain of the file, an accessor of that name, an earlier relationship that
anchors it at a type declaring the accessor, and a direct relationship that leaves
the file of that type and is named in the accessor's type.

Anchors may be chained themselves.  By following them back, the type that a
relationship leads to can be reached from its file over direct relationships
alone, each leaving a file that declares what the one before leads to
(`Analyzer.Reaches`).

* `chained_sound`: both, for each relationship beyond the direct ones.
-/
import SourceGauge.Proofs.Coupling.DeclaredEnds

namespace SourceGauge.Coupling

set_option autoImplicit false

namespace Analyzer

/-- A full name can be reached from a file over direct relationships, the first of
which leaves the file and each other one a file that declares the name before. -/
inductive Reaches (analyzer : Analyzer) (path : Path) : String → Prop
  | direct {r : Relationship} :
      r ∈ analyzer.direct → r.fromFile = path → Reaches analyzer path r.toName
  | further {fullName : String} {r : Relationship} :
      Reaches analyzer path fullName → analyzer.Declares r.fromFile fullName →
      r ∈ analyzer.direct → Reaches analyzer path r.toName

variable {analyzer : Analyzer}

/-- A collected path is spelled in one way. -/
theorem Good.path_eq_of_same (good : analyzer.Good) {item : Path × FileCoupling}
    (mem : item ∈ analyzer.files) {path : Path} {fullName : String}
    (declares : analyzer.Declares path fullName) (same : item.1.same path = true) :
    item.1 = path := by
  obtain ⟨other, memOther, rfl, _⟩ := declares
  rw [good.sorted.eq_of_same mem memOther same]

/-- A type that declares an accessor is declared in its file. -/
theorem Good.declares_declaring (good : analyzer.Good) {accessor : Accessor}
    (mem : accessor ∈ analyzer.accessors) {declaring : DeclaredType}
    (declares : declaring ∈ accessor.declaring) :
    analyzer.Declares declaring.file declaring.fullName := by
  obtain ⟨item, memItem, here⟩ := List.mem_flatMap.mp mem
  have file := good.files item memItem
  have declared := file.accessors accessor here declaring declares
  exact ⟨item, memItem, (file.types.file_eq declaring declared).symm, declaring, declared, rfl⟩

/-- The direct relationships that leave a collected file name it as it is spelled. -/
theorem Good.mem_leaving_iff (good : analyzer.Good) {item : Path × FileCoupling}
    (mem : item ∈ analyzer.files) {r : Relationship} :
    r ∈ leaving item.1 analyzer.direct ↔ r ∈ analyzer.direct ∧ r.fromFile = item.1 := by
  rw [leaving, List.mem_filter]
  constructor
  · rintro ⟨direct, same⟩
    have leaves := (good.direct_declaredEnds r direct).leaves
    exact ⟨direct, (good.path_eq_of_same mem leaves same).symm⟩
  · rintro ⟨direct, here⟩
    exact ⟨direct, here ▸ Path.same_refl r.fromFile⟩

theorem Good.mem_leaving_file_iff (good : analyzer.Good) {type : DeclaredType} {fullName : String}
    (declares : analyzer.Declares type.file fullName) {r : Relationship} :
    r ∈ leaving type.file analyzer.direct ↔ r ∈ analyzer.direct ∧ r.fromFile = type.file := by
  obtain ⟨item, mem, here, _⟩ := declares
  rw [← here]
  exact good.mem_leaving_iff mem

/-- What a hop passes through: the type that the anchor leads to is declared in the
file that the dependency leaves. -/
theorem Good.hop_declares (good : analyzer.Good) {name : String}
    {anchor dependency : Relationship}
    (hop : Hop analyzer.accessors analyzer.direct name anchor dependency) :
    dependency ∈ analyzer.direct ∧ analyzer.Declares dependency.fromFile anchor.toName := by
  obtain ⟨accessor, mem, _, declaring, declares, leads, leaves, _⟩ := hop
  have declared := good.declares_declaring mem declares
  obtain ⟨direct, file⟩ := (good.mem_leaving_file_iff declared).mp leaves
  refine ⟨direct, ?_⟩
  rw [file, leads]
  exact declared

theorem Good.grown_reaches (good : analyzer.Good) {known : List Relationship}
    (grown : Grown analyzer.ChainStep analyzer.direct known) :
    ∀ r ∈ known, analyzer.Reaches r.fromFile r.toName := by
  refine grown.forall_mem (fun r mem => .direct mem rfl) ?_
  rintro known new before ⟨_, _, _, _, _, _, anchor, memAnchor, _, dependency, hop, _, _, rfl⟩
  obtain ⟨direct, declares⟩ := good.hop_declares hop
  have reached : analyzer.Reaches anchor.fromFile dependency.toName :=
    .further (before anchor memAnchor) declares direct
  exact reached

/-- **Chained relationships have a witness.**  Each relationship that a file gains
is a use, found by a segment of a call chain of the file and an accessor of that
name: an earlier relationship leads from the same type to a type that declares the
accessor, and a direct one leads from the file of that type to where the new one
leads, to a type named in the accessor's type.  So where it leads can be reached
over direct relationships alone. -/
theorem chained_sound [OwnGrammars] (reachable : analyzer.Reachable) :
    analyzer.aggregate.relationships = analyzer.direct ++ analyzer.chained ∧
      ∀ before r after, analyzer.chained = before ++ r :: after →
        r.kind = .use ∧
        (∃ item ∈ analyzer.files, item.1 = r.fromFile ∧
          ∃ call ∈ item.2.calls, ∃ segment ∈ call.segments,
            ∃ accessor ∈ analyzer.accessors, accessor.name = bareName segment ∧
              ∃ declaring ∈ accessor.declaring,
                (∃ anchor ∈ analyzer.direct ++ before, anchor.fromName = r.fromName ∧
                  anchor.fromFile = r.fromFile ∧ anchor.toName = declaring.fullName) ∧
                ∃ dependency ∈ analyzer.direct, dependency.fromFile = declaring.file ∧
                  dependency.toName = r.toName ∧
                  dependency.toType.toList <:+: accessor.returnType.toList) ∧
        analyzer.Reaches r.fromFile r.toName := by
  refine ⟨analyzer.relationships_eq, ?_⟩
  intro before r after at_r
  have good := reachable.good
  have grown := analyzer.relationships_grown
  have split : analyzer.relationships = analyzer.direct ++ before ++ r :: after := by
    rw [analyzer.relationships_eq, at_r, List.append_assoc]
  have mem : r ∈ analyzer.relationships := by
    rw [split]
    exact List.mem_append_right _ List.mem_cons_self
  have reaches := good.grown_reaches grown r mem
  have leaves := (good.grown_declaredEnds grown r mem).leaves
  obtain ⟨item, memItem, call, memCall, segment, memSegment, anchor, memAnchor, same, dependency,
    hop, _, _, rfl⟩ := grown.step_at split
  obtain ⟨accessor, memAccessor, named, declaring, declares, leads, dependencyLeaves, names⟩ :=
    hop
  have declared := good.declares_declaring memAccessor declares
  obtain ⟨direct, file⟩ := (good.mem_leaving_file_iff declared).mp dependencyLeaves
  have here : item.1 = anchor.fromFile := good.path_eq_of_same memItem leaves same
  exact ⟨rfl, ⟨item, memItem, here, call, memCall, segment, memSegment, accessor,
    memAccessor, named, declaring, declares, ⟨anchor, memAnchor, rfl, rfl, leads⟩, dependency,
    direct, file, rfl, Text.contains_iff.mp names⟩, reaches⟩

attribute [local instance] sampleGrammars

theorem chained_sound_two_files :
    TwoFiles.analyzer.chained = [TwoFiles.uses TwoFiles.typeA TwoFiles.typeC,
        TwoFiles.uses TwoFiles.typeA TwoFiles.typeD] ∧
      TwoFiles.analyzer.Reaches ⟨"A.cs"⟩ "D" := by
  have chained : TwoFiles.analyzer.chained = [TwoFiles.uses TwoFiles.typeA TwoFiles.typeC,
      TwoFiles.uses TwoFiles.typeA TwoFiles.typeD] := by decide +kernel
  obtain ⟨_, _, reaches⟩ := (chained_sound TwoFiles.reachable).2
    [TwoFiles.uses TwoFiles.typeA TwoFiles.typeC] _ [] chained
  exact ⟨chained, reaches⟩

end Analyzer

end SourceGauge.Coupling
