/-
# SourceGauge.Proofs.Coupling.Visits -- files follow their chains apart from each other

The list of relationships that are known grows from file to file, and a step of a
chain asks it whether two names are joined already.  But a step only asks about
names at which the file's own relationships start: what a file gains starts where
one of the direct relationships that leave it does (`followCalls_starts`).  So two
lists that agree on these names lead to the same gains (`followCalls_congr`).

Where every full name is declared in one file, no other file adds a relationship
that starts at such a name, and each file gains what it would gain if it were
visited first (`gains_eq_map`).

* `gainedAt_independent`: neither the order in which the files are visited nor the
  call chains of other files matter to what a file gains.
-/
import SourceGauge.Proofs.Coupling.ChainComplete
import SourceGauge.Proofs.Coupling.Sides
import SourceGauge.Proofs.Keyed

namespace SourceGauge.Coupling

set_option autoImplicit false

/-! ## Names that a file asks about -/

section Congruence

variable {accessors : List Accessor} {direct known other own gained : List Relationship}

theorem areJoined_append (known gained : List Relationship) (fromName toName : String) :
    areJoined (known ++ gained) fromName toName =
      (areJoined known fromName toName || areJoined gained fromName toName) :=
  List.any_append

/-- Every relationship of a list starts at a name where one of `own` starts. -/
def StartsAmong (own gained : List Relationship) : Prop :=
  ∀ r ∈ gained, ∃ origin ∈ own, origin.fromName = r.fromName

/-- Two lists join the same names with those at which one of `own` starts. -/
def AgreeFrom (own known other : List Relationship) : Prop :=
  ∀ origin ∈ own, ∀ toName,
    areJoined known origin.fromName toName = areJoined other origin.fromName toName

theorem StartsAmong.nil (own : List Relationship) : StartsAmong own [] :=
  fun _ mem => (List.not_mem_nil mem).elim

/-- What can anchor a step starts among the relationships of the file. -/
theorem StartsAmong.anchor (starts : StartsAmong own gained) {anchor : Relationship}
    (mem : anchor ∈ own ++ gained) : ∃ origin ∈ own, origin.fromName = anchor.fromName := by
  rcases List.mem_append.mp mem with here | new
  · exact ⟨anchor, here, rfl⟩
  · exact starts anchor new

theorem StartsAmong.followSegment (starts : StartsAmong own gained) (segment : String) :
    StartsAmong own (followSegment accessors direct known own gained segment) := by
  rcases followSegment_cases accessors direct known own gained segment with
    same | ⟨anchor, anchored, dependency, _, _, _, added⟩
  · rwa [same]
  · rw [added]
    intro r mem
    rcases List.mem_append.mp mem with old | new
    · exact starts r old
    · obtain ⟨origin, memOrigin, same⟩ := starts.anchor anchored
      exact ⟨origin, memOrigin, by rw [List.mem_singleton.mp new, same]; rfl⟩

theorem StartsAmong.followChain (starts : StartsAmong own gained) (call : CallChain) :
    StartsAmong own (followChain accessors direct known own gained call) :=
  List.foldlRecOn call.segments _ (motive := StartsAmong own) starts
    fun _ more segment _ => more.followSegment segment

/-- What a file gains starts where one of the direct relationships that leave it
starts. -/
theorem followCalls_starts (accessors : List Accessor) (direct known : List Relationship)
    (file : Path) (calls : List CallChain) :
    StartsAmong (leaving file direct) (followCalls accessors direct known file calls) := by
  rw [followCalls_eq]
  exact List.foldlRecOn _ _ (motive := StartsAmong (leaving file direct)) (.nil _)
    fun _ more call _ => more.followChain call

/-- Relationships that start elsewhere join none of the names at which `own` starts. -/
theorem agreeFrom_append_of_apart {more : List Relationship}
    (apart : ∀ origin ∈ own, ∀ r ∈ more, r.fromName ≠ origin.fromName) :
    AgreeFrom own (known ++ more) known := by
  intro origin mem toName
  have free : areJoined more origin.fromName toName = false := by
    refine List.any_eq_false.mpr fun r found joins => ?_
    simp only [Relationship.joins, Bool.and_eq_true, decide_eq_true_eq] at joins
    exact apart origin mem r found joins.1
  rw [areJoined_append, free, Bool.or_false]

theorem stepThrough?_congr (agree : AgreeFrom own known other)
    (starts : StartsAmong own gained) (accessor : Accessor) (declaring : DeclaredType) :
    stepThrough? direct (known ++ gained) (own ++ gained) accessor declaring =
      stepThrough? direct (other ++ gained) (own ++ gained) accessor declaring := by
  unfold stepThrough?
  cases found : (own ++ gained).find? fun r => r.toName = declaring.fullName with
  | none => rfl
  | some anchor =>
      obtain ⟨origin, mem, same⟩ := starts.anchor (List.mem_of_find?_eq_some found)
      refine Analyzer.stepTo?_congr (fun dependency _ => ?_) accessor.returnType
      rw [areJoined_append, areJoined_append, ← same, agree origin mem]

theorem followSegment_congr (agree : AgreeFrom own known other)
    (starts : StartsAmong own gained) (segment : String) :
    followSegment accessors direct known own gained segment =
      followSegment accessors direct other own gained segment := by
  simp only [followSegment_eq, stepThrough?_congr agree starts]

/-- What a file gains depends on what is known of its own names only. -/
theorem followCalls_congr (accessors : List Accessor) {file : Path}
    (agree : AgreeFrom (leaving file direct) known other) (calls : List CallChain) :
    followCalls accessors direct known file calls =
      followCalls accessors direct other file calls := by
  rw [followCalls_eq, followCalls_eq]
  refine foldl_eq_of_motive (motive := StartsAmong (leaving file direct)) (.nil _) ?_ ?_
  · intro gained starts call _
    exact starts.followChain call
  · intro gained starts call _
    refine foldl_eq_of_motive (motive := StartsAmong (leaving file direct)) starts ?_ ?_
    · intro more startsMore segment _
      exact startsMore.followSegment segment
    · intro more startsMore segment _
      exact followSegment_congr agree startsMore segment

end Congruence

namespace Analyzer

/-! ## Visits -/

/-- What the file at a path gains from its call chains when files are visited one
after the other. -/
def gainedAt (analyzer : Analyzer) (visits : PathMap FileCoupling) (path : Path) :
    List Relationship :=
  (((visits.zip (gains analyzer.accessors analyzer.direct analyzer.direct visits)).find?
    fun gain => gain.1.1 = path).map (·.2)).getD []

variable {analyzer : Analyzer} {visits : PathMap FileCoupling}

/-- Where names are declared once, relationships that start at one name leave one
file. -/
theorem Good.path_eq_of_start (good : analyzer.Good) (once : analyzer.DeclaredOnce)
    {p q : Path} (memP : p ∈ analyzer.files.map (·.1)) (memQ : q ∈ analyzer.files.map (·.1))
    {r s : Relationship} (leavesP : r ∈ leaving p analyzer.direct)
    (leavesQ : s ∈ leaving q analyzer.direct) (same : r.fromName = s.fromName) : p = q := by
  obtain ⟨item, memItem, rfl⟩ := List.mem_map.mp memP
  obtain ⟨other, memOther, rfl⟩ := List.mem_map.mp memQ
  obtain ⟨directR, hereR⟩ := (good.mem_leaving_iff memItem).mp leavesP
  obtain ⟨directS, hereS⟩ := (good.mem_leaving_iff memOther).mp leavesQ
  have declaresR := (good.direct_declaredEnds r directR).leaves
  have declaresS := (good.direct_declaredEnds s directS).leaves
  rw [hereR] at declaresR
  rw [hereS, ← same] at declaresS
  exact once _ _ _ declaresR declaresS

/-- Every file gains what it would gain if it were visited first. -/
theorem Good.gains_eq_map (good : analyzer.Good) (once : analyzer.DeclaredOnce)
    (within : visits.map (·.1) ⊆ analyzer.files.map (·.1)) (distinct : (visits.map (·.1)).Nodup) :
    gains analyzer.accessors analyzer.direct analyzer.direct visits =
      visits.map fun item =>
        followCalls analyzer.accessors analyzer.direct analyzer.direct item.1 item.2.calls := by
  -- what is known grows by relationships that start at no name of the files still to come
  suffices general : ∀ more : List Relationship,
      (∀ item ∈ visits, ∀ origin ∈ leaving item.1 analyzer.direct, ∀ r ∈ more,
        r.fromName ≠ origin.fromName) →
      gains analyzer.accessors analyzer.direct (analyzer.direct ++ more) visits =
        visits.map fun item =>
          followCalls analyzer.accessors analyzer.direct analyzer.direct item.1 item.2.calls by
    simpa using general [] fun _ _ _ _ _ mem => (List.not_mem_nil mem).elim
  induction visits with
  | nil => exact fun _ _ => rfl
  | cons item rest ih =>
      intro more apart
      obtain ⟨path, file⟩ := item
      rw [List.map_cons, List.nodup_cons] at distinct
      have agree : AgreeFrom (leaving path analyzer.direct) (analyzer.direct ++ more)
          analyzer.direct :=
        agreeFrom_append_of_apart (apart (path, file) List.mem_cons_self)
      have alone := followCalls_congr analyzer.accessors agree file.calls
      simp only [gains, List.map_cons, alone, List.append_assoc]
      congr 1
      refine ih (fun _ mem => within (List.mem_cons_of_mem _ mem)) distinct.2 _ ?_
      intro next memNext origin leaves r mem same
      rcases List.mem_append.mp mem with old | new
      · exact apart next (List.mem_cons_of_mem _ memNext) origin leaves r old same
      · obtain ⟨start, memStart, starts⟩ := followCalls_starts _ _ _ _ _ r new
        have samePath : path = next.1 :=
          good.path_eq_of_start once (within List.mem_cons_self)
            (within (List.mem_cons_of_mem _ (List.mem_map.mpr ⟨next, memNext, rfl⟩))) memStart
            leaves (starts.trans same)
        exact distinct.1 (List.mem_map.mpr ⟨next, memNext, samePath.symm⟩)

/-- In visits of distinct paths, a file gains what it would gain if it were visited
first. -/
theorem Good.gainedAt_eq (good : analyzer.Good) (once : analyzer.DeclaredOnce)
    (within : visits.map (·.1) ⊆ analyzer.files.map (·.1)) (distinct : (visits.map (·.1)).Nodup)
    {item : Path × FileCoupling} (mem : item ∈ visits) :
    analyzer.gainedAt visits item.1 =
      followCalls analyzer.accessors analyzer.direct analyzer.direct item.1 item.2.calls := by
  have found : List.find? (fun other => other.1 = item.1) visits = some item :=
    (find?_key_eq_some_iff distinct).mpr ⟨mem, rfl⟩
  rw [gainedAt, good.gains_eq_map once within distinct, ← List.map_prod_left_eq_zip,
    List.find?_map]
  simp only [Function.comp_def, found, Option.map_some, Option.getD_some]

/-- A collected path is listed once. -/
theorem Good.nodup_paths (good : analyzer.Good) : (analyzer.files.map (·.1)).Nodup :=
  good.sorted.nodup.map_on fun _ memA _ memB same => good.eq_of_path memA memB same

/-- **Files follow their chains apart from each other.**  Let every full name be
declared in one file, and let the collected paths be visited in any order, each
with any call chains.  The chained relationships are what the files gain, and what
a file gains depends on its own call chains only: in any other order, whatever call
chains the other files have, it gains the same list. -/
theorem gainedAt_independent [OwnGrammars] (reachable : analyzer.Reachable)
    (once : analyzer.DeclaredOnce) :
    analyzer.aggregate.relationships =
        analyzer.direct ++
          analyzer.files.flatMap (fun item => analyzer.gainedAt analyzer.files item.1) ∧
      ∀ visits others : PathMap FileCoupling,
        (visits.map (·.1)).Perm (analyzer.files.map (·.1)) →
        (others.map (·.1)).Perm (analyzer.files.map (·.1)) →
        ∀ (path : Path) (file other : FileCoupling), (path, file) ∈ visits →
          (path, other) ∈ others → file.calls = other.calls →
          analyzer.gainedAt visits path = analyzer.gainedAt others path := by
  have good := reachable.good
  have alone : ∀ {visits : PathMap FileCoupling} {item : Path × FileCoupling},
      (visits.map (·.1)).Perm (analyzer.files.map (·.1)) → item ∈ visits →
      analyzer.gainedAt visits item.1 =
        followCalls analyzer.accessors analyzer.direct analyzer.direct item.1 item.2.calls :=
    fun all mem => good.gainedAt_eq once all.subset (all.nodup_iff.mpr good.nodup_paths) mem
  constructor
  · have relationships : analyzer.aggregate.relationships = analyzer.direct ++ analyzer.chained :=
      analyzer.relationships_eq
    rw [relationships, chained,
      good.gains_eq_map once (List.Subset.refl _) good.nodup_paths, ← List.flatMap_def]
    congr 1
    exact List.flatMap_congr fun item mem => (alone (List.Perm.refl _) mem).symm
  · intro visits others all allOthers path file other mem memOther calls
    rw [alone all mem, alone allOthers memOther, calls]

end Analyzer

namespace TwoFiles

/-- The two files in the other order, with a call chain in both. -/
def calledAfter : PathMap FileCoupling :=
  [(⟨"B.cs"⟩, { callee with calls := [⟨"b.c.d", ".", true⟩] }), (⟨"A.cs"⟩, caller)]

end TwoFiles

namespace Analyzer

attribute [local instance] sampleGrammars

theorem gainedAt_independent_two_files :
    TwoFiles.analyzer.gainedAt TwoFiles.calledAfter ⟨"A.cs"⟩ =
        TwoFiles.analyzer.gainedAt TwoFiles.analyzer.files ⟨"A.cs"⟩ ∧
      TwoFiles.analyzer.gainedAt TwoFiles.analyzer.files ⟨"A.cs"⟩ =
        [TwoFiles.uses TwoFiles.typeA TwoFiles.typeC,
          TwoFiles.uses TwoFiles.typeA TwoFiles.typeD] := by
  refine ⟨?_, by decide +kernel⟩
  have independent := (gainedAt_independent TwoFiles.reachable (by decide +kernel)).2
  refine independent TwoFiles.calledAfter TwoFiles.analyzer.files ?_ (List.Perm.refl _) ⟨"A.cs"⟩
    TwoFiles.caller TwoFiles.caller ?_ List.mem_cons_self rfl
  · exact List.Perm.swap _ _ []
  · exact List.mem_cons_of_mem _ List.mem_cons_self

end Analyzer

end SourceGauge.Coupling
