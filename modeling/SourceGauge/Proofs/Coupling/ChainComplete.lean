/-
# SourceGauge.Proofs.Coupling.ChainComplete -- chains are followed to their end

A call chain of a file is followed segment by segment.  When each segment leaves
only one way to go (`Analyzer.OnlyHop`) and the file depends on the type where the
chain starts, the file ends up joined with every type on the way, for chains of
any length (`chains_complete`).

The induction is on the segments.  It is carried by what holds of the list while a
file is visited: what leaves the file is among its direct relationships or those
that it has gained (`Gained.mem_own`), since no other file adds any.  So when the
next type is joined already, that relationship can anchor the segment after.
-/
import SourceGauge.Proofs.Coupling.ChainSound
import SourceGauge.Proofs.Coupling.JoinedOnce

namespace SourceGauge.Coupling

set_option autoImplicit false

/-! ## Steps that have one way to go -/

/-- A step whose dependencies, where the accessor's type names them, all lead to
one name: the anchor's type gets joined with it, unless it is already. -/
theorem stepTo?_only (known : List Relationship) {anchor : Relationship}
    {returnType target : String} {dependencies : List Relationship}
    (only : ∀ dependency ∈ dependencies, Text.contains dependency.toType returnType = true →
      dependency.toName = target)
    (named : ∃ dependency ∈ dependencies, Text.contains dependency.toType returnType = true)
    (different : anchor.fromName ≠ target) :
    areJoined known anchor.fromName target = true ∨
      ∃ new, stepTo? known anchor returnType dependencies = some new ∧ new.toName = target := by
  induction dependencies with
  | nil =>
      obtain ⟨_, mem, _⟩ := named
      exact (List.not_mem_nil mem).elim
  | cons dependency rest ih =>
      by_cases names : Text.contains dependency.toType returnType = true
      · have leads : dependency.toName = target := only dependency List.mem_cons_self names
        cases joined : areJoined known anchor.fromName target with
        | true => exact Or.inl rfl
        | false =>
            right
            simp [stepTo?, names, leads, joined, different]
      · obtain ⟨other, mem, namesOther⟩ := named
        have memRest : other ∈ rest := by
          rcases List.mem_cons.mp mem with rfl | later
          · exact absurd namesOther names
          · exact later
        have skip : stepTo? known anchor returnType (dependency :: rest) =
            stepTo? known anchor returnType rest := by
          simp [stepTo?, names]
        rw [skip]
        exact ih (fun d found => only d (List.mem_cons_of_mem _ found)) ⟨other, memRest, namesOther⟩

theorem accessorsNamed_of_filter {accessors : List Accessor} {name : String} {accessor : Accessor}
    {declaring : DeclaredType}
    (one : (accessors.filter fun other => other.name = name) = [accessor])
    (alone : accessor.declaring = [declaring]) :
    accessorsNamed accessors name = [(accessor, declaring)] := by
  simp [accessorsNamed, one, alone]

theorem subset_followSegment (accessors : List Accessor)
    (direct known own gained : List Relationship) (segment : String) :
    gained ⊆ followSegment accessors direct known own gained segment := by
  rw [followSegment_eq]
  exact List.subset_append_left _ _

theorem subset_followSegments (accessors : List Accessor)
    (direct known own gained : List Relationship) (segments : List String) :
    gained ⊆ segments.foldl (followSegment accessors direct known own) gained :=
  List.foldlRecOn segments _ (motive := fun more => gained ⊆ more) (fun _ mem => mem)
    fun _ kept segment _ => List.Subset.trans kept (subset_followSegment _ _ _ _ _ segment)

theorem subset_followChains (accessors : List Accessor)
    (direct known own gained : List Relationship) (calls : List CallChain) :
    gained ⊆ calls.foldl (followChain accessors direct known own) gained :=
  List.foldlRecOn calls _ (motive := fun more => gained ⊆ more) (fun _ mem => mem)
    fun _ kept call _ => List.Subset.trans kept (subset_followSegments _ _ _ _ _ call.segments)

theorem exists_mem_firstOfEach {seen : List String} {calls : List CallChain} {call : CallChain}
    (mem : call ∈ calls) (unseen : call.text ∉ seen) :
    ∃ first ∈ firstOfEach seen calls, first.text = call.text := by
  induction calls generalizing seen with
  | nil => exact (List.not_mem_nil mem).elim
  | cons head rest ih =>
      by_cases same : head.text = call.text
      · refine ⟨head, ?_, same⟩
        have new : head.text ∉ seen := by rwa [same]
        simp [firstOfEach, new]
      · have memRest : call ∈ rest := by
          rcases List.mem_cons.mp mem with rfl | later
          · exact absurd rfl same
          · exact later
        simp only [firstOfEach]
        split
        · exact ih memRest unseen
        · have unseenHead : call.text ∉ head.text :: seen := by
            simp [unseen, Ne.symm same]
          obtain ⟨first, memFirst, text⟩ := ih memRest unseenHead
          exact ⟨first, List.mem_cons_of_mem _ memFirst, text⟩

namespace Analyzer

/-! ## Visiting one file -/

theorem addChained_append (accessors : List Accessor) (direct known : List Relationship)
    (before after : PathMap FileCoupling) :
    addChained accessors direct known (before ++ after) =
      addChained accessors direct (addChained accessors direct known before) after := by
  induction before generalizing known with
  | nil => rfl
  | cons item rest ih => exact ih _

theorem subset_addChained (accessors : List Accessor) (direct known : List Relationship)
    (files : PathMap FileCoupling) : known ⊆ addChained accessors direct known files := by
  rw [addChained_eq]
  exact List.subset_append_left _ _

variable {analyzer : Analyzer} {known gained : List Relationship} {item : Path × FileCoupling}

/-- What files gain leaves one of them. -/
theorem addChained_leaves {files : PathMap FileCoupling} (within : files ⊆ analyzer.files)
    (grown : Grown analyzer.ChainStep analyzer.direct known) :
    ∀ r ∈ addChained analyzer.accessors analyzer.direct known files,
      r ∈ known ∨ ∃ item ∈ files, item.1.same r.fromFile = true := by
  induction files generalizing known with
  | nil => exact fun r mem => Or.inl mem
  | cons item rest ih =>
      have gained := followCalls_gained grown (within List.mem_cons_self)
      intro r mem
      have cases := ih (fun _ found => within (List.mem_cons_of_mem _ found)) gained.grown r mem
      rcases cases with old | ⟨other, memOther, leaves⟩
      · rcases List.mem_append.mp old with before | new
        · exact Or.inl before
        · exact Or.inr ⟨item, List.mem_cons_self, gained.leaves r new⟩
      · exact Or.inr ⟨other, List.mem_cons_of_mem _ memOther, leaves⟩

/-- When a file is visited, only direct relationships leave it yet, and what it
gains stays. -/
theorem Good.visit (good : analyzer.Good) (mem : item ∈ analyzer.files) :
    ∃ known, Grown analyzer.ChainStep analyzer.direct known ∧
      (∀ r ∈ known, r.fromFile = item.1 → r ∈ analyzer.direct) ∧
      known ++ followCalls analyzer.accessors analyzer.direct known item.1 item.2.calls ⊆
        analyzer.relationships := by
  obtain ⟨before, after, files⟩ := List.append_of_mem mem
  have within : before ⊆ analyzer.files := by
    rw [files]
    exact List.subset_append_left _ _
  have sorted := good.sorted
  rw [files, PathMap.Sorted, List.pairwise_append] at sorted
  refine ⟨addChained analyzer.accessors analyzer.direct analyzer.direct before,
    addChained_grown within .start, ?_, ?_⟩
  · intro r found here
    rcases addChained_leaves within .start r found with direct | ⟨other, memOther, leaves⟩
    · exact direct
    · -- a file visited before has a lesser path
      have less := sorted.2.2 other memOther item List.mem_cons_self
      rw [Path.not_lt_of_same (here ▸ leaves)] at less
      cases less
  · have whole : analyzer.relationships =
        addChained analyzer.accessors analyzer.direct
          (addChained analyzer.accessors analyzer.direct analyzer.direct before)
          (item :: after) := by
      rw [← addChained_append, ← files]
      rfl
    rw [whole]
    exact subset_addChained _ _ _ after

/-- Every full name is declared in one file only. -/
def DeclaredOnce (analyzer : Analyzer) : Prop :=
  ∀ fullName p q, analyzer.Declares p fullName → analyzer.Declares q fullName → p = q

instance (analyzer : Analyzer) : Decidable analyzer.DeclaredOnce :=
  decidable_of_iff (∀ a ∈ analyzer.declarations, ∀ b ∈ analyzer.declarations,
      a.2 = b.2 → a.1 = b.1) <| by
    constructor
    · intro once fullName p q first second
      exact once _ (declares_iff.mp first) _ (declares_iff.mp second) rfl
    · rintro once ⟨p, fullName⟩ first ⟨q, _⟩ second rfl
      exact once _ p q (declares_iff.mpr first) (declares_iff.mpr second)

/-- Everything that leaves the file being visited can anchor a step. -/
theorem Gained.mem_own (sofar : analyzer.Gained item.1 known gained) (good : analyzer.Good)
    (once : analyzer.DeclaredOnce) (mem : item ∈ analyzer.files)
    (fresh : ∀ r ∈ known, r.fromFile = item.1 → r ∈ analyzer.direct) {r : Relationship}
    (found : r ∈ known ++ gained) (declares : analyzer.Declares item.1 r.fromName) :
    r ∈ leaving item.1 analyzer.direct ++ gained := by
  have leaves := (good.grown_declaredEnds sofar.grown r found).leaves
  have here : r.fromFile = item.1 := once r.fromName _ _ leaves declares
  rcases List.mem_append.mp found with old | new
  · exact List.mem_append_left _ ((good.mem_leaving_iff mem).mpr ⟨fresh r old here, here⟩)
  · exact List.mem_append_right _ new

/-- What can anchor a step starts at a type of the file. -/
theorem Gained.own_declares (sofar : analyzer.Gained item.1 known gained) (good : analyzer.Good)
    (mem : item ∈ analyzer.files) {r : Relationship}
    (found : r ∈ leaving item.1 analyzer.direct ++ gained) :
    r.fromFile = item.1 ∧ analyzer.Declares item.1 r.fromName := by
  rcases List.mem_append.mp found with own | new
  · obtain ⟨direct, here⟩ := (good.mem_leaving_iff mem).mp own
    exact ⟨here, here ▸ (good.direct_declaredEnds r direct).leaves⟩
  · have leaves :=
      (good.grown_declaredEnds sofar.grown r (List.mem_append_right _ new)).leaves
    have here := good.path_eq_of_same mem leaves (sofar.leaves r new)
    exact ⟨here.symm, here ▸ leaves⟩

/-! ## Chains with one way to go -/

/-- A segment of a call chain of a file leaves one way to go: it names one
accessor, declared by the type `here` alone, whose type names `next`; the file of
`here` depends on `next`, and on nothing else that the accessor's type names.  The
file of the chain does not declare `next` itself. -/
structure OnlyHop (analyzer : Analyzer) (path : Path) (segment : String)
    (here next : DeclaredType) : Prop where
  accessor : ∃ accessor,
    (analyzer.accessors.filter fun other => other.name = bareName segment) = [accessor] ∧
    accessor.declaring = [here] ∧ next.name.toList <:+: accessor.returnType.toList ∧
    ∀ r ∈ analyzer.direct, r.fromFile = here.file →
      r.toType.toList <:+: accessor.returnType.toList → r.toName = next.fullName
  dependency : ∃ r ∈ analyzer.direct, r.fromFile = here.file ∧ r.toName = next.fullName
  outside : ¬ analyzer.Declares path next.fullName

end Analyzer

namespace TwoFiles

/-- The classes of the other file, in their order. -/
def calleeType : Nat → DeclaredType
  | 0 => typeB
  | 1 => typeC
  | _ => typeD

theorem onlyHop_c : analyzer.OnlyHop ⟨"A.cs"⟩ "c" (calleeType 0) (calleeType 1) where
  accessor := by
    refine ⟨⟨"c", "C", ⟨"B.cs"⟩, "B.c", [typeB]⟩, by decide +kernel, rfl, by decide +kernel, ?_⟩
    rw [direct_eq]
    decide +kernel
  dependency := by
    rw [direct_eq]
    decide +kernel
  outside := by decide +kernel

theorem onlyHop_d : analyzer.OnlyHop ⟨"A.cs"⟩ "d" (calleeType 1) (calleeType 2) where
  accessor := by
    refine ⟨⟨"d", "D", ⟨"B.cs"⟩, "C.d", [typeC]⟩, by decide +kernel, rfl, by decide +kernel, ?_⟩
    rw [direct_eq]
    decide +kernel
  dependency := by
    rw [direct_eq]
    decide +kernel
  outside := by decide +kernel

end TwoFiles

namespace Analyzer

variable {analyzer : Analyzer} {known gained : List Relationship} {item : Path × FileCoupling}

/-- The prevailing declaration of a full name that is declared once. -/
theorem Good.prevails_unique (good : analyzer.Good) (once : analyzer.DeclaredOnce)
    {type prevailing : DeclaredType} (mem : type ∈ analyzer.types)
    (prevails : analyzer.Prevails type.fullName prevailing) : prevailing = type := by
  obtain ⟨home, memHome, declared⟩ := List.mem_flatMap.mp mem
  obtain ⟨other, memOther, path, declaredOther⟩ := prevails.declared
  have samePath : other.1 = home.1 :=
    once type.fullName _ _ ⟨other, memOther, rfl, prevailing, declaredOther, prevails.named⟩
      ⟨home, memHome, rfl, type, declared, rfl⟩
  have sameFile : other = home := good.eq_of_path memOther memHome samePath
  subst sameFile
  exact (good.files other memOther).types.eq_of_fullName declaredOther declared prevails.named

/-- The accessor that a segment with one way to go looks up, and the dependencies
that its type names. -/
theorem OnlyHop.dependencies (good : analyzer.Good) (once : analyzer.DeclaredOnce) {path : Path}
    {segment : String} {here next : DeclaredType}
    (hop : analyzer.OnlyHop path segment here next) (memNext : next ∈ analyzer.types) :
    ∃ accessor, accessorsNamed analyzer.accessors (bareName segment) = [(accessor, here)] ∧
      (∀ d ∈ leaving here.file analyzer.direct,
        Text.contains d.toType accessor.returnType = true → d.toName = next.fullName) ∧
      ∃ d ∈ leaving here.file analyzer.direct,
        Text.contains d.toType accessor.returnType = true := by
  obtain ⟨accessor, one, alone, named, only⟩ := hop.accessor
  obtain ⟨dependency, direct, leaves, leads⟩ := hop.dependency
  have memAccessor : accessor ∈ analyzer.accessors :=
    (List.mem_filter.mp (one ▸ List.mem_singleton_self accessor)).1
  have declares : analyzer.Declares here.file here.fullName :=
    good.declares_declaring memAccessor (alone ▸ List.mem_singleton_self here)
  refine ⟨accessor, accessorsNamed_of_filter one alone, ?_, dependency, ?_, ?_⟩
  · intro d mem names
    obtain ⟨directD, file⟩ := (good.mem_leaving_file_iff declares).mp mem
    exact only d directD file (Text.contains_iff.mp names)
  · exact (good.mem_leaving_file_iff declares).mpr ⟨direct, leaves⟩
  · -- the dependency bears the name of `next`, which is declared once
    obtain ⟨target, prevails, _, name, _⟩ := (good.direct_declaredEnds dependency direct).target
    rw [leads] at prevails
    rw [name, good.prevails_unique once memNext prevails]
    exact Text.contains_iff.mpr named

/-- Where a segment has one way to go and its type can be anchored, following it
leaves the file joined with the next type. -/
theorem OnlyHop.followSegment (good : analyzer.Good) (once : analyzer.DeclaredOnce)
    (mem : item ∈ analyzer.files)
    (fresh : ∀ r ∈ known, r.fromFile = item.1 → r ∈ analyzer.direct)
    (sofar : analyzer.Gained item.1 known gained) {segment : String} {here next : DeclaredType}
    (hop : analyzer.OnlyHop item.1 segment here next) (memNext : next ∈ analyzer.types)
    (anchored : ∃ r ∈ leaving item.1 analyzer.direct ++ gained, r.toName = here.fullName) :
    ∃ r ∈ leaving item.1 analyzer.direct ++ Coupling.followSegment analyzer.accessors
      analyzer.direct known (leaving item.1 analyzer.direct) gained segment,
      r.toName = next.fullName := by
  obtain ⟨accessor, one, only, named⟩ := hop.dependencies good once memNext
  -- the first relationship that leads to `here` is the anchor
  have isSome : ((leaving item.1 analyzer.direct ++ gained).find? fun r =>
      r.toName = here.fullName).isSome = true := by
    obtain ⟨r, found, leads⟩ := anchored
    exact List.find?_isSome.mpr ⟨r, found, by simpa using leads⟩
  obtain ⟨anchor, found⟩ := Option.isSome_iff_exists.mp isSome
  have declares :=
    (sofar.own_declares good mem (List.mem_of_find?_eq_some found)).2
  have different : anchor.fromName ≠ next.fullName := fun same => hop.outside (same ▸ declares)
  rw [followSegment_eq, one, List.findSome?_singleton]
  simp only [stepThrough?, found]
  rcases stepTo?_only (known ++ gained) only named different with joined | ⟨new, step, toNext⟩
  · -- they are joined already, by a relationship that leaves this file
    obtain ⟨r, memR, ends⟩ := List.mem_map.mp (areJoined_iff.mp joined)
    obtain ⟨fromName, toName⟩ := Prod.mk.injEq _ _ _ _ ▸ ends
    have own := sofar.mem_own good once mem fresh memR (fromName ▸ declares)
    refine ⟨r, ?_, toName⟩
    rw [← List.append_assoc]
    exact List.mem_append_left _ own
  · refine ⟨new, ?_, toNext⟩
    rw [step]
    simp

/-- Following segments that each have one way to go leaves the file joined with
every type on the way. -/
theorem followSegments_complete (good : analyzer.Good) (once : analyzer.DeclaredOnce)
    (mem : item ∈ analyzer.files) (grown : Grown analyzer.ChainStep analyzer.direct known)
    (fresh : ∀ r ∈ known, r.fromFile = item.1 → r ∈ analyzer.direct) {call : CallChain}
    (memCall : call ∈ item.2.calls) {segments : List String} (within : segments ⊆ call.segments)
    (sofar : analyzer.Gained item.1 known gained) (types : Nat → DeclaredType)
    (declared : ∀ i ≤ segments.length, types i ∈ analyzer.types)
    (hops : ∀ i (h : i < segments.length),
      analyzer.OnlyHop item.1 segments[i] (types i) (types (i + 1)))
    (anchored : ∃ r ∈ leaving item.1 analyzer.direct ++ gained, r.toName = (types 0).fullName) :
    ∀ i ≤ segments.length, ∃ r ∈ leaving item.1 analyzer.direct ++
      segments.foldl (Coupling.followSegment analyzer.accessors analyzer.direct known
        (leaving item.1 analyzer.direct)) gained,
      r.toName = (types i).fullName := by
  induction segments generalizing gained types with
  | nil =>
      intro i bound
      rw [Nat.le_zero.mp bound]
      exact anchored
  | cons segment rest ih =>
      have memSegment : segment ∈ call.segments := within List.mem_cons_self
      have hop : analyzer.OnlyHop item.1 segment (types 0) (types 1) := hops 0 (by simp)
      have next := hop.followSegment good once mem fresh sofar (declared 1 (by simp)) anchored
      have more := sofar.followSegment grown mem memCall memSegment
      intro i bound
      cases i with
      | zero =>
          obtain ⟨r, found, leads⟩ := anchored
          refine ⟨r, ?_, leads⟩
          rcases List.mem_append.mp found with own | old
          · exact List.mem_append_left _ own
          · exact List.mem_append_right _ (subset_followSegments _ _ _ _ _ (segment :: rest) old)
      | succ i =>
          refine ih (fun _ found => within (List.mem_cons_of_mem _ found)) more
            (fun j => types (j + 1)) ?_ ?_ next i (Nat.le_of_succ_le_succ bound)
          · intro j boundJ
            exact declared (j + 1) (Nat.succ_le_succ boundJ)
          · intro j boundJ
            exact hops (j + 1) (Nat.succ_lt_succ boundJ)

/-- What a file gains from all its call chains holds what it gains from one of
them, from some point on. -/
theorem Good.followCalls_reach (good : analyzer.Good) (mem : item ∈ analyzer.files)
    (grown : Grown analyzer.ChainStep analyzer.direct known) {call : CallChain}
    (memCall : call ∈ item.2.calls) :
    ∃ gained, analyzer.Gained item.1 known gained ∧
      followChain analyzer.accessors analyzer.direct known (leaving item.1 analyzer.direct) gained
        call ⊆ followCalls analyzer.accessors analyzer.direct known item.1 item.2.calls := by
  obtain ⟨first, memFirst, text⟩ := exists_mem_firstOfEach memCall (List.not_mem_nil)
  have same : first = call :=
    (good.files item mem).calls first (mem_of_mem_firstOfEach memFirst) call memCall text
  subst same
  obtain ⟨before, after, calls⟩ := List.append_of_mem memFirst
  have within : before ⊆ item.2.calls := by
    intro other found
    have memOther : other ∈ firstOfEach [] item.2.calls := by
      rw [calls]
      exact List.mem_append_left _ found
    exact mem_of_mem_firstOfEach memOther
  refine ⟨_, (Gained.nil grown item.1).followChains grown mem within, ?_⟩
  rw [followCalls_eq, calls, List.foldl_append, List.foldl_cons]
  exact subset_followChains _ _ _ _ _ after

/-- **Chains are followed to their end.**  Let a file depend on the first of some
types, let every full name be declared once, and let each segment after the
receiver of one of its call chains leave one way to go, from each type to the next.
Then types of the file are joined with all of them, each pair once. -/
theorem chains_complete [OwnGrammars] (reachable : analyzer.Reachable)
    (once : analyzer.DeclaredOnce)
    {path : Path} {file : FileCoupling} (mem : (path, file) ∈ analyzer.files)
    {call : CallChain} (memCall : call ∈ file.calls) (hasReceiver : call.hasReceiver = true)
    {receiver : String} {segments : List String}
    (text : Text.split call.delimiter call.text = receiver :: segments)
    (types : Nat → DeclaredType) (declared : ∀ i ≤ segments.length, types i ∈ analyzer.types)
    (first : ∃ r ∈ analyzer.direct, r.fromFile = path ∧ r.toName = (types 0).fullName)
    (hops : ∀ i (h : i < segments.length),
      analyzer.OnlyHop path segments[i] (types i) (types (i + 1))) :
    (∀ i ≤ segments.length, ∃ r ∈ analyzer.aggregate.relationships, r.fromFile = path ∧
      (∃ type ∈ file.types, type.fullName = r.fromName) ∧ r.toName = (types i).fullName) ∧
    (analyzer.aggregate.relationships.map fun r => (r.fromName, r.toName)).Nodup := by
  refine ⟨?_, analyzer.relationships_distinct.ends_nodup⟩
  have good := reachable.good
  obtain ⟨known, grown, fresh, kept⟩ := good.visit mem
  obtain ⟨gained, sofar, reach⟩ := good.followCalls_reach mem grown memCall
  have segmentsEq : call.segments = segments := by
    simp [CallChain.segments, hasReceiver, text]
  have anchored : ∃ r ∈ leaving path analyzer.direct ++ gained, r.toName = (types 0).fullName := by
    obtain ⟨r, direct, leaves, leads⟩ := first
    exact ⟨r, List.mem_append_left _ ((good.mem_leaving_iff mem).mpr ⟨direct, leaves⟩), leads⟩
  intro i bound
  obtain ⟨r, found, leads⟩ := followSegments_complete good once mem grown fresh memCall
    (segmentsEq ▸ List.Subset.refl call.segments) sofar types declared hops anchored i bound
  have more : analyzer.Gained path known (segments.foldl _ gained) :=
    sofar.followSegments grown mem memCall (segmentsEq ▸ List.Subset.refl call.segments)
  obtain ⟨leaves, item, memItem, samePath, type, memType, named⟩ := more.own_declares good mem found
  have sameItem := good.eq_of_path memItem mem samePath
  subst sameItem
  refine ⟨r, kept ?_, leaves, ⟨type, memType, named⟩, leads⟩
  rcases List.mem_append.mp found with own | new
  · exact List.mem_append_left _ (grown.subset ((good.mem_leaving_iff mem).mp own).1)
  · refine List.mem_append_right _ (reach ?_)
    rw [followChain, segmentsEq]
    exact new

attribute [local instance] sampleGrammars

theorem chains_complete_two_files :
    (∀ i ≤ 2, ∃ r ∈ TwoFiles.analyzer.aggregate.relationships, r.fromFile = ⟨"A.cs"⟩ ∧
      (∃ type ∈ TwoFiles.caller.types, type.fullName = r.fromName) ∧
      r.toName = (TwoFiles.calleeType i).fullName) ∧
    (TwoFiles.analyzer.aggregate.relationships.map fun r => (r.fromName, r.toName)).Nodup := by
  have file : ((⟨"A.cs"⟩, TwoFiles.caller) : Path × FileCoupling) ∈ TwoFiles.analyzer.files :=
    List.mem_cons_self
  have call : (⟨"y.c.d", ".", true⟩ : CallChain) ∈ TwoFiles.caller.calls := List.mem_cons_self
  have text : Text.split "." "y.c.d" = ["y", "c", "d"] := by decide +kernel
  refine chains_complete TwoFiles.reachable (by decide +kernel) file call rfl text
    TwoFiles.calleeType (by decide +kernel) ?_ ?_
  · rw [TwoFiles.direct_eq]
    decide +kernel
  · intro i bound
    match i with
    | 0 => exact TwoFiles.onlyHop_c
    | 1 => exact TwoFiles.onlyHop_d

end Analyzer

end SourceGauge.Coupling
