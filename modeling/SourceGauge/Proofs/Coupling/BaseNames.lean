/-
# SourceGauge.Proofs.Coupling.BaseNames -- relationships to base types

Base names are looked up first, type by type, and each text is looked up once in a
file, whichever of its types names it.  A base name that is reached before its text
was noted, is usable and is bound by no import gives a relationship to the type of
that name in the namespace of its own type, if some file declares it
(`aggregate_extends_base`).

A base name whose text was noted is passed over: of two types of a file with the
same base, only the first is related to it (`aggregate_passes_over_base`).
-/
import SourceGauge.Proofs.Coupling.DeclaredEnds
import SourceGauge.Proofs.Coupling.JoinedOnce
import SourceGauge.Proofs.Coupling.LookUp
import SourceGauge.Proofs.Keyed

namespace SourceGauge.Coupling

set_option autoImplicit false

theorem profile?_delimiter {language : Language} {profile : Profile}
    (known : profile? language = some profile) : profile.delimiter ≠ "" := by
  cases language with
  | csharp =>
      cases known
      decide
  | php =>
      cases known
      decide
  | _ => cases known

theorem FileTypes.Good.get?_eq {path : Path} {types : FileTypes} (good : types.Good path)
    {type : DeclaredType} (mem : type ∈ types) : types.get? type.fullName = some type :=
  (find?_key_eq_some_iff good.distinct).mpr ⟨mem, rfl⟩

/-! ## Candidates are kept -/

namespace Collected

variable {profile : Profile} {imports : List Import} {file : Path} {types : FileTypes}
  {first : DeclaredType}

theorem candidates_subset_step (collected : Collected) (entry : UsageText) :
    collected.candidates ⊆ (step profile imports file types first collected entry).candidates := by
  by_cases noted : bareText profile.delimiter entry.text ∈ collected.seen
  · rw [step_of_noted noted]
    exact List.Subset.refl _
  · rw [(step_adds noted).candidates]
    exact List.subset_append_left _ _

theorem candidates_subset_foldl (collected : Collected) (entries : List UsageText) :
    collected.candidates ⊆
      (entries.foldl (step profile imports file types first) collected).candidates :=
  List.foldlRecOn entries _
    (motive := fun later : Collected => collected.candidates ⊆ later.candidates)
    (List.Subset.refl _)
    fun later sofar entry _ => List.Subset.trans sofar (later.candidates_subset_step entry)

end Collected

/-- What a text gives alone is among the candidates of the file, if the text was not noted when
it was reached. -/
theorem alone_subset_collectUsages {profile : Profile} {imports : List Import} {file : Path}
    {first : DeclaredType} {rest : List DeclaredType} {before after : List UsageText}
    {entry : UsageText}
    (new : bareText profile.delimiter entry.text ∉
      (collectUsages profile imports file (first :: rest) before).seen) :
    (Collected.alone profile imports file (first :: rest) first entry).candidates ⊆
      (collectUsages profile imports file (first :: rest)
        (before ++ entry :: after)).candidates := by
  have split : collectUsages profile imports file (first :: rest) (before ++ entry :: after) =
      after.foldl (Collected.step profile imports file (first :: rest) first)
        (Collected.step profile imports file (first :: rest) first
          (collectUsages profile imports file (first :: rest) before) entry) := by
    simp only [collectUsages, List.foldl_append, List.foldl_cons]
  rw [split]
  refine List.Subset.trans ?_ (Collected.candidates_subset_foldl _ after)
  rw [(Collected.step_adds new).candidates]
  exact List.subset_append_right _ _

/-- A base name whose text was not noted may stand for the type of that name in the namespace of
its own type. -/
theorem base_mem_collectUsages {profile : Profile} (delimiter : profile.delimiter ≠ "")
    {imports : List Import} {file : Path} {types : FileTypes} (good : types.Good file)
    {type : DeclaredType} (declared : type ∈ types) {before after : List UsageText}
    {base : String} {kind : UsageKind}
    (new : bareText profile.delimiter base ∉
      (collectUsages profile imports file types before).seen)
    (usable : isUnusable (cleanName profile.delimiter base) = false)
    {head : String} {rest : List String}
    (segments : cleanSegments profile.delimiter base = head :: rest)
    (unbound : boundBy? imports head = none) :
    ⟨qualified type.space profile.delimiter (cleanName profile.delimiter base), type.fullName,
        file, kind⟩ ∈
      (collectUsages profile imports file types
        (before ++ ⟨false, base, some type.fullName, kind⟩ :: after)).candidates := by
  cases types with
  | nil => cases declared
  | cons first others =>
      let entry : UsageText := ⟨false, base, some type.fullName, kind⟩
      have counts : Collected.referrer? (first :: others) first entry = some type :=
        good.get?_eq declared
      have kept : (Collected.alone profile imports file (first :: others) first entry).candidates ⊆
          (collectUsages profile imports file (first :: others)
            (before ++ entry :: after)).candidates := alone_subset_collectUsages new
      refine kept ?_
      rw [Collected.alone_candidates_of_unbound delimiter rfl counts segments unbound usable]
      refine List.mem_map.mpr ⟨_, ?_, rfl⟩
      simp only [unboundCandidates, entry, Text.join_split delimiter, List.mem_append,
        List.mem_cons, true_or]

/-! ## Direct relationships -/

theorem subset_addDirect (types : List DeclaredType) (known : List Relationship)
    (candidate : Candidate) : known ⊆ addDirect types known candidate := by
  unfold addDirect
  split
  · exact List.Subset.refl _
  · split
    · exact List.Subset.refl _
    · exact List.subset_append_left _ _

theorem subset_addAllDirect (types : List DeclaredType) (known : List Relationship)
    (candidates : List Candidate) : known ⊆ addAllDirect types known candidates :=
  List.foldlRecOn candidates _ (motive := (known ⊆ ·)) (List.Subset.refl _)
    fun later sofar candidate _ => List.Subset.trans sofar (subset_addDirect types later candidate)

/-- The ends of a candidate that are two known types are joined. -/
theorem exists_mem_addAllDirect {types : List DeclaredType} {candidates : List Candidate}
    {candidate : Candidate} (mem : candidate ∈ candidates) {new : Relationship}
    (found : relationshipOf? types candidate = some new) (known : List Relationship) :
    ∃ r ∈ addAllDirect types known candidates,
      r.fromName = new.fromName ∧ r.toName = new.toName := by
  obtain ⟨before, after, rfl⟩ := List.append_of_mem mem
  have split : addAllDirect types known (before ++ candidate :: after) =
      addAllDirect types (addDirect types (addAllDirect types known before) candidate) after := by
    simp only [addAllDirect, List.foldl_append, List.foldl_cons]
  rw [split]
  have joined : ∃ r ∈ addDirect types (addAllDirect types known before) candidate,
      r.fromName = new.fromName ∧ r.toName = new.toName := by
    simp only [addDirect, found]
    split
    · next there =>
      obtain ⟨r, memR, ends⟩ := List.mem_map.mp (areJoined_iff.mp there)
      exact ⟨r, memR, Prod.mk.inj ends⟩
    · exact ⟨new, by simp, rfl, rfl⟩
  obtain ⟨r, memR, ends⟩ := joined
  exact ⟨r, subset_addAllDirect types _ after memR, ends⟩

namespace Analyzer

variable {analyzer : Analyzer}

/-- A candidate for another declared type gives a relationship to it. -/
theorem Good.exists_relationship (good : analyzer.Good) {item : Path × FileCoupling}
    (mem : item ∈ analyzer.files) {candidate : Candidate}
    (collected : candidate ∈ item.2.candidates) {path : Path}
    (declares : analyzer.Declares path candidate.used)
    (different : candidate.used ≠ candidate.origin) :
    ∃ r ∈ analyzer.relationships, r.fromName = candidate.origin ∧ r.toName = candidate.used := by
  obtain ⟨_, type, memType, named⟩ := (good.files item mem).candidates candidate collected
  have declaresOrigin : analyzer.Declares item.1 candidate.origin :=
    ⟨item, mem, rfl, type, memType, named⟩
  obtain ⟨used, foundUsed⟩ := exists_typeNamed? declares
  obtain ⟨origin, foundOrigin⟩ := exists_typeNamed? declaresOrigin
  have found : ∃ new, relationshipOf? analyzer.types candidate = some new ∧
      new.fromName = candidate.origin ∧ new.toName = candidate.used := by
    simp only [relationshipOf?, if_neg different, foundUsed, foundOrigin]
    exact ⟨_, rfl, rfl, rfl⟩
  obtain ⟨new, found, fromName, toName⟩ := found
  have among : candidate ∈ analyzer.files.flatMap fun item => item.2.candidates :=
    List.mem_flatMap.mpr ⟨item, mem, collected⟩
  obtain ⟨r, memR, ends⟩ := exists_mem_addAllDirect among found []
  refine ⟨r, ?_, ends.1.trans fromName, ends.2.trans toName⟩
  rw [relationships_eq]
  exact List.mem_append_left _ memR

/-! ## Base names -/

/-- **Base types.**  Take a base name of a type of a collected file whose text was not noted
by the base names before it.  If it is usable and no import binds its first segment, and
if some file declares another type of that name in the namespace of the type, then a
relationship leads from the type to it. -/
theorem aggregate_extends_base [OwnGrammars] (reachable : analyzer.Reachable) {file : ParsedFile}
    {profile : Profile} {queries : Queries} (known : profile? file.language = some profile)
    (mem : (file.path, FileCoupling.ofFile profile queries file) ∈ analyzer.files)
    {type : DeclaredType} (declared : type ∈ declaredTypes profile queries file)
    {before after : List UsageText} {base : String} {kind : UsageKind}
    (entries : baseTexts (declaredTypes profile queries file) =
      before ++ ⟨false, base, some type.fullName, kind⟩ :: after)
    (new : bareText profile.delimiter base ∉
      (collectUsages profile (importsOf profile queries file) file.path
        (declaredTypes profile queries file) before).seen)
    (usable : isUnusable (cleanName profile.delimiter base) = false)
    {head : String} {rest : List String}
    (segments : cleanSegments profile.delimiter base = head :: rest)
    (unbound : boundBy? (importsOf profile queries file) head = none)
    {path : Path}
    (declares : analyzer.Declares path
      (qualified type.space profile.delimiter (cleanName profile.delimiter base)))
    (different : qualified type.space profile.delimiter (cleanName profile.delimiter base) ≠
      type.fullName) :
    ∃ r ∈ analyzer.aggregate.relationships, r.fromName = type.fullName ∧
      r.toName = qualified type.space profile.delimiter (cleanName profile.delimiter base) := by
  have collected : (⟨qualified type.space profile.delimiter (cleanName profile.delimiter base),
      type.fullName, file.path, kind⟩ : Candidate) ∈
      (FileCoupling.ofFile profile queries file).candidates := by
    simp only [FileCoupling.ofFile, usagesOf, entries, List.append_assoc, List.cons_append]
    exact base_mem_collectUsages (profile?_delimiter known)
      (declaredTypes_good profile queries file) declared new usable segments unbound
  exact reachable.good.exists_relationship mem collected declares different

end Analyzer

/-! ## A file of base types -/

namespace BaseTypes

open TwoFiles (node letter classOf declared)

def derivedClass (start : Nat) (bases : List Nat) (listStop stop : Nat) : Node :=
  node "class_declaration" start stop none
    [letter "name" (start + 6),
      node "base_list" (start + 8) listStop none
        (bases.map fun base => node "identifier" base (base + 1) none []),
      node "declaration_list" (listStop + 1) stop (some "body") []]

/-- Two classes with the same base type, of which the second has another one too. -/
def file : ParsedFile where
  path := ⟨"a.cs"⟩
  language := .csharp
  source := "class B { } class X : B { } class Y : B, X { }"
  root := node "compilation_unit" 0 46 none
    [classOf 0 11 [], derivedClass 12 [22] 23 27, derivedClass 28 [38, 41] 42 46]

def typeB : DeclaredType := declared "B" ⟨"a.cs"⟩ 0 11

def typeX : DeclaredType := { declared "X" ⟨"a.cs"⟩ 12 27 with implemented := ["B"] }

def typeY : DeclaredType := { declared "Y" ⟨"a.cs"⟩ 28 46 with implemented := ["B", "X"] }

def collected : FileCoupling where
  types := [typeB, typeX, typeY]
  accessors := []
  candidates := [("B", "X"), ("B", "X"), ("X", "Y"), ("X", "Y")].map fun ends =>
    ⟨ends.1, ends.2, ⟨"a.cs"⟩, .implementation⟩
  calls := []

theorem file_collected : FileCoupling.of? file = some collected := by
  simp only [FileCoupling.of?, FileCoupling.ofFile, declaredTypes, usagesOf, importsOf, accessorsOf,
    Query.captures, Query.matchesWithin, Query.allMatches_eq_insertionSort]
  decide +kernel

theorem ofFile_eq : FileCoupling.ofFile csharp csharpQueries file = collected :=
  Option.some.inj file_collected

theorem declaredTypes_eq : declaredTypes csharp csharpQueries file = [typeB, typeX, typeY] :=
  congrArg FileCoupling.types ofFile_eq

theorem importsOf_eq : importsOf csharp csharpQueries file = [] := by
  simp only [importsOf, Query.captures, Query.allMatches_eq_insertionSort]
  decide +kernel

def analyzer : Analyzer := ⟨[(⟨"a.cs"⟩, collected)]⟩

theorem reachable [OwnGrammars] : analyzer.Reachable := by
  have added : Analyzer.add {} file = analyzer := by
    simp only [Analyzer.add, file_collected]
    rfl
  rw [← added]
  exact Analyzer.Reachable.empty.add file

end BaseTypes

namespace Analyzer

open BaseTypes

attribute [local instance] sampleGrammars

theorem aggregate_extends_base_second :
    bareText "." "X" ∉ (collectUsages csharp [] ⟨"a.cs"⟩ [typeB, typeX, typeY]
        [⟨false, "B", some "X", .implementation⟩, ⟨false, "B", some "Y", .implementation⟩]).seen ∧
      BaseTypes.analyzer.Declares ⟨"a.cs"⟩ "X" ∧
      ∃ r ∈ BaseTypes.analyzer.aggregate.relationships, r.fromName = "Y" ∧ r.toName = "X" := by
  have mem : (file.path, FileCoupling.ofFile csharp csharpQueries file) ∈
      BaseTypes.analyzer.files := by
    rw [ofFile_eq]
    exact List.mem_singleton.mpr rfl
  have declared : typeY ∈ declaredTypes csharp csharpQueries file := by
    rw [declaredTypes_eq]
    decide
  have entries : baseTexts (declaredTypes csharp csharpQueries file) =
      [⟨false, "B", some "X", .implementation⟩, ⟨false, "B", some "Y", .implementation⟩] ++
        ⟨false, "X", some typeY.fullName, .implementation⟩ :: [] := by
    rw [declaredTypes_eq]
    decide
  have new : bareText "." "X" ∉ (collectUsages csharp [] ⟨"a.cs"⟩ [typeB, typeX, typeY]
      [⟨false, "B", some "X", .implementation⟩, ⟨false, "B", some "Y", .implementation⟩]).seen := by
    decide +kernel
  have usable : isUnusable (cleanName csharp.delimiter "X") = false := by decide +kernel
  have segments : cleanSegments csharp.delimiter "X" = ["X"] := by decide +kernel
  have unbound : boundBy? (importsOf csharp csharpQueries file) "X" = none := by
    rw [importsOf_eq]
    rfl
  have declares : BaseTypes.analyzer.Declares ⟨"a.cs"⟩
      (qualified typeY.space csharp.delimiter (cleanName csharp.delimiter "X")) := by
    decide +kernel
  have different : qualified typeY.space csharp.delimiter (cleanName csharp.delimiter "X") ≠
      typeY.fullName := by decide +kernel
  obtain ⟨r, memR, fromName, toName⟩ := aggregate_extends_base BaseTypes.reachable rfl mem declared
    entries (by rw [importsOf_eq, declaredTypes_eq]; exact new) usable segments unbound declares
    different
  refine ⟨new, by decide +kernel, r, memR, fromName.trans ?_, toName.trans ?_⟩
  · decide +kernel
  · decide +kernel

/-- A base name that an earlier type of the file has too leads nowhere. -/
theorem aggregate_passes_over_base :
    FileCoupling.of? file = some collected ∧ BaseTypes.analyzer.files = [(⟨"a.cs"⟩, collected)] ∧
      typeY ∈ collected.types ∧ "B" ∈ typeY.implemented ∧ isUnusable "B" = false ∧
      importsOf csharp csharpQueries file = [] ∧
      BaseTypes.analyzer.Declares ⟨"a.cs"⟩ (qualified typeY.space "." "B") ∧
      qualified typeY.space "." "B" ≠ typeY.fullName ∧
      ∀ r ∈ BaseTypes.analyzer.aggregate.relationships,
        r.fromName = typeY.fullName → r.toName ≠ qualified typeY.space "." "B" := by
  refine ⟨file_collected, rfl, by decide +kernel, by decide +kernel, by decide +kernel,
    importsOf_eq, by decide +kernel, by decide +kernel, ?_⟩
  decide +kernel

end Analyzer

end SourceGauge.Coupling
