/-
# SourceGauge.Proofs.Coupling.FurtherFile -- a further file takes no relationship away

A relationship is added when its ends are known and not joined yet, so what a further
file brings could change the others in two ways: by another declaration of a name that
they look up, or by a candidate that joins two of their types first.  A file that
declares none of their names does neither, since its candidates start at its own
types.  Wherever its path stands among theirs, it only adds relationships of which one
end is new.

* `direct_of_further_file`: the others are those that there were, in their order.
-/
import SourceGauge.Proofs.Coupling.JoinedOnce
import SourceGauge.Proofs.Coupling.LanguagesApart

namespace SourceGauge.Coupling

set_option autoImplicit false

/-! ## More types -/

def isDeclared (types : List DeclaredType) (fullName : String) : Bool :=
  (typeNamed? types fullName).isSome

def Relationship.isAmong (types : List DeclaredType) (r : Relationship) : Bool :=
  isDeclared types r.fromName && isDeclared types r.toName

/-- More types, in which the names of some are looked up as among those. -/
def LooksUp (more types : List DeclaredType) : Prop :=
  ∀ fullName, isDeclared types fullName = true →
    typeNamed? more fullName = typeNamed? types fullName

section

variable {more types : List DeclaredType}

theorem isDeclared_iff {fullName : String} :
    isDeclared types fullName = true ↔ ∃ type ∈ types, type.fullName = fullName := by
  rw [isDeclared, Option.isSome_iff_exists]
  constructor
  · rintro ⟨type, found⟩
    exact ⟨type, typeNamed?_some found⟩
  · rintro ⟨type, mem, named⟩
    cases found : typeNamed? types fullName with
    | some other => exact ⟨other, rfl⟩
    | none => exact absurd named (typeNamed?_none found type mem)

theorem LooksUp.refl (types : List DeclaredType) : LooksUp types types := fun _ _ => rfl

/-- Types of other names may stand anywhere among the types. -/
theorem LooksUp.insert {before between after : List DeclaredType}
    (fresh : ∀ type ∈ between, isDeclared (before ++ after) type.fullName = false) :
    LooksUp (before ++ (between ++ after)) (before ++ after) := by
  intro fullName declared
  have missing : typeNamed? between fullName = none := by
    cases found : typeNamed? between fullName with
    | none => rfl
    | some type =>
        obtain ⟨mem, named⟩ := typeNamed?_some found
        rw [← named, fresh type mem] at declared
        cases declared
  simp only [typeNamed?_append, missing, Option.or_none]

/-- The relationship of a candidate is the one among fewer types, or has an end that they do not
have. -/
theorem LooksUp.relationshipOf?_filter (agree : LooksUp more types) (candidate : Candidate) :
    (relationshipOf? more candidate).filter (·.isAmong types) =
      relationshipOf? types candidate := by
  by_cases loop : candidate.used = candidate.origin
  · simp [relationshipOf?, loop]
  by_cases known : isDeclared types candidate.used = true ∧
      isDeclared types candidate.origin = true
  · obtain ⟨used, origin⟩ := known
    have same : relationshipOf? more candidate = relationshipOf? types candidate := by
      simp only [relationshipOf?, agree _ used, agree _ origin]
    rw [same]
    cases found : relationshipOf? types candidate with
    | none => rfl
    | some new =>
        obtain ⟨_, _, _, _, _, rfl⟩ := relationshipOf?_some found
        exact Option.filter_some_pos (by simp [Relationship.isAmong, used, origin])
  · have nothing : relationshipOf? types candidate = none := by
      cases found : relationshipOf? types candidate with
      | none => rfl
      | some new =>
          obtain ⟨_, used, origin, foundUsed, foundOrigin, _⟩ := relationshipOf?_some found
          exact absurd ⟨by simp [isDeclared, foundUsed], by simp [isDeclared, foundOrigin]⟩ known
    rw [nothing, Option.filter_eq_none_iff]
    intro new found among
    obtain ⟨_, _, _, _, _, rfl⟩ := relationshipOf?_some found
    have ends := Bool.and_eq_true_iff.mp among
    exact known ⟨ends.2, ends.1⟩

/-- Whether two of the types are joined does not depend on relationships with other ends. -/
theorem areJoined_filter_isAmong (known : List Relationship) {r : Relationship}
    (among : r.isAmong types = true) :
    areJoined (known.filter (·.isAmong types)) r.fromName r.toName =
      areJoined known r.fromName r.toName := by
  refine areJoined_filter fun other _ fromName toName => ?_
  rwa [Relationship.isAmong, fromName, toName]

/-- Adding a candidate, seen among fewer types. -/
theorem LooksUp.addDirect_filter (agree : LooksUp more types) (known : List Relationship)
    (candidate : Candidate) :
    (addDirect more known candidate).filter (·.isAmong types) =
      addDirect types (known.filter (·.isAmong types)) candidate := by
  have seen := agree.relationshipOf?_filter candidate
  cases found : relationshipOf? more candidate with
  | none =>
      rw [found, Option.filter_none] at seen
      simp only [addDirect, found, ← seen]
  | some new =>
      cases among : new.isAmong types with
      | true =>
          rw [found, Option.filter_some_pos among] at seen
          simp only [addDirect, found, ← seen, areJoined_filter_isAmong known among]
          split
          · rfl
          · rw [List.filter_append, List.filter_cons_of_pos among, List.filter_nil]
      | false =>
          rw [found, Option.filter_some_neg (by simp [among])] at seen
          simp only [addDirect, found, ← seen]
          split
          · rfl
          · rw [List.filter_append, List.filter_cons_of_neg (by simp [among]), List.filter_nil,
              List.append_nil]

theorem LooksUp.addAllDirect_filter (agree : LooksUp more types) (known : List Relationship)
    (candidates : List Candidate) :
    (addAllDirect more known candidates).filter (·.isAmong types) =
      addAllDirect types (known.filter (·.isAmong types)) candidates := by
  induction candidates generalizing known with
  | nil => rfl
  | cons candidate rest ih =>
      exact (ih (addDirect more known candidate)).trans
        (congrArg (addAllDirect types · rest) (agree.addDirect_filter known candidate))

/-- Candidates of types that are not known add nothing. -/
theorem addAllDirect_of_unknown {candidates : List Candidate}
    (unknown : ∀ candidate ∈ candidates, isDeclared types candidate.origin = false)
    (known : List Relationship) : addAllDirect types known candidates = known := by
  refine List.foldlRecOn candidates _ (motive := (· = known)) rfl ?_
  rintro _ rfl candidate mem
  have missing : typeNamed? types candidate.origin = none := by
    simpa [isDeclared] using unknown candidate mem
  simp [addDirect, relationshipOf?, missing]

end

/-! ## One more file -/

namespace Analyzer

variable {analyzer : Analyzer}

theorem isDeclared_types_iff {fullName : String} :
    isDeclared analyzer.types fullName = true ↔ ∃ path, analyzer.Declares path fullName := by
  rw [isDeclared_iff]
  constructor
  · rintro ⟨type, mem, named⟩
    obtain ⟨item, memItem, declared⟩ := List.mem_flatMap.mp mem
    exact ⟨item.1, item, memItem, rfl, type, declared, named⟩
  · rintro ⟨_, item, mem, _, type, declared, named⟩
    exact ⟨type, List.mem_flatMap.mpr ⟨item, mem, declared⟩, named⟩

/-- All direct relationships are between declared types. -/
theorem direct_filter_isAmong (analyzer : Analyzer) :
    analyzer.direct.filter (·.isAmong analyzer.types) = analyzer.direct :=
  (LooksUp.refl analyzer.types).addAllDirect_filter [] _

theorem direct_insert_filter {path : Path} {coupling : FileCoupling} (good : coupling.Good path)
    (new : analyzer.files.find? path = none)
    (fresh : ∀ type ∈ coupling.types, isDeclared analyzer.types type.fullName = false) :
    (Analyzer.direct ⟨analyzer.files.insert path coupling⟩).filter (·.isAmong analyzer.types) =
      analyzer.direct := by
  obtain ⟨before, after, whole, inserted⟩ := PathMap.exists_insert_eq new coupling
  have types : analyzer.types =
      (before.flatMap fun item => item.2.types) ++ after.flatMap fun item => item.2.types := by
    rw [Analyzer.types, whole, List.flatMap_append]
  have agree : LooksUp (Analyzer.types ⟨analyzer.files.insert path coupling⟩) analyzer.types := by
    rw [types] at fresh ⊢
    simpa only [Analyzer.types, inserted, List.flatMap_append, List.flatMap_cons]
      using LooksUp.insert fresh
  have idle : ∀ candidate ∈ coupling.candidates,
      isDeclared analyzer.types candidate.origin = false := by
    intro candidate mem
    obtain ⟨_, type, memType, named⟩ := good.candidates candidate mem
    exact named ▸ fresh type memType
  calc (Analyzer.direct ⟨analyzer.files.insert path coupling⟩).filter (·.isAmong analyzer.types)
      = addAllDirect analyzer.types [] ((before ++ (path, coupling) :: after).flatMap
          fun item => item.2.candidates) := by
        rw [← inserted]
        exact agree.addAllDirect_filter [] _
    _ = addAllDirect analyzer.types (addAllDirect analyzer.types (addAllDirect analyzer.types []
          (before.flatMap fun item => item.2.candidates)) coupling.candidates)
          (after.flatMap fun item => item.2.candidates) := by
        simp only [addAllDirect, List.flatMap_append, List.flatMap_cons, List.foldl_append]
    _ = addAllDirect analyzer.types [] (analyzer.files.flatMap fun item => item.2.candidates) := by
        rw [addAllDirect_of_unknown idle, whole]
        simp only [addAllDirect, List.flatMap_append, List.foldl_append]

/-- **A further file takes no relationship away.**  Collect a file that declares no name which
the files before declare.  Of the direct relationships of all files together, those between
types of the files before are those that there were before, in the same order. -/
theorem direct_of_further_file [OwnGrammars] {file : ParsedFile}
    (fresh : ∀ type ∈ typesIn file, ∀ path, ¬ analyzer.Declares path type.fullName)
    {cache : Query.Cache} (sound : cache.Sound) :
    ∃ next, (analyzer.collect file cache).1 = .ok next ∧
      next.direct.filter (fun r => isDeclared analyzer.types r.fromName &&
        isDeclared analyzer.types r.toName) = analyzer.direct := by
  obtain ⟨_, collected, _⟩ := analyzer.collect_eq file sound
  refine ⟨analyzer.add file, by rw [collected], ?_⟩
  rcases analyzer.add_cases file with same | ⟨coupling, collectedAs, new, added⟩
  · rw [same]
    exact analyzer.direct_filter_isAmong
  · rw [added]
    refine direct_insert_filter (FileCoupling.of?_good collectedAs) new fun type mem => ?_
    have declared : type ∈ typesIn file := by
      rwa [typesIn, collectedAs]
    rw [Bool.eq_false_iff, Ne, isDeclared_types_iff]
    rintro ⟨path, declares⟩
    exact fresh type declared path declares

end Analyzer

/-! ## A file between two

The file declares `y.c`, which is looked up for the chain of the first file, and uses a class of
the last file. -/

namespace TwoFiles

/-- The file, between the two others in the order of paths. -/
def furtherFile : ParsedFile where
  path := ⟨"A1.cs"⟩
  language := .csharp
  source := "namespace y { class c { B b; } }"
  root := node "compilation_unit" 0 32 none
    [node "namespace_declaration" 0 32 none
      [letter "name" 10,
        node "declaration_list" 12 32 (some "body") [classOf 14 30 [member 24 28 []]]]]

def typeYC : DeclaredType := { declared "c" ⟨"A1.cs"⟩ 14 30 with space := "y" }

def further : FileCoupling where
  types := [typeYC]
  accessors := [⟨"b", "B", ⟨"A1.cs"⟩, "y.c.b", [typeYC]⟩]
  candidates := ["y.B", "B"].map fun used => ⟨used, "y.c", ⟨"A1.cs"⟩, .use⟩
  calls := []

theorem furtherFile_collected : FileCoupling.of? furtherFile = some further := by
  simp only [FileCoupling.of?, FileCoupling.ofFile, declaredTypes, usagesOf, importsOf, accessorsOf,
    Query.captures, Query.matchesWithin, Query.allMatches_eq_insertionSort]
  decide +kernel

end TwoFiles

namespace Analyzer

open TwoFiles

attribute [local instance] sampleGrammars

theorem direct_of_further_file_between :
    TwoFiles.analyzer.add furtherFile =
        ⟨[(⟨"A.cs"⟩, caller), (⟨"A1.cs"⟩, further), (⟨"B.cs"⟩, callee)]⟩ ∧
      (TwoFiles.analyzer.add furtherFile).direct =
        [uses typeA typeB, uses typeA typeYC, uses typeYC typeB, uses typeB typeC,
          uses typeB typeD] ∧
      ∃ next, (TwoFiles.analyzer.collect furtherFile {}).1 = .ok next ∧
        next.direct.filter (fun r => isDeclared TwoFiles.analyzer.types r.fromName &&
          isDeclared TwoFiles.analyzer.types r.toName) =
            [uses typeA typeB, uses typeB typeC, uses typeB typeD] := by
  have added : TwoFiles.analyzer.add furtherFile =
      ⟨[(⟨"A.cs"⟩, caller), (⟨"A1.cs"⟩, further), (⟨"B.cs"⟩, callee)]⟩ := by
    simp only [Analyzer.add, furtherFile_collected]
    rfl
  have fresh : ∀ type ∈ typesIn furtherFile, ∀ path,
      ¬ TwoFiles.analyzer.Declares path type.fullName := by
    intro type mem path declares
    rw [typesIn, furtherFile_collected] at mem
    have known := isDeclared_types_iff.mpr ⟨path, declares⟩
    rw [List.mem_singleton.mp mem] at known
    revert known
    decide +kernel
  refine ⟨added, by rw [added]; decide +kernel, ?_⟩
  rw [← direct_eq]
  exact direct_of_further_file fresh Query.Cache.sound_empty

end Analyzer

end SourceGauge.Coupling
