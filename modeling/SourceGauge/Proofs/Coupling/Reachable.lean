/-
# SourceGauge.Proofs.Coupling.Reachable -- analyzers that files were collected by

An analyzer is `Reachable` when collecting files, one after the other, leads to
it.  Its files then stand in the order of their paths, one for each path, and
each is what its file was collected as (`Reachable.good`).

A full name may be declared in several files.  The declaration that `Prevails`
is the one in the file of the greatest path, and it is the one that a look-up
finds (`typeNamed?_prevails`).
-/
import SourceGauge.Proofs.Coupling.CollectedFile
import SourceGauge.Proofs.Coupling.Compiled
import SourceGauge.Proofs.Path.Order

namespace SourceGauge.Coupling

set_option autoImplicit false

theorem FileCoupling.of?_good {file : ParsedFile} {coupling : FileCoupling}
    (collected : FileCoupling.of? file = some coupling) : coupling.Good file.path := by
  unfold of? at collected
  split at collected
  · next profile queries _ _ =>
    cases collected
    exact ofFile_good profile queries file
  · cases collected

namespace Analyzer

/-- The analyzers that collecting files leads to, each file with any cache of
compiled queries. -/
inductive Reachable [Grammars] : Analyzer → Prop
  | empty : Reachable {}
  | collect {analyzer next : Analyzer} {file : ParsedFile} {cache : Query.Cache} :
      Reachable analyzer → cache.Sound → (analyzer.collect file cache).1 = .ok next →
      Reachable next

theorem Reachable.add [OwnGrammars] {analyzer : Analyzer} (reachable : analyzer.Reachable)
    (file : ParsedFile) : (analyzer.add file).Reachable := by
  obtain ⟨_, collected, _⟩ := analyzer.collect_eq file Query.Cache.sound_empty
  exact reachable.collect Query.Cache.sound_empty (by rw [collected])

/-- Files in the order of their paths, each collected as it should be. -/
structure Good (analyzer : Analyzer) : Prop where
  sorted : analyzer.files.Sorted
  files : ∀ item ∈ analyzer.files, item.2.Good item.1

theorem Good.empty : Good {} :=
  ⟨PathMap.sorted_nil, fun _ mem => (List.not_mem_nil mem).elim⟩

theorem Good.add {analyzer : Analyzer} (good : analyzer.Good) (file : ParsedFile) :
    (analyzer.add file).Good := by
  rcases analyzer.add_cases file with same | ⟨coupling, collectedAs, new, added⟩
  · rwa [same]
  · rw [added]
    refine ⟨good.sorted.insert new, ?_⟩
    intro item mem
    rcases (PathMap.mem_insert_of_find?_none new item).mp mem with rfl | old
    · exact FileCoupling.of?_good collectedAs
    · exact good.files item old

theorem Reachable.good [OwnGrammars] {analyzer : Analyzer} (reachable : analyzer.Reachable) :
    analyzer.Good := by
  induction reachable with
  | empty => exact .empty
  | @collect analyzer next file cache _ sound collected ih =>
      rw [add_of_collect sound collected]
      exact ih.add file

/-- Every entry is what a file of its path is collected as. -/
theorem Reachable.exists_file [OwnGrammars] {analyzer : Analyzer} (reachable : analyzer.Reachable)
    {item : Path × FileCoupling} (mem : item ∈ analyzer.files) :
    ∃ file : ParsedFile, FileCoupling.of? file = some item.2 ∧ file.path = item.1 := by
  induction reachable with
  | empty => cases mem
  | @collect analyzer next file cache _ sound collected ih =>
      rw [add_of_collect sound collected] at mem
      rcases analyzer.add_cases file with same | ⟨coupling, collectedAs, new, added⟩
      · rw [same] at mem
        exact ih mem
      · rw [added] at mem
        rcases (PathMap.mem_insert_of_find?_none new item).mp mem with rfl | old
        · exact ⟨file, collectedAs, rfl⟩
        · exact ih old

/-- A path names one collected file. -/
theorem Good.eq_of_path {analyzer : Analyzer} (good : analyzer.Good)
    {a b : Path × FileCoupling} (memA : a ∈ analyzer.files) (memB : b ∈ analyzer.files)
    (same : a.1 = b.1) : a = b :=
  good.sorted.eq_of_same memA memB (same ▸ Path.same_refl a.1)

/-! ## Declarations -/

/-- A type of a full name is declared in the file at a path. -/
def Declares (analyzer : Analyzer) (path : Path) (fullName : String) : Prop :=
  ∃ item ∈ analyzer.files, item.1 = path ∧ ∃ type ∈ item.2.types, type.fullName = fullName

/-- The full names that are declared, each with its path. -/
def declarations (analyzer : Analyzer) : List (Path × String) :=
  analyzer.files.flatMap fun item => item.2.types.map fun type => (item.1, type.fullName)

theorem declares_iff {analyzer : Analyzer} {path : Path} {fullName : String} :
    analyzer.Declares path fullName ↔ (path, fullName) ∈ analyzer.declarations := by
  simp only [Declares, declarations, List.mem_flatMap, List.mem_map, Prod.mk.injEq]
  constructor
  · rintro ⟨item, mem, here, type, declared, named⟩
    exact ⟨item, mem, type, declared, here, named⟩
  · rintro ⟨item, mem, type, declared, here, named⟩
    exact ⟨item, mem, here, type, declared, named⟩

instance (analyzer : Analyzer) (path : Path) (fullName : String) :
    Decidable (analyzer.Declares path fullName) :=
  decidable_of_iff _ declares_iff.symm

/-- A type is the declaration of a full name in the greatest path of those that
declare it. -/
structure Prevails (analyzer : Analyzer) (fullName : String) (type : DeclaredType) : Prop where
  named : type.fullName = fullName
  declared : ∃ item ∈ analyzer.files, item.1 = type.file ∧ type ∈ item.2.types
  greatest : ∀ path, analyzer.Declares path fullName → path = type.file ∨ path.lt type.file = true

theorem Prevails.declares {analyzer : Analyzer} {fullName : String} {type : DeclaredType}
    (prevails : analyzer.Prevails fullName type) : analyzer.Declares type.file fullName := by
  obtain ⟨item, mem, here, declared⟩ := prevails.declared
  exact ⟨item, mem, here, type, declared, prevails.named⟩

end Analyzer

theorem typeNamed?_append (types others : List DeclaredType) (fullName : String) :
    typeNamed? (types ++ others) fullName =
      (typeNamed? others fullName).or (typeNamed? types fullName) := by
  simp [typeNamed?]

theorem typeNamed?_some {types : List DeclaredType} {fullName : String} {type : DeclaredType}
    (found : typeNamed? types fullName = some type) : type ∈ types ∧ type.fullName = fullName := by
  have mem := List.mem_of_find?_eq_some found
  have named := List.find?_some found
  exact ⟨List.mem_reverse.mp mem, by simpa using named⟩

theorem typeNamed?_none {types : List DeclaredType} {fullName : String}
    (missing : typeNamed? types fullName = none) : ∀ type ∈ types, type.fullName ≠ fullName := by
  intro type mem
  simpa using List.find?_eq_none.mp missing type (List.mem_reverse.mpr mem)

/-- In files in increasing order of path, the last declaration of a full name is
in the greatest path that declares it. -/
theorem typeNamed?_last {files : PathMap FileCoupling} (sorted : files.Sorted) {fullName : String}
    {type : DeclaredType}
    (found : typeNamed? (files.flatMap fun item => item.2.types) fullName = some type) :
    ∃ item ∈ files, type ∈ item.2.types ∧
      ∀ other ∈ files, (∃ declared ∈ other.2.types, declared.fullName = fullName) →
        other.1 = item.1 ∨ other.1.lt item.1 = true := by
  induction sorted with
  | nil => cases found
  | @cons head rest before _ ih =>
      rw [List.flatMap_cons, typeNamed?_append] at found
      cases later : typeNamed? (rest.flatMap fun item => item.2.types) fullName with
      | some other =>
          rw [later, Option.some_or, Option.some.injEq] at found
          subst found
          obtain ⟨item, mem, declared, greatest⟩ := ih later
          refine ⟨item, List.mem_cons_of_mem _ mem, declared, ?_⟩
          intro other memOther declares
          rcases List.mem_cons.mp memOther with rfl | memRest
          · exact Or.inr (before item mem)
          · exact greatest other memRest declares
      | none =>
          rw [later, Option.none_or] at found
          refine ⟨head, List.mem_cons_self, (typeNamed?_some found).1, ?_⟩
          rintro other memOther ⟨declared, memDeclared, named⟩
          rcases List.mem_cons.mp memOther with rfl | memRest
          · exact Or.inl rfl
          · have among : declared ∈ rest.flatMap fun item => item.2.types :=
              List.mem_flatMap.mpr ⟨other, memRest, memDeclared⟩
            exact absurd named (typeNamed?_none later declared among)

namespace Analyzer

theorem Good.declares_type {analyzer : Analyzer} (good : analyzer.Good) {type : DeclaredType}
    (mem : type ∈ analyzer.types) : analyzer.Declares type.file type.fullName := by
  obtain ⟨item, memItem, declared⟩ := List.mem_flatMap.mp mem
  exact ⟨item, memItem, ((good.files item memItem).types.file_eq type declared).symm, type,
    declared, rfl⟩

/-- A look-up finds a full name that is declared. -/
theorem exists_typeNamed? {analyzer : Analyzer} {path : Path} {fullName : String}
    (declares : analyzer.Declares path fullName) :
    ∃ type, typeNamed? analyzer.types fullName = some type := by
  obtain ⟨item, mem, _, type, declared, named⟩ := declares
  cases found : typeNamed? analyzer.types fullName with
  | some type => exact ⟨type, rfl⟩
  | none =>
      exact absurd named (typeNamed?_none found type (List.mem_flatMap.mpr ⟨item, mem, declared⟩))

/-- A look-up finds the declaration that prevails. -/
theorem Good.typeNamed?_prevails {analyzer : Analyzer} (good : analyzer.Good) {fullName : String}
    {type : DeclaredType} (found : typeNamed? analyzer.types fullName = some type) :
    analyzer.Prevails fullName type := by
  obtain ⟨item, mem, declared, greatest⟩ := typeNamed?_last good.sorted found
  have here : type.file = item.1 := (good.files item mem).types.file_eq type declared
  refine ⟨(typeNamed?_some found).2, ⟨item, mem, here.symm, declared⟩, ?_⟩
  rintro path ⟨other, memOther, rfl, declares⟩
  rw [here]
  exact greatest other memOther declares

end Analyzer

namespace TwoFiles

/-- Both files, collected. -/
def analyzer : Analyzer := ⟨[(⟨"A.cs"⟩, caller), (⟨"B.cs"⟩, callee)]⟩

theorem reachable [OwnGrammars] : analyzer.Reachable := by
  have both : (Analyzer.add {} callerFile).add calleeFile = analyzer := by
    simp only [Analyzer.add, callerFile_collected, calleeFile_collected]
    rfl
  rw [← both]
  exact (Analyzer.Reachable.empty.add callerFile).add calleeFile

/-- A use of one of the classes by another. -/
def uses (origin target : DeclaredType) : Relationship where
  fromName := origin.fullName
  toName := target.fullName
  fromFile := origin.file
  toFile := target.file
  fromType := origin.name
  toType := target.name
  kind := .use

theorem direct_eq : analyzer.direct = [uses typeA typeB, uses typeB typeC, uses typeB typeD] := by
  decide +kernel

end TwoFiles

end SourceGauge.Coupling
