/-
# SourceGauge.Proofs.Coupling.LanguagesApart -- files of several languages together

Types are known by their full names, whatever the language that they are declared
in, and a type without a namespace by its bare name.  So a file of one language
can refer to a type of another when their full names happen to be equal
(`aggregate_joins_languages`).

Where that does not happen (`LanguagesApart`), the files of a language are a side
of their own, and collecting the files of a side alone leads to that side of what
collecting all files leads to (`addAll_onSide`).

* `aggregate_languages_apart`: each language then has the relationships that it has
  by itself, and none leads to another language.
-/
import SourceGauge.Proofs.Coupling.CollectionOrder
import SourceGauge.Proofs.Coupling.Sides

namespace SourceGauge.Coupling

set_option autoImplicit false

/-! ## Languages of files -/

/-- The types that a file declares, as far as they are collected. -/
def typesIn (file : ParsedFile) : List DeclaredType :=
  match FileCoupling.of? file with
  | some collected => collected.types
  | none => []

def namesUsedIn (file : ParsedFile) : List String :=
  match FileCoupling.of? file with
  | some collected => collected.candidates.map Candidate.used
  | none => []

def languageAt (files : List ParsedFile) (path : Path) : Option Language :=
  (files.find? fun file => file.path.same path).map ParsedFile.language

/-- A full name is declared, if at all, in files of one language only. -/
def DeclaredOnlyIn (files : List ParsedFile) (language : Language) (fullName : String) : Prop :=
  ∀ file ∈ files, ∀ type ∈ typesIn file, type.fullName = fullName → file.language = language

/-- No file may refer to a full name that a file of another language declares.  Two languages
may declare the same full name, if the type has the same name in both. -/
structure LanguagesApart (files : List ParsedFile) : Prop where
  path : ∀ f ∈ files, ∀ g ∈ files, f.path.same g.path = true → f.language = g.language
  used : ∀ f ∈ files, ∀ g ∈ files, f.language ≠ g.language →
    ∀ type ∈ typesIn g, type.fullName ∉ namesUsedIn f
  name : ∀ f ∈ files, ∀ g ∈ files, f.language ≠ g.language →
    ∀ type ∈ typesIn f, ∀ other ∈ typesIn g, type.fullName = other.fullName →
      type.name = other.name

theorem languageAt_congr {files : List ParsedFile} {p q : Path} (same : p.same q = true) :
    languageAt files p = languageAt files q := by
  have alike : (fun file : ParsedFile => file.path.same p) = fun file => file.path.same q := by
    funext file
    simp only [Path.same, Path.same_iff.mp same]
  rw [languageAt, languageAt, alike]

theorem LanguagesApart.languageAt_eq {files : List ParsedFile} (apart : LanguagesApart files)
    {file : ParsedFile} (mem : file ∈ files) :
    languageAt files file.path = some file.language := by
  rw [languageAt]
  cases found : files.find? fun other => other.path.same file.path with
  | none =>
      have missing := List.find?_eq_none.mp found file mem
      exact absurd (Path.same_refl file.path) missing
  | some other =>
      have same := List.find?_some found
      rw [Option.map_some, apart.path other (List.mem_of_find?_eq_some found) file mem same]

namespace Analyzer

/-! ## Collecting the files of one side -/

theorem sorted_add {analyzer : Analyzer} (sorted : analyzer.files.Sorted) (file : ParsedFile) :
    (analyzer.add file).files.Sorted := by
  rcases analyzer.add_cases file with same | ⟨coupling, _, new, added⟩
  · rwa [same]
  · rw [added]
    exact sorted.insert new

/-- Every entry was collected of one of the files. -/
theorem exists_of_mem_addAll {files : List ParsedFile} {item : Path × FileCoupling}
    (mem : item ∈ (addAll {} files).files) :
    ∃ file ∈ files, FileCoupling.of? file = some item.2 ∧ file.path = item.1 := by
  induction files using List.reverseRecOn with
  | nil => cases mem
  | append_singleton files file ih =>
      rw [addAll_concat, mem_add] at mem
      rcases mem with old | ⟨_, of, path⟩
      · obtain ⟨other, memOther, facts⟩ := ih old
        exact ⟨other, List.mem_append_left _ memOther, facts⟩
      · exact ⟨file, by simp, of, path⟩

variable {σ : Type} [DecidableEq σ] {side : Path → σ} {s : σ}

theorem mem_onSide {analyzer : Analyzer} {item : Path × FileCoupling} :
    item ∈ (analyzer.onSide side s).files ↔ item ∈ analyzer.files ∧ side item.1 = s := by
  simp [onSide]

/-- A path of the side is new to it exactly when it is new. -/
theorem find?_onSide_eq_none_iff (path : ∀ p q : Path, p.same q = true → side p = side q)
    (analyzer : Analyzer) {new : Path} (here : side new = s) :
    (analyzer.onSide side s).files.find? new = none ↔ analyzer.files.find? new = none := by
  simp only [PathMap.find?_eq_none_iff, mem_onSide]
  constructor
  · intro absent item mem
    by_contra there
    have same : new.same item.1 = true := by simpa using there
    exact there (absent item ⟨mem, (path _ _ same).symm.trans here⟩)
  · exact fun absent item mem => absent item mem.1

theorem add_onSide (path : ∀ p q : Path, p.same q = true → side p = side q) {analyzer : Analyzer}
    (sorted : analyzer.files.Sorted) {file : ParsedFile} (here : side file.path = s) :
    (analyzer.add file).onSide side s = (analyzer.onSide side s).add file := by
  have sortedSide : (analyzer.onSide side s).files.Sorted := sorted.filter _
  refine ext_of_sorted ((sorted_add sorted file).filter _) (sorted_add sortedSide file)
    fun item => ?_
  rw [mem_onSide, mem_add, mem_add, mem_onSide, find?_onSide_eq_none_iff path analyzer here]
  constructor
  · rintro ⟨old | added, there⟩
    · exact Or.inl ⟨old, there⟩
    · exact Or.inr added
  · rintro (old | added)
    · exact ⟨Or.inl old.1, old.2⟩
    · exact ⟨Or.inr added, added.2.2 ▸ here⟩

theorem add_elsewhere {analyzer : Analyzer} (sorted : analyzer.files.Sorted) {file : ParsedFile}
    (elsewhere : side file.path ≠ s) :
    (analyzer.add file).onSide side s = analyzer.onSide side s := by
  refine ext_of_sorted ((sorted_add sorted file).filter _) (sorted.filter _) fun item => ?_
  rw [mem_onSide, mem_onSide, mem_add]
  constructor
  · rintro ⟨old | ⟨_, _, located⟩, there⟩
    · exact ⟨old, there⟩
    · exact absurd (located ▸ there) elsewhere
  · exact fun old => ⟨Or.inl old.1, old.2⟩

/-- Collecting the files of one side is collecting all files and keeping that side. -/
theorem addAll_onSide (path : ∀ p q : Path, p.same q = true → side p = side q)
    {keep : ParsedFile → Bool} {files : List ParsedFile}
    (fits : ∀ file ∈ files, keep file = decide (side file.path = s)) :
    (addAll {} files).onSide side s = addAll {} (files.filter keep) := by
  induction files using List.reverseRecOn with
  | nil => rfl
  | append_singleton files file ih =>
      have before := ih fun other mem => fits other (List.mem_append_left _ mem)
      have last := fits file (by simp)
      rw [addAll_concat, List.filter_append]
      by_cases here : side file.path = s
      · rw [add_onSide path (Good.empty.addAll files).sorted here, before,
          List.filter_cons_of_pos (by simpa [last] using here), List.filter_nil, addAll_concat]
      · rw [add_elsewhere (Good.empty.addAll files).sorted here, before,
          List.filter_cons_of_neg (by simpa [last] using here), List.filter_nil, List.append_nil]

end Analyzer

/-! ## Languages -/

namespace LanguagesApart

variable {files : List ParsedFile} {item : Path × FileCoupling}

theorem collected (apart : LanguagesApart files) (mem : item ∈ (Analyzer.addAll {} files).files) :
    ∃ file ∈ files, languageAt files item.1 = some file.language ∧
      typesIn file = item.2.types ∧ namesUsedIn file = item.2.candidates.map Candidate.used := by
  obtain ⟨file, memFile, of, path⟩ := Analyzer.exists_of_mem_addAll mem
  refine ⟨file, memFile, path ▸ apart.languageAt_eq memFile, ?_, ?_⟩
  · simp only [typesIn, of]
  · simp only [namesUsedIn, of]

/-- A full name that is declared at a path is a type of a file in the language of the path. -/
theorem of_declares (apart : LanguagesApart files) {path : Path} {fullName : String}
    (declares : (Analyzer.addAll {} files).Declares path fullName) :
    ∃ file ∈ files, languageAt files path = some file.language ∧
      ∃ type ∈ typesIn file, type.fullName = fullName := by
  obtain ⟨item, mem, rfl, type, declared, named⟩ := declares
  obtain ⟨file, memFile, language, types, _⟩ := apart.collected mem
  exact ⟨file, memFile, language, type, types ▸ declared, named⟩

/-- Languages that are apart are sides that are apart. -/
theorem sides (apart : LanguagesApart files) :
    (Analyzer.addAll {} files).Apart (languageAt files) where
  path _ _ same := languageAt_congr same
  used := by
    intro item mem candidate collected path declares
    obtain ⟨f, memF, languageF, _, namesF⟩ := apart.collected mem
    obtain ⟨g, memG, languageG, type, declared, named⟩ := apart.of_declares declares
    rw [languageF, languageG]
    by_contra different
    refine apart.used f memF g memG (fun same => different (by rw [same])) type declared ?_
    rw [namesF, named]
    exact List.mem_map_of_mem collected
  name := by
    intro type mem other memOther different same
    have good := Analyzer.Good.empty.addAll files
    obtain ⟨item, memItem, declared⟩ := List.mem_flatMap.mp mem
    obtain ⟨item', memItem', declared'⟩ := List.mem_flatMap.mp memOther
    obtain ⟨f, memF, languageF, typesF, _⟩ := apart.collected memItem
    obtain ⟨g, memG, languageG, typesG, _⟩ := apart.collected memItem'
    rw [(good.files item memItem).types.file_eq type declared,
      (good.files item' memItem').types.file_eq other declared', languageF, languageG] at different
    exact apart.name f memF g memG (fun same => different (by rw [same])) type (typesF ▸ declared)
      other (typesG ▸ declared') same

end LanguagesApart

namespace Analyzer

/-- **Languages that do not refer to each other stay apart.**  Collecting files of several
languages succeeds, and so does collecting those of one language.  The relationships that
leave the files of the language are the same, in the same order, and no relationship joins a
type declared only in the one language with a type declared only in another. -/
theorem aggregate_languages_apart [OwnGrammars] {files : List ParsedFile}
    (apart : LanguagesApart files)
    {cache otherCache : Query.Cache} (sound : cache.Sound) (otherSound : otherCache.Sound)
    (language : Language) :
    ∃ all one : Analyzer, (collectAll {} cache files).1 = .ok all ∧
      (collectAll {} otherCache (files.filter fun file => file.language = language)).1 = .ok one ∧
      (all.aggregate.relationships.filter fun r => languageAt files r.fromFile = some language) =
        one.aggregate.relationships ∧
      ∀ r ∈ all.aggregate.relationships, ∀ other, DeclaredOnlyIn files language r.fromName →
        DeclaredOnlyIn files other r.toName → language = other := by
  obtain ⟨_, whole, _⟩ := collectAll_eq {} sound files
  obtain ⟨_, part, _⟩ :=
    collectAll_eq {} otherSound (files.filter fun file => file.language = language)
  have good := Good.empty.addAll files
  have fits : ∀ file ∈ files, decide (file.language = language) =
      decide (languageAt files file.path = some language) := fun file mem => by
    simp [apart.languageAt_eq mem]
  refine ⟨_, _, by rw [whole], by rw [part], ?_, ?_⟩
  · rw [← addAll_onSide (fun _ _ => languageAt_congr) fits]
    exact apart.sides.relationships_onSide good
  · intro r mem other onlyFrom onlyTo
    have ends := good.grown_declaredEnds (relationships_grown _) r mem
    obtain ⟨target, prevails, _⟩ := ends.target
    have stays := apart.sides.grown_stays good (relationships_grown _) r mem target.file
      prevails.declares
    obtain ⟨f, memF, languageF, type, declared, named⟩ := apart.of_declares ends.leaves
    obtain ⟨g, memG, languageG, used, declaredUsed, namedUsed⟩ :=
      apart.of_declares prevails.declares
    rw [languageF, languageG] at stays
    calc language = f.language := (onlyFrom f memF type declared named).symm
      _ = g.language := (Option.some.inj stays).symm
      _ = other := onlyTo g memG used declaredUsed namedUsed

end Analyzer

/-! ## Files of two languages -/

namespace TwoLanguages

open TwoFiles (node letter member classOf declared)

def phpName (field : Option String) (start : Nat) : Node := node "name" start (start + 1) field []

def phpClass (start stop : Nat) (members : List Node) : Node :=
  node "class_declaration" start stop none
    [phpName (some "name") (start + 6),
      node "declaration_list" (start + 8) stop (some "body") members]

/-- A file with a class of the same name as one of another language. -/
def phpFile : ParsedFile where
  path := ⟨"C.php"⟩
  language := .php
  source := "<?php class A { public E $e; } class E { }"
  root := node "program" 0 42 none
    [node "php_tag" 0 5 none [],
      phpClass 6 30 [node "property_declaration" 16 28 none
        [node "visibility_modifier" 16 22 none [],
          node "named_type" 23 24 (some "type") [phpName none 23],
          node "property_element" 25 27 none
            [node "variable_name" 25 27 (some "name") [phpName none 26]]]],
      phpClass 31 42 []]

def phpType (name : String) (file : Path) (start stop : Nat) : DeclaredType :=
  { declared name file start stop with delimiter := "\\" }

theorem phpFile_collected : FileCoupling.of? phpFile = some
    { types := [phpType "A" ⟨"C.php"⟩ 6 30, phpType "E" ⟨"C.php"⟩ 31 42]
      accessors := []
      candidates := ["E", "E"].map fun used => ⟨used, "A", ⟨"C.php"⟩, .use⟩
      calls := [] } := by
  simp only [FileCoupling.of?, FileCoupling.ofFile, declaredTypes, usagesOf, importsOf, accessorsOf,
    Query.captures, Query.matchesWithin, Query.allMatches_eq_insertionSort]
  decide +kernel

/-- Files of two languages with a class of the same name, neither of which refers to the other. -/
theorem languagesApart :
    LanguagesApart [TwoFiles.callerFile, phpFile, TwoFiles.calleeFile] := by
  refine ⟨by decide +kernel, ?_, ?_⟩
  all_goals
    simp only [List.mem_cons, List.not_mem_nil, or_false, forall_eq_or_imp, forall_eq, typesIn,
      namesUsedIn, TwoFiles.callerFile_collected, TwoFiles.calleeFile_collected, phpFile_collected,
      TwoFiles.caller, TwoFiles.callee]
    and_intros <;> decide +kernel

def fieldFile : ParsedFile where
  path := ⟨"a.cs"⟩
  language := .csharp
  source := "class A { B b; }"
  root := node "compilation_unit" 0 16 none [classOf 0 16 [member 10 14 []]]

def classFile : ParsedFile where
  path := ⟨"b.php"⟩
  language := .php
  source := "<?php class B { }"
  root := node "program" 0 17 none [node "php_tag" 0 5 none [], phpClass 6 17 []]

def fieldType : DeclaredType := declared "A" ⟨"a.cs"⟩ 0 16

def classType : DeclaredType := phpType "B" ⟨"b.php"⟩ 6 17

def field : FileCoupling where
  types := [fieldType]
  accessors := [⟨"b", "B", ⟨"a.cs"⟩, "A.b", [fieldType]⟩]
  candidates := ["B", "B"].map fun used => ⟨used, "A", ⟨"a.cs"⟩, .use⟩
  calls := []

theorem fieldFile_collected : FileCoupling.of? fieldFile = some field := by
  simp only [FileCoupling.of?, FileCoupling.ofFile, declaredTypes, usagesOf, importsOf, accessorsOf,
    Query.captures, Query.matchesWithin, Query.allMatches_eq_insertionSort]
  decide +kernel

theorem classFile_collected : FileCoupling.of? classFile = some ⟨[classType], [], [], []⟩ := by
  simp only [FileCoupling.of?, FileCoupling.ofFile, declaredTypes, usagesOf, importsOf, accessorsOf,
    Query.captures, Query.matchesWithin, Query.allMatches_eq_insertionSort]
  decide +kernel

end TwoLanguages

namespace Analyzer

attribute [local instance] sampleGrammars

theorem aggregate_languages_apart_same_name :
    LanguagesApart [TwoFiles.callerFile, TwoLanguages.phpFile, TwoFiles.calleeFile] ∧
      ∃ all one : Analyzer,
        (collectAll {} {} [TwoFiles.callerFile, TwoLanguages.phpFile, TwoFiles.calleeFile]).1 =
          .ok all ∧
        (collectAll {} {} [TwoFiles.callerFile, TwoFiles.calleeFile]).1 = .ok one ∧
        (all.aggregate.relationships.filter fun r =>
            languageAt [TwoFiles.callerFile, TwoLanguages.phpFile, TwoFiles.calleeFile]
              r.fromFile = some .csharp) =
          one.aggregate.relationships := by
  obtain ⟨all, one, whole, part, same, _⟩ := aggregate_languages_apart TwoLanguages.languagesApart
    Query.Cache.sound_empty Query.Cache.sound_empty .csharp
  exact ⟨TwoLanguages.languagesApart, all, one, whole, part, same⟩

/-- A file refers to a type of another language that has the full name of what it uses. -/
theorem aggregate_joins_languages :
    DeclaredOnlyIn [TwoLanguages.fieldFile, TwoLanguages.classFile] .csharp "A" ∧
      DeclaredOnlyIn [TwoLanguages.fieldFile, TwoLanguages.classFile] .php "B" ∧
      ∃ all one : Analyzer,
        (collectAll {} {} [TwoLanguages.fieldFile, TwoLanguages.classFile]).1 = .ok all ∧
        (collectAll {} {} [TwoLanguages.fieldFile]).1 = .ok one ∧
        all.aggregate.relationships =
          [TwoFiles.uses TwoLanguages.fieldType TwoLanguages.classType] ∧
        one.aggregate.relationships = [] := by
  obtain ⟨_, whole, _⟩ := collectAll_eq {} Query.Cache.sound_empty
    [TwoLanguages.fieldFile, TwoLanguages.classFile]
  obtain ⟨_, part, _⟩ := collectAll_eq {} Query.Cache.sound_empty [TwoLanguages.fieldFile]
  have both : addAll {} [TwoLanguages.fieldFile, TwoLanguages.classFile] =
      ⟨[(⟨"a.cs"⟩, TwoLanguages.field),
        (⟨"b.php"⟩, ⟨[TwoLanguages.classType], [], [], []⟩)]⟩ := by
    simp only [addAll, List.foldl_cons, List.foldl_nil, add, TwoLanguages.fieldFile_collected,
      TwoLanguages.classFile_collected]
    rfl
  have alone : addAll {} [TwoLanguages.fieldFile] = ⟨[(⟨"a.cs"⟩, TwoLanguages.field)]⟩ := by
    simp only [addAll, List.foldl_cons, List.foldl_nil, add, TwoLanguages.fieldFile_collected]
    rfl
  refine ⟨?_, ?_, _, _, by rw [whole], by rw [part], ?_, ?_⟩
  · simp only [DeclaredOnlyIn, List.mem_cons, List.not_mem_nil, or_false, forall_eq_or_imp,
      forall_eq, typesIn, TwoLanguages.fieldFile_collected, TwoLanguages.classFile_collected]
    decide +kernel
  · simp only [DeclaredOnlyIn, List.mem_cons, List.not_mem_nil, or_false, forall_eq_or_imp,
      forall_eq, typesIn, TwoLanguages.fieldFile_collected, TwoLanguages.classFile_collected]
    decide +kernel
  · rw [both]
    decide +kernel
  · rw [alone]
    decide +kernel

end Analyzer

end SourceGauge.Coupling
