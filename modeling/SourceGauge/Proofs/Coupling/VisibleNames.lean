/-
# SourceGauge.Proofs.Coupling.VisibleNames -- the types that a name shows

A name that no import binds may stand for several full names, and `Shows` says for which:
the name as it is, the name in the namespace where it is used or in one around that, and
in C# the name in an imported namespace.  The look-up tries these, and in C# also the
leading segments of the name in an imported namespace, since a chain of members may go on
past the name of a type (`ShowsPart`); it tries no others (`mem_unboundCandidates_iff`).

* `aggregate_shows_names`: each declared type that a name shows is joined, exactly once,
  with the type that the name counts for.
-/
import SourceGauge.Proofs.Coupling.BaseNames
import SourceGauge.Proofs.Coupling.UseOrder
import SourceGauge.Proofs.Text.Split

namespace SourceGauge.Coupling

set_option autoImplicit false

/-! ## What a name shows -/

/-- The full names that a name stands for where it is used in a namespace. -/
inductive Shows (language : Language) (delimiter : String) (imports : List Import)
    (space name : String) : String → Prop
  | itself : Shows language delimiter imports space name name
  | inside : Shows language delimiter imports space name (qualified space delimiter name)
  /-- In a namespace around the one of the use. -/
  | around {outer inner : String} : space = outer ++ delimiter ++ inner →
      Shows language delimiter imports space name (outer ++ delimiter ++ name)
  | imported {declared : Import} : language = .csharp → declared ∈ imports →
      Shows language delimiter imports space name (declared.fullName ++ delimiter ++ name)

/-- A full name is some leading segments of the name, though not all, in a namespace that is
imported in C#. -/
def ShowsPart (language : Language) (delimiter : String) (imports : List Import)
    (name fullName : String) : Prop :=
  language = .csharp ∧ ∃ declared ∈ imports, ∃ part rest,
    name = part ++ delimiter ++ rest ∧ fullName = declared.fullName ++ delimiter ++ part

/-! ## Beginnings of a list -/

theorem mem_properInits {parts part : List String} :
    part ∈ properInits parts ↔ ∃ n, n + 1 < parts.length ∧ parts.take (n + 1) = part := by
  simp only [properInits, List.mem_map, List.mem_reverse, List.mem_range]
  constructor
  · rintro ⟨n, less, taken⟩
    exact ⟨n, by omega, taken⟩
  · rintro ⟨n, less, taken⟩
    exact ⟨n, by omega, taken⟩

theorem inits_eq_cons {parts : List String} (some : parts ≠ []) :
    inits parts = parts :: properInits parts := by
  obtain ⟨last, length⟩ : ∃ last, parts.length = last + 1 :=
    ⟨parts.length - 1, by have := List.length_pos_iff.mpr some; omega⟩
  simp only [inits, properInits, length, List.range_succ, List.reverse_append,
    List.reverse_singleton, List.singleton_append, List.map_cons, Nat.add_sub_cancel]
  rw [← length, List.take_length]

theorem mem_join_properInits {delimiter : String} {c : Char} (one : delimiter.toList = [c])
    {s before : String} :
    (∃ part ∈ properInits (Text.split delimiter s), Text.join delimiter part = before) ↔
      ∃ after, s = before ++ delimiter ++ after := by
  rw [← Text.exists_take_split_iff one]
  constructor
  · rintro ⟨part, mem, joined⟩
    obtain ⟨n, proper, rfl⟩ := mem_properInits.mp mem
    exact ⟨n, proper, joined⟩
  · rintro ⟨n, proper, joined⟩
    exact ⟨_, mem_properInits.mpr ⟨n, proper, rfl⟩, joined⟩

/-! ## What the look-up tries -/

/-- The delimiters of the profiles are single characters, and only C# opens the namespaces that
it imports, where names and members are joined alike. -/
theorem profile?_rules {language : Language} {profile : Profile}
    (known : profile? language = some profile) :
    (∃ c, profile.delimiter.toList = [c]) ∧
      (language = .csharp ∧ profile.importsOpenNamespaces = true ∧ profile.chainsMembers = true ∨
        language ≠ .csharp ∧ profile.importsOpenNamespaces = false) := by
  cases language with
  | csharp =>
      cases known
      exact ⟨⟨'.', by decide⟩, Or.inl ⟨rfl, rfl, by decide⟩⟩
  | php =>
      cases known
      exact ⟨⟨'\\', by decide⟩, Or.inr ⟨by decide, rfl⟩⟩
  | _ => cases known

/-- The three sources of names: the namespace of the use, in C# the imports, and the namespaces
around. -/
theorem mem_unboundCandidates {language : Language} {profile : Profile}
    (known : profile? language = some profile) {imports : List Import} {space fullName : String}
    {parts : List String} :
    fullName ∈ unboundCandidates profile imports space parts ↔
      (fullName = qualified space profile.delimiter (Text.join profile.delimiter parts) ∨
        fullName = Text.join profile.delimiter parts) ∨
      (language = .csharp ∧ ∃ declared ∈ imports, ∃ part ∈ inits parts,
        declared.fullName ++ profile.delimiter ++ Text.join profile.delimiter part = fullName) ∨
      ∃ part ∈ properInits (Text.split profile.delimiter space),
        Text.join profile.delimiter part ++ profile.delimiter ++
          Text.join profile.delimiter parts = fullName := by
  rcases (profile?_rules known).2 with ⟨csharp, opens, chains⟩ | ⟨other, closed⟩
  · simp [unboundCandidates, csharp, opens, chains, or_assoc]
  · simp [unboundCandidates, other, closed, or_assoc]

/-- The names that an unbound name is looked up as are those that it shows, and in C# those of
its leading segments. -/
theorem mem_unboundCandidates_iff {language : Language} {profile : Profile}
    (known : profile? language = some profile) {imports : List Import}
    {space name fullName : String} :
    fullName ∈ unboundCandidates profile imports space (Text.split profile.delimiter name) ↔
      Shows language profile.delimiter imports space name fullName ∨
        ShowsPart language profile.delimiter imports name fullName := by
  obtain ⟨c, one⟩ := (profile?_rules known).1
  have all := inits_eq_cons (Text.split_ne_nil profile.delimiter name)
  rw [mem_unboundCandidates known, Text.join_split (profile?_delimiter known), all]
  constructor
  · rintro ((rfl | rfl) | ⟨csharp, declared, mem, part, memPart, rfl⟩ | ⟨part, memPart, rfl⟩)
    · exact Or.inl .inside
    · exact Or.inl .itself
    · rcases List.mem_cons.mp memPart with rfl | proper
      · rw [Text.join_split (profile?_delimiter known)]
        exact Or.inl (.imported csharp mem)
      · obtain ⟨rest, whole⟩ := (mem_join_properInits one).mp ⟨part, proper, rfl⟩
        exact Or.inr ⟨csharp, declared, mem, _, rest, whole, rfl⟩
    · obtain ⟨inner, whole⟩ := (mem_join_properInits one).mp ⟨part, memPart, rfl⟩
      exact Or.inl (.around whole)
  · rintro (shows | ⟨csharp, declared, mem, part, rest, whole, rfl⟩)
    · cases shows with
      | itself => exact Or.inl (Or.inr rfl)
      | inside => exact Or.inl (Or.inl rfl)
      | @around outer inner whole =>
          obtain ⟨part, proper, rfl⟩ := (mem_join_properInits one).mpr ⟨inner, whole⟩
          exact Or.inr (Or.inr ⟨part, proper, rfl⟩)
      | @imported declared csharp mem =>
          refine Or.inr (Or.inl ⟨csharp, declared, mem, _, List.mem_cons_self, ?_⟩)
          rw [Text.join_split (profile?_delimiter known)]
    · obtain ⟨segments, proper, rfl⟩ := (mem_join_properInits one).mpr ⟨rest, whole⟩
      exact Or.inr (Or.inl ⟨csharp, declared, mem, segments, List.mem_cons_of_mem _ proper, rfl⟩)

/-! ## The texts of a file -/

/-- The texts that are looked up in a file: the base names of its types, then its uses. -/
def textsOf (profile : Profile) (queries : Queries) (file : ParsedFile) : List UsageText :=
  baseTexts (declaredTypes profile queries file) ++ usesIn queries file

theorem of_mem_usesIn {queries : Queries} {file : ParsedFile} {entry : UsageText}
    (mem : entry ∈ usesIn queries file) : entry.owner = none ∧ entry.kind = .use := by
  obtain ⟨capture, _, told⟩ := List.mem_filterMap.mp mem
  split at told
  · cases told
    exact ⟨rfl, rfl⟩
  · split at told
    · cases told
      exact ⟨rfl, rfl⟩
    · cases told

theorem of_mem_baseTexts {types : FileTypes} {entry : UsageText} (mem : entry ∈ baseTexts types) :
    (∃ type ∈ types, entry.owner = some type.fullName) ∧ entry.kind ≠ .use := by
  obtain ⟨type, memType, named⟩ := List.mem_flatMap.mp mem
  rcases List.mem_append.mp named with extended | implemented
  · obtain ⟨_, _, rfl⟩ := List.mem_map.mp extended
    exact ⟨⟨type, memType, rfl⟩, nofun⟩
  · obtain ⟨_, _, rfl⟩ := List.mem_map.mp implemented
    exact ⟨⟨type, memType, rfl⟩, nofun⟩

/-- What some texts of a file give, one after the other. -/
def afterTexts (profile : Profile) (queries : Queries) (file : ParsedFile)
    (texts : List UsageText) : Collected :=
  collectUsages profile (importsOf profile queries file) file.path
    (declaredTypes profile queries file) texts

section

variable {profile : Profile} {queries : Queries} {file : ParsedFile} {first : DeclaredType}
  {rest : List DeclaredType} {before after : List UsageText} {use : UsageText}

theorem afterTexts_step (declared : declaredTypes profile queries file = first :: rest) :
    afterTexts profile queries file (before ++ [use]) =
      Collected.step profile (importsOf profile queries file) file.path (first :: rest) first
        (afterTexts profile queries file before) use := by
  simp only [afterTexts, declared, collectUsages, List.foldl_append, List.foldl_cons,
    List.foldl_nil]

/-- A text that is not passed over adds what it gives alone. -/
theorem afterTexts_concat (declared : declaredTypes profile queries file = first :: rest)
    (new : bareText profile.delimiter use.text ∉ (afterTexts profile queries file before).seen) :
    (afterTexts profile queries file (before ++ [use])).candidates =
      (afterTexts profile queries file before).candidates ++
        (Collected.alone profile (importsOf profile queries file) file.path (first :: rest) first
          use).candidates := by
  rw [afterTexts_step declared]
  exact (Collected.step_adds new).candidates

/-- What a text gives alone is among the candidates of its file, unless it is passed over. -/
theorem alone_subset_ofFile (declared : declaredTypes profile queries file = first :: rest)
    (texts : textsOf profile queries file = before ++ use :: after)
    (new : bareText profile.delimiter use.text ∉ (afterTexts profile queries file before).seen) :
    (Collected.alone profile (importsOf profile queries file) file.path (first :: rest) first
      use).candidates ⊆ (FileCoupling.ofFile profile queries file).candidates := by
  have all : (FileCoupling.ofFile profile queries file).candidates =
      (afterTexts profile queries file (before ++ use :: after)).candidates := by
    rw [← texts]
    rfl
  rw [all]
  rw [afterTexts, declared] at new ⊢
  exact alone_subset_collectUsages new

/-- The candidates of a text alone, which counts for the first type of its file: the names that
it shows, with those of its leading segments. -/
theorem mem_alone_iff {language : Language} (known : profile? language = some profile)
    {imports : List Import} {path : Path} (named : use.isCall = false)
    (counts : use.owner = none ∨ use.owner = some first.fullName)
    (usable : isUnusable (cleanName profile.delimiter use.text) = false)
    {head : String} {others : List String}
    (segments : cleanSegments profile.delimiter use.text = head :: others)
    (unbound : boundBy? imports head = none) (candidate : Candidate) :
    candidate ∈ (Collected.alone profile imports path (first :: rest) first use).candidates ↔
      ∃ used, candidate = ⟨used, first.fullName, path, use.kind⟩ ∧
        (Shows language profile.delimiter imports first.space
            (cleanName profile.delimiter use.text) used ∨
          ShowsPart language profile.delimiter imports (cleanName profile.delimiter use.text)
            used) := by
  have referrer : Collected.referrer? (first :: rest) first use = some first := by
    rcases counts with owner | owner
    · simp only [Collected.referrer?, owner]
    · simp [Collected.referrer?, owner, FileTypes.get?]
  rw [Collected.alone_candidates_of_unbound (profile?_delimiter known) named referrer segments
    unbound usable, List.mem_map]
  simp only [mem_unboundCandidates_iff known]
  constructor
  · rintro ⟨used, tried, rfl⟩
    exact ⟨used, rfl, tried⟩
  · rintro ⟨used, rfl, tried⟩
    exact ⟨used, tried, rfl⟩

end

namespace Analyzer

variable {analyzer : Analyzer}

theorem countP_joins_of_mem {r : Relationship} (mem : r ∈ analyzer.relationships) :
    (analyzer.relationships.countP fun other => other.joins r.fromName r.toName) = 1 := by
  have counted : analyzer.relationships.countP (fun other => other.joins r.fromName r.toName) =
      (analyzer.relationships.map Relationship.ends).count r.ends := by
    rw [List.count, List.countP_map]
    refine List.countP_congr fun other _ => ?_
    simp [Relationship.joins, Relationship.ends]
  rw [counted]
  exact List.count_eq_one_of_mem analyzer.relationships_distinct.ends_nodup
    (List.mem_map_of_mem mem)

/-- **The types that a name shows.**  Take a text of a collected file that is no call and counts
for the first type of the file: a use, or a base name of that type.  Let it not be noted
before, let its cleaned name be usable, and let no import bind its first segment.  Every
other declared type that the name shows where the first type stands is joined with that type
exactly once; and the candidates that the text adds are the names that it shows, with those
of its leading segments. -/
theorem aggregate_shows_names [OwnGrammars] (reachable : analyzer.Reachable) {file : ParsedFile}
    {profile : Profile} {queries : Queries} (known : profile? file.language = some profile)
    (mem : (file.path, FileCoupling.ofFile profile queries file) ∈ analyzer.files)
    {first : DeclaredType} {rest : List DeclaredType}
    (declared : declaredTypes profile queries file = first :: rest)
    {before after : List UsageText} {use : UsageText}
    (texts : textsOf profile queries file = before ++ use :: after) (named : use.isCall = false)
    (counts : use.owner = none ∨ use.owner = some first.fullName)
    (new : bareText profile.delimiter use.text ∉ (afterTexts profile queries file before).seen)
    (usable : isUnusable (cleanName profile.delimiter use.text) = false)
    {head : String} {others : List String}
    (segments : cleanSegments profile.delimiter use.text = head :: others)
    (unbound : boundBy? (importsOf profile queries file) head = none) :
    (∀ path fullName, analyzer.Declares path fullName → fullName ≠ first.fullName →
      Shows file.language profile.delimiter (importsOf profile queries file) first.space
        (cleanName profile.delimiter use.text) fullName →
      (analyzer.aggregate.relationships.countP fun r => r.joins first.fullName fullName) = 1) ∧
    ∃ added : List Candidate,
      (afterTexts profile queries file (before ++ [use])).candidates =
        (afterTexts profile queries file before).candidates ++ added ∧
      ∀ candidate, candidate ∈ added ↔
        ∃ used, candidate = ⟨used, first.fullName, file.path, use.kind⟩ ∧
          (Shows file.language profile.delimiter (importsOf profile queries file) first.space
            (cleanName profile.delimiter use.text) used ∨
          ShowsPart file.language profile.delimiter (importsOf profile queries file)
            (cleanName profile.delimiter use.text) used) := by
  refine ⟨?_, _, afterTexts_concat declared new,
    mem_alone_iff known named counts usable segments unbound⟩
  intro path fullName declares different shows
  have collected := alone_subset_ofFile declared texts new
    ((mem_alone_iff known named counts usable segments unbound _).mpr
      ⟨fullName, rfl, Or.inl shows⟩)
  obtain ⟨r, memR, fromName, toName⟩ :=
    reachable.good.exists_relationship mem collected declares different
  have once := countP_joins_of_mem memR
  rw [fromName, toName] at once
  exact once

end Analyzer

/-! ## A name in two namespaces

`T` is a type of the namespace around `N.M`, and of one that the file imports. -/

namespace Namespaces

open TwoFiles (node letter member classOf)

def spaceOf (start stop : Nat) (name : Node) (members : List Node) : Node :=
  node "namespace_declaration" start stop none
    [name, node "declaration_list" (name.stop.byte + 1) stop (some "body") members]

def userFile : ParsedFile where
  path := ⟨"a.cs"⟩
  language := .csharp
  source := "using L; namespace N.M { class F { T t; } }"
  root := node "compilation_unit" 0 43 none
    [node "using_directive" 0 8 none [node "identifier" 6 7 none []],
      spaceOf 9 43 (node "qualified_name" 19 22 (some "name")
          [letter "qualifier" 19, letter "name" 21])
        [classOf 25 41 [member 35 39 []]]]

def typesFile : ParsedFile where
  path := ⟨"b.cs"⟩
  language := .csharp
  source := "namespace N { class T { } } namespace L { class T { } }"
  root := node "compilation_unit" 0 55 none
    [spaceOf 0 27 (letter "name" 10) [classOf 14 25 []],
      spaceOf 28 55 (letter "name" 38) [classOf 42 53 []]]

def typeF : DeclaredType :=
  { TwoFiles.declared "F" ⟨"a.cs"⟩ 25 41 with space := "N.M" }

def user : FileCoupling where
  types := [typeF]
  accessors := [⟨"t", "T", ⟨"a.cs"⟩, "N.M.F.t", [typeF]⟩]
  candidates := ["N.M.T", "T", "L.T", "N.T"].map fun used => ⟨used, "N.M.F", ⟨"a.cs"⟩, .use⟩
  calls := []

def types : FileCoupling where
  types := [{ TwoFiles.declared "T" ⟨"b.cs"⟩ 14 25 with space := "N" },
    { TwoFiles.declared "T" ⟨"b.cs"⟩ 42 53 with space := "L" }]
  accessors := []
  candidates := []
  calls := []

theorem userFile_collected : FileCoupling.of? userFile = some user := by
  simp only [FileCoupling.of?, FileCoupling.ofFile, declaredTypes, usagesOf, importsOf, accessorsOf,
    Query.captures, Query.matchesWithin, Query.allMatches_eq_insertionSort]
  decide +kernel

theorem typesFile_collected : FileCoupling.of? typesFile = some types := by
  simp only [FileCoupling.of?, FileCoupling.ofFile, declaredTypes, usagesOf, importsOf, accessorsOf,
    Query.captures, Query.matchesWithin, Query.allMatches_eq_insertionSort]
  decide +kernel

theorem ofFile_eq : FileCoupling.ofFile csharp csharpQueries userFile = user :=
  Option.some.inj userFile_collected

theorem declaredTypes_eq : declaredTypes csharp csharpQueries userFile = [typeF] :=
  congrArg FileCoupling.types ofFile_eq

theorem importsOf_eq : importsOf csharp csharpQueries userFile = [⟨"L", "L", none⟩] := by
  simp only [importsOf, Query.captures, Query.allMatches_eq_insertionSort]
  decide +kernel

theorem textsOf_eq : textsOf csharp csharpQueries userFile = [⟨false, "T", none, .use⟩] := by
  rw [textsOf, declaredTypes_eq]
  simp only [usesIn, Query.captures, Query.allMatches_eq_insertionSort]
  decide +kernel

/-- Both files, collected. -/
def analyzer : Analyzer := ⟨[(⟨"a.cs"⟩, user), (⟨"b.cs"⟩, types)]⟩

theorem reachable [OwnGrammars] : analyzer.Reachable := by
  have both : (Analyzer.add {} userFile).add typesFile = analyzer := by
    simp only [Analyzer.add, userFile_collected, typesFile_collected]
    rfl
  rw [← both]
  exact (Analyzer.Reachable.empty.add userFile).add typesFile

end Namespaces

namespace Analyzer

open Namespaces

attribute [local instance] sampleGrammars

theorem aggregate_shows_names_twice :
    analyzer.Declares ⟨"b.cs"⟩ "N.T" ∧ analyzer.Declares ⟨"b.cs"⟩ "L.T" ∧
      (analyzer.aggregate.relationships.countP fun r => r.joins "N.M.F" "N.T") = 1 ∧
      (analyzer.aggregate.relationships.countP fun r => r.joins "N.M.F" "L.T") = 1 := by
  have mem : (userFile.path, FileCoupling.ofFile csharp csharpQueries userFile) ∈
      analyzer.files := by
    rw [ofFile_eq]
    exact List.mem_cons_self
  have texts : textsOf csharp csharpQueries userFile =
      [] ++ ⟨false, "T", none, .use⟩ :: [] := textsOf_eq
  have new : bareText csharp.delimiter "T" ∉
      (afterTexts csharp csharpQueries userFile []).seen := by
    rw [afterTexts, importsOf_eq, declaredTypes_eq]
    decide +kernel
  have usable : isUnusable (cleanName csharp.delimiter "T") = false := by decide +kernel
  have segments : cleanSegments csharp.delimiter "T" = ["T"] := by decide +kernel
  have unbound : boundBy? (importsOf csharp csharpQueries userFile) "T" = none := by
    rw [importsOf_eq]
    decide +kernel
  have named : cleanName csharp.delimiter "T" = "T" := by decide +kernel
  have around : analyzer.Declares ⟨"b.cs"⟩ "N.T" := by decide +kernel
  have imported : analyzer.Declares ⟨"b.cs"⟩ "L.T" := by decide +kernel
  have joined := (aggregate_shows_names reachable rfl mem declaredTypes_eq texts rfl (Or.inl rfl)
    new usable segments unbound).1
  rw [named, importsOf_eq] at joined
  refine ⟨around, imported, joined _ _ around (by decide +kernel) ?_,
    joined _ _ imported (by decide +kernel) ?_⟩
  · have space : typeF.space = "N" ++ csharp.delimiter ++ "M" := by decide +kernel
    exact .around space
  · exact .imported rfl List.mem_cons_self

end Analyzer

end SourceGauge.Coupling
