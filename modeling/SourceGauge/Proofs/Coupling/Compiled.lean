/-
# SourceGauge.Proofs.Coupling.Compiled -- what the profiles compile to

The texts of the queries of both profiles are read here once, line by line: each writes a list of
patterns (`csharpQueries`, `phpQueries`), and compiles to it with grammars that have the kinds in
it (`Profile.CompilesTo`).  A cache of compiled queries does not change that
(`Profile.CompilesTo.compile_eq`), so to collect a file is to add what its text and tree alone say
it is.

* `collect_eq`: collecting with a sound cache is `Analyzer.add`, and leaves the
  cache sound.
-/
import SourceGauge.Coupling.Analyzer
import SourceGauge.Proofs.Language.OwnGrammars
import SourceGauge.Proofs.Query.Order
import SourceGauge.Proofs.Query.Pieces

namespace SourceGauge.Coupling

set_option autoImplicit false

open Query (Leads Pattern Reads everyKind leads_ofList reads_lines reads_ofList)
open Query.Pattern (ofKind any inField)

/-! ## C# -/

def csharpAccessorQuery : Query :=
  Query.ofPatterns [
    ofKind "property_declaration" [inField "type" (any.capture "accessor_return_type"),
      inField "name" ((ofKind "identifier" []).capture "accessor_name")],
    ofKind "field_declaration" [ofKind "variable_declaration"
      [inField "type" (any.capture "accessor_return_type"),
        ofKind "variable_declarator"
          [inField "name" ((ofKind "identifier" []).capture "accessor_name")]]],
    ofKind "method_declaration" [inField "returns" (any.capture "accessor_return_type"),
      inField "name" ((ofKind "identifier" []).capture "accessor_name")]]

def csharpQueries : Queries where
  types := Query.ofPatterns [
    (ofKind "namespace_declaration" []).capture "namespace",
    (ofKind "file_scoped_namespace_declaration" []).capture "namespace",
    (ofKind "class_declaration" []).capture "type_declaration",
    (ofKind "interface_declaration" []).capture "type_declaration",
    (ofKind "struct_declaration" []).capture "type_declaration",
    (ofKind "enum_declaration" []).capture "type_declaration",
    (ofKind "record_declaration" []).capture "type_declaration",
    (ofKind "delegate_declaration" []).capture "type_declaration",
    ofKind "base_list" [(ofKind "identifier" []).capture "implemented_class"],
    ofKind "base_list" [(ofKind "qualified_name" []).capture "implemented_class"],
    ofKind "base_list"
      [ofKind "generic_name" [(ofKind "identifier" []).capture "implemented_class"]]]
  imports := Query.ofPatterns [(ofKind "using_directive" []).capture "import"]
  usages := Query.ofPatterns [
    ofKind "generic_name" [(ofKind "identifier" []).capture "qualified_name",
      ofKind "type_argument_list" [any.capture "qualified_name"]],
    ofKind "method_declaration" [inField "returns" (any.capture "qualified_name")],
    ofKind "parameter" [inField "type" (any.capture "qualified_name")],
    ofKind "property_declaration" [inField "type" (any.capture "qualified_name")],
    ofKind "object_creation_expression" [inField "type" (any.capture "qualified_name")],
    ofKind "variable_declaration" [inField "type" (any.capture "qualified_name")],
    ofKind "cast_expression" [inField "type" (any.capture "qualified_name")],
    ofKind "foreach_statement" [inField "type" (any.capture "qualified_name")],
    ofKind "as_expression" [inField "right" (any.capture "qualified_name")],
    ofKind "is_pattern_expression" [inField "pattern"
      (ofKind "declaration_pattern" [inField "type" (any.capture "qualified_name")])],
    ofKind "is_pattern_expression" [inField "pattern"
      ((ofKind "type_pattern" []).capture "qualified_name")],
    ofKind "attribute" [inField "name" (any.capture "qualified_name")],
    (ofKind "member_access_expression" []).capture "call_expression",
    (ofKind "conditional_access_expression" []).capture "call_expression"]
  accessors := some csharpAccessorQuery

theorem reads_csharpTypes : Reads everyKind csharpTypes csharpQueries.types.clauses := by
  rw [csharpTypes, csharpQueries]
  refine reads_lines ?_
  repeat refine .cons (reads_ofList rfl) ?_
  exact .nil

theorem reads_csharpImports :
    Reads everyKind csharp.importsText csharpQueries.imports.clauses := reads_ofList rfl

theorem reads_csharpUsages : Reads everyKind csharpUsages csharpQueries.usages.clauses := by
  rw [csharpUsages, csharpQueries]
  refine reads_lines ?_
  repeat refine .cons (reads_ofList rfl) ?_
  exact .nil

/-- What was read when some brackets are open, each with its kind and its children so far. -/
def openNodes (frames : List (String × List Pattern)) : Query.Draft where
  stack := frames.map fun frame =>
    { opening := .node (some (.named frame.1)), children := frame.2 }

theorem reads_csharpAccessors : Reads everyKind csharpAccessors csharpAccessorQuery.clauses := by
  rw [csharpAccessors, csharpAccessorQuery]
  refine reads_lines (.cons ?property (.cons ?field (.cons ?method .nil)))
  case property =>
    refine Leads.reads (.above (openNodes [("property_declaration", [])]) (leads_ofList rfl) ?_)
    refine .above (openNodes [("property_declaration",
      [inField "type" (any.capture "accessor_return_type")])]) (leads_ofList rfl) ?_
    exact leads_ofList rfl
  case field =>
    refine Leads.reads (.above (openNodes [("field_declaration", [])]) (leads_ofList rfl) ?_)
    refine .above (openNodes [("variable_declaration", []), ("field_declaration", [])])
      (leads_ofList rfl) ?_
    refine .above (openNodes [("variable_declaration",
      [inField "type" (any.capture "accessor_return_type")]), ("field_declaration", [])])
      (leads_ofList rfl) ?_
    exact leads_ofList rfl
  case method =>
    refine Leads.reads (.above (openNodes [("method_declaration", [])]) (leads_ofList rfl) ?_)
    refine .above (openNodes [("method_declaration",
      [inField "returns" (any.capture "accessor_return_type")])]) (leads_ofList rfl) ?_
    exact leads_ofList rfl

/-! ## PHP -/

/-- A name, with a namespace or without. -/
def phpName : Pattern := .oneOf {} [] [ofKind "name" [], ofKind "qualified_name" []]

def phpQueries : Queries where
  types := Query.ofPatterns [
    (ofKind "namespace_definition" []).capture "namespace",
    (ofKind "class_declaration" []).capture "type_declaration",
    (ofKind "interface_declaration" []).capture "type_declaration",
    (ofKind "trait_declaration" []).capture "type_declaration",
    (ofKind "enum_declaration" []).capture "type_declaration",
    ofKind "class_declaration" [ofKind "base_clause" [phpName.capture "extended_class"]],
    ofKind "interface_declaration" [ofKind "base_clause" [phpName.capture "implemented_class"]],
    ofKind "class_declaration"
      [ofKind "class_interface_clause" [phpName.capture "implemented_class"]],
    ofKind "enum_declaration"
      [ofKind "class_interface_clause" [phpName.capture "implemented_class"]]]
  imports := Query.ofPatterns [(ofKind "namespace_use_declaration" []).capture "import"]
  usages := Query.ofPatterns [
    ofKind "simple_parameter" [inField "type" (any.capture "qualified_name")],
    ofKind "property_promotion_parameter" [inField "type" (any.capture "qualified_name")],
    ofKind "method_declaration" [inField "return_type" (any.capture "qualified_name")],
    ofKind "function_definition" [inField "return_type" (any.capture "qualified_name")],
    ofKind "property_declaration" [inField "type" (any.capture "qualified_name")],
    ofKind "object_creation_expression" [phpName.capture "qualified_name"],
    ofKind "class_constant_access_expression"
      [(phpName.capture "call_expression").inSlot { anchored := true }],
    ofKind "scoped_call_expression" [inField "scope" (phpName.capture "call_expression")],
    ofKind "scoped_property_access_expression"
      [inField "scope" (phpName.capture "call_expression")]]
  accessors := none

theorem reads_phpTypes : Reads everyKind phpTypes phpQueries.types.clauses := by
  rw [phpTypes, phpQueries]
  refine reads_lines ?_
  repeat refine .cons (reads_ofList rfl) ?_
  exact .nil

theorem reads_phpImports : Reads everyKind php.importsText phpQueries.imports.clauses :=
  reads_ofList rfl

theorem reads_phpUsages : Reads everyKind phpUsages phpQueries.usages.clauses := by
  rw [phpUsages, phpQueries]
  refine reads_lines ?_
  repeat refine .cons (reads_ofList rfl) ?_
  exact .nil

/-! ## Profiles -/

/-- The queries that the texts of a profile compile to. -/
structure Profile.CompilesTo [Grammars] (profile : Profile) (queries : Queries) : Prop where
  types : Query.compile profile.language profile.typesText = .ok queries.types
  imports : Query.compile profile.language profile.importsText = .ok queries.imports
  usages : Query.compile profile.language profile.usagesText = .ok queries.usages
  accessors : profile.accessorsText.mapM (Query.compile profile.language) = .ok queries.accessors

section

variable [OwnGrammars]

/-- The texts of a profile are among those that the grammars are made for. -/
theorem compile_profileText {profile : Profile} (has : profile? profile.language = some profile)
    {text : String} (mem : text ∈ profile.texts) {clauses : List Query.Clause}
    (reads : Reads everyKind text clauses) :
    Query.compile profile.language text = .ok ⟨clauses⟩ := by
  refine (Query.compile_own_iff ?_).mpr reads.read_eq
  simp [ownTexts, has, mem]

theorem csharp_compilesTo : csharp.CompilesTo csharpQueries where
  types := compile_profileText rfl (by simp [Profile.texts]) reads_csharpTypes
  imports := compile_profileText rfl (by simp [Profile.texts]) reads_csharpImports
  usages := compile_profileText rfl (by simp [Profile.texts]) reads_csharpUsages
  accessors := by
    have compiled : Query.compile csharp.language csharpAccessors = .ok csharpAccessorQuery :=
      compile_profileText rfl (by simp [Profile.texts, csharp]) reads_csharpAccessors
    rw [show csharp.accessorsText = some csharpAccessors from rfl, Option.mapM_some, compiled]
    rfl

theorem php_compilesTo : php.CompilesTo phpQueries where
  types := compile_profileText rfl (by simp [Profile.texts]) reads_phpTypes
  imports := compile_profileText rfl (by simp [Profile.texts]) reads_phpImports
  usages := compile_profileText rfl (by simp [Profile.texts]) reads_phpUsages
  accessors := rfl

end

def queries? : Language → Option Queries
  | .csharp => some csharpQueries
  | .php => some phpQueries
  | _ => none

theorem queries?_of_profile? {language : Language} {profile : Profile}
    (known : profile? language = some profile) :
    ∃ queries, queries? language = some queries := by
  cases language with
  | csharp => exact ⟨csharpQueries, rfl⟩
  | php => exact ⟨phpQueries, rfl⟩
  | _ => cases known

/-- The queries of a language are what its profile compiles to. -/
theorem compilesTo_of_profile? [OwnGrammars] {language : Language} {profile : Profile}
    {queries : Queries} (known : profile? language = some profile)
    (has : queries? language = some queries) : profile.CompilesTo queries := by
  cases language with
  | csharp =>
      cases known
      cases has
      exact csharp_compilesTo
  | php =>
      cases known
      cases has
      exact php_compilesTo
  | _ => cases known

section

variable [Grammars] {profile : Profile} {queries : Queries} {cache : Query.Cache}

/-- The accessor text of a profile, if it has one, compiles to the accessor query. -/
theorem Profile.CompilesTo.accessors_cases (compiles : profile.CompilesTo queries) :
    (profile.accessorsText = none ∧ queries.accessors = none) ∨
      ∃ text query, profile.accessorsText = some text ∧
        Query.compile profile.language text = .ok query ∧ queries.accessors = some query := by
  have accessors := compiles.accessors
  cases text : profile.accessorsText with
  | none =>
      rw [text, Option.mapM_none] at accessors
      exact Or.inl ⟨rfl, (Except.ok.inj accessors).symm⟩
  | some written =>
      rw [text, Option.mapM_some] at accessors
      cases compiled : Query.compile profile.language written with
      | error fault =>
          rw [compiled] at accessors
          cases accessors
      | ok query =>
          rw [compiled] at accessors
          exact Or.inr ⟨written, query, rfl, compiled, (Except.ok.inj accessors).symm⟩

theorem Profile.CompilesTo.compileAccessors_eq (compiles : profile.CompilesTo queries)
    (sound : cache.Sound) :
    ∃ later : Query.Cache,
      profile.compileAccessors cache = (.ok queries.accessors, later) ∧ later.Sound := by
  unfold Profile.compileAccessors
  rcases compiles.accessors_cases with ⟨without, none⟩ | ⟨text, query, written, compiled, some⟩
  · exact ⟨cache, by rw [without, none], sound⟩
  · obtain ⟨later, found, soundLater⟩ := Query.Cache.compile_ok sound compiled
    exact ⟨later, by simp only [written, found, some], soundLater⟩

/-- A profile compiles to its queries with every sound cache. -/
theorem Profile.CompilesTo.compile_eq (compiles : profile.CompilesTo queries)
    (sound : cache.Sound) :
    ∃ later : Query.Cache, profile.compile cache = (.ok queries, later) ∧ later.Sound := by
  obtain ⟨afterTypes, types, sound⟩ := Query.Cache.compile_ok sound compiles.types
  obtain ⟨afterImports, imports, sound⟩ := Query.Cache.compile_ok sound compiles.imports
  obtain ⟨afterUsages, usages, sound⟩ := Query.Cache.compile_ok sound compiles.usages
  obtain ⟨later, accessors, sound⟩ := compiles.compileAccessors_eq sound
  refine ⟨later, ?_, sound⟩
  simp only [Profile.compile, types, imports, usages, accessors]

end

/-! ## Collecting -/

/-- What a file is collected as, if its language has a profile. -/
def FileCoupling.of? (file : ParsedFile) : Option FileCoupling :=
  match profile? file.language, queries? file.language with
  | some profile, some queries => some (.ofFile profile queries file)
  | _, _ => none

namespace Analyzer

/-- Add a file, if its language has a profile and its path is new. -/
def add (analyzer : Analyzer) (file : ParsedFile) : Analyzer :=
  match FileCoupling.of? file with
  | none => analyzer
  | some coupling =>
      if (analyzer.files.find? file.path).isSome then analyzer
      else ⟨analyzer.files.insert file.path coupling⟩

/-- Collecting a file cannot fail, and depends on no cache. -/
theorem collect_eq [OwnGrammars] (analyzer : Analyzer) (file : ParsedFile)
    {cache : Query.Cache} (sound : cache.Sound) :
    ∃ later : Query.Cache, analyzer.collect file cache = (.ok (analyzer.add file), later) ∧
      later.Sound := by
  unfold collect add FileCoupling.of?
  cases known : profile? file.language with
  | none => exact ⟨cache, rfl, sound⟩
  | some profile =>
      obtain ⟨queries, has⟩ := queries?_of_profile? known
      obtain ⟨later, compiled, soundLater⟩ := (compilesTo_of_profile? known has).compile_eq sound
      simp only [has]
      cases there : analyzer.files.find? file.path with
      | some _ => exact ⟨cache, rfl, sound⟩
      | none => exact ⟨later, by simp [compiled], soundLater⟩

theorem add_of_collect [OwnGrammars] {analyzer next : Analyzer} {file : ParsedFile}
    {cache : Query.Cache} (sound : cache.Sound)
    (collected : (analyzer.collect file cache).1 = .ok next) : next = analyzer.add file := by
  obtain ⟨later, whole, _⟩ := analyzer.collect_eq file sound
  rw [whole] at collected
  exact (Except.ok.inj collected).symm

/-- Adding a file changes nothing, or adds what the file is collected as at a path
that is new. -/
theorem add_cases (analyzer : Analyzer) (file : ParsedFile) :
    analyzer.add file = analyzer ∨
      ∃ coupling, FileCoupling.of? file = some coupling ∧
        analyzer.files.find? file.path = none ∧
        analyzer.add file = ⟨analyzer.files.insert file.path coupling⟩ := by
  unfold add
  cases collected : FileCoupling.of? file with
  | none => exact Or.inl rfl
  | some coupling =>
      cases there : analyzer.files.find? file.path with
      | some _ => exact Or.inl rfl
      | none => exact Or.inr ⟨coupling, rfl, rfl, rfl⟩

end Analyzer

/-! ## Two files

A chain of two members in one file goes through two classes of another. -/

deriving instance DecidableEq for FileCoupling

namespace TwoFiles

def node (kind : String) (start stop : Nat) (field : Option String) (children : List Node) :
    Node :=
  .mk { kind, named := true, field, start := ⟨start, 0, start⟩, stop := ⟨stop, 0, stop⟩ } children

def letter (field : String) (start : Nat) : Node :=
  node "identifier" start (start + 1) (some field) []

def member (start stop : Nat) (value : List Node) : Node :=
  node "field_declaration" start stop none
    [node "variable_declaration" start (stop - 1) none
      [letter "type" start,
        node "variable_declarator" (start + 2) (stop - 1) none
          (letter "name" (start + 2) :: value)]]

def classOf (start stop : Nat) (members : List Node) : Node :=
  node "class_declaration" start stop none
    [letter "name" (start + 6), node "declaration_list" (start + 8) stop (some "body") members]

def callerFile : ParsedFile where
  path := ⟨"A.cs"⟩
  language := .csharp
  source := "class A { B x = y.c.d; }"
  root := node "compilation_unit" 0 24 none
    [classOf 0 24 [member 10 22
      [node "member_access_expression" 16 21 none
        [node "member_access_expression" 16 19 (some "expression")
          [letter "expression" 16, letter "name" 18],
          letter "name" 20]]]]

def calleeFile : ParsedFile where
  path := ⟨"B.cs"⟩
  language := .csharp
  source := "class B { C c; } class C { D d; } class D { }"
  root := node "compilation_unit" 0 45 none
    [classOf 0 16 [member 10 14 []], classOf 17 33 [member 27 31 []], classOf 34 45 []]

def declared (name : String) (file : Path) (start stop : Nat) : DeclaredType where
  space := ""
  name := name
  kind := .concrete
  file := file
  delimiter := "."
  span := ⟨start, stop, 0, 0⟩

def typeA : DeclaredType := declared "A" ⟨"A.cs"⟩ 0 24

def typeB : DeclaredType := declared "B" ⟨"B.cs"⟩ 0 16

def typeC : DeclaredType := declared "C" ⟨"B.cs"⟩ 17 33

def typeD : DeclaredType := declared "D" ⟨"B.cs"⟩ 34 45

def caller : FileCoupling where
  types := [typeA]
  accessors := [⟨"x", "B", ⟨"A.cs"⟩, "A.x", [typeA]⟩]
  candidates := ["B", "B", "y.c", "y.c"].map fun used => ⟨used, "A", ⟨"A.cs"⟩, .use⟩
  calls := [⟨"y.c.d", ".", true⟩]

def callee : FileCoupling where
  types := [typeB, typeC, typeD]
  accessors := [⟨"c", "C", ⟨"B.cs"⟩, "B.c", [typeB]⟩, ⟨"d", "D", ⟨"B.cs"⟩, "C.d", [typeC]⟩]
  candidates := ["C", "C", "D", "D"].map fun used => ⟨used, "B", ⟨"B.cs"⟩, .use⟩
  calls := []

theorem callerFile_collected : FileCoupling.of? callerFile = some caller := by
  simp only [FileCoupling.of?, FileCoupling.ofFile, declaredTypes, usagesOf, importsOf, accessorsOf,
    Query.captures, Query.matchesWithin, Query.allMatches_eq_insertionSort]
  decide +kernel

theorem calleeFile_collected : FileCoupling.of? calleeFile = some callee := by
  simp only [FileCoupling.of?, FileCoupling.ofFile, declaredTypes, usagesOf, importsOf, accessorsOf,
    Query.captures, Query.matchesWithin, Query.allMatches_eq_insertionSort]
  decide +kernel

end TwoFiles

end Coupling

end SourceGauge
