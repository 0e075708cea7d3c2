/-
# SourceGauge.Coupling.Profile -- how a language names and uses types

A profile holds the queries that find the types, imports, usages and accessors
of a file, and the rules by which names are looked up.  Types queries capture
`namespace`, `type_declaration`, `extended_class` and `implemented_class`; usage
queries `qualified_name` and `call_expression`; accessor queries
`accessor_return_type` and `accessor_name` once in each match.
-/
import SourceGauge.Coupling.Import
import SourceGauge.Query.Cache

namespace SourceGauge.Coupling

set_option autoImplicit false

/-- The rules and queries of a language. -/
structure Profile where
  language : Language
  /-- What stands between the segments of a name. -/
  delimiter : String
  /-- What stands between the members of a call chain. -/
  callDelimiter : String
  /-- A name may be relative to any imported namespace. -/
  importsOpenNamespaces : Bool
  /-- An alias may also name a type in the same or a parent namespace. -/
  aliasesSeeParents : Bool
  importForm : ImportForm
  typesText : String
  importsText : String
  usagesText : String
  accessorsText : Option String
  deriving DecidableEq, Repr

def Profile.chainsMembers (profile : Profile) : Bool := profile.delimiter = profile.callDelimiter

/-- The text of a query: its patterns, each on lines of its own. -/
def queryText (patterns : List String) : String := Text.join "\n" ("" :: patterns ++ [""])

/-! ## C# -/

def csharpTypes : String :=
  queryText [
    "(namespace_declaration) @namespace",
    "(file_scoped_namespace_declaration) @namespace",
    "(class_declaration) @type_declaration",
    "(interface_declaration) @type_declaration",
    "(struct_declaration) @type_declaration",
    "(enum_declaration) @type_declaration",
    "(record_declaration) @type_declaration",
    "(delegate_declaration) @type_declaration",
    "(base_list (identifier) @implemented_class)",
    "(base_list (qualified_name) @implemented_class)",
    "(base_list (generic_name (identifier) @implemented_class))"]

def csharpUsages : String :=
  queryText [
    "(generic_name (identifier) @qualified_name (type_argument_list (_) @qualified_name))",
    "(method_declaration returns: (_) @qualified_name)",
    "(parameter type: (_) @qualified_name)",
    "(property_declaration type: (_) @qualified_name)",
    "(object_creation_expression type: (_) @qualified_name)",
    "(variable_declaration type: (_) @qualified_name)",
    "(cast_expression type: (_) @qualified_name)",
    "(foreach_statement type: (_) @qualified_name)",
    "(as_expression right: (_) @qualified_name)",
    "(is_pattern_expression pattern: (declaration_pattern type: (_) @qualified_name))",
    "(is_pattern_expression pattern: (type_pattern) @qualified_name)",
    "(attribute name: (_) @qualified_name)",
    "(member_access_expression) @call_expression",
    "(conditional_access_expression) @call_expression"]

def csharpAccessors : String :=
  queryText [
    Text.join "\n" [
      "(property_declaration",
      "  type: (_) @accessor_return_type",
      "  name: (identifier) @accessor_name)"],
    Text.join "\n" [
      "(field_declaration",
      "  (variable_declaration",
      "    type: (_) @accessor_return_type",
      "    (variable_declarator name: (identifier) @accessor_name)))"],
    Text.join "\n" [
      "(method_declaration",
      "  returns: (_) @accessor_return_type",
      "  name: (identifier) @accessor_name)"]]

/-- Names and members are both joined by dots, and `using` opens namespaces. -/
def csharp : Profile where
  language := .csharp
  delimiter := "."
  callDelimiter := "."
  importsOpenNamespaces := true
  aliasesSeeParents := true
  importForm := .directive
  typesText := csharpTypes
  importsText := "(using_directive) @import"
  usagesText := csharpUsages
  accessorsText := some csharpAccessors

/-! ## PHP -/

def phpTypes : String :=
  queryText [
    "(namespace_definition) @namespace",
    "(class_declaration) @type_declaration",
    "(interface_declaration) @type_declaration",
    "(trait_declaration) @type_declaration",
    "(enum_declaration) @type_declaration",
    "(class_declaration (base_clause [(name) (qualified_name)] @extended_class))",
    "(interface_declaration (base_clause [(name) (qualified_name)] @implemented_class))",
    "(class_declaration (class_interface_clause [(name) (qualified_name)] @implemented_class))",
    "(enum_declaration (class_interface_clause [(name) (qualified_name)] @implemented_class))"]

def phpUsages : String :=
  queryText [
    "(simple_parameter type: (_) @qualified_name)",
    "(property_promotion_parameter type: (_) @qualified_name)",
    "(method_declaration return_type: (_) @qualified_name)",
    "(function_definition return_type: (_) @qualified_name)",
    "(property_declaration type: (_) @qualified_name)",
    "(object_creation_expression [(name) (qualified_name)] @qualified_name)",
    "(class_constant_access_expression . [(name) (qualified_name)] @call_expression)",
    "(scoped_call_expression scope: [(name) (qualified_name)] @call_expression)",
    "(scoped_property_access_expression scope: [(name) (qualified_name)] @call_expression)"]

/-- Names are joined by backslashes, members by arrows, and `use` binds one name. -/
def php : Profile where
  language := .php
  delimiter := "\\"
  callDelimiter := "->"
  importsOpenNamespaces := false
  aliasesSeeParents := false
  importForm := .use
  typesText := phpTypes
  importsText := "(namespace_use_declaration) @import"
  usagesText := phpUsages
  accessorsText := none

def profile? : Language → Option Profile
  | .csharp => some csharp
  | .php => some php
  | _ => none

/-! ## Compiled profiles -/

variable [Grammars]

/-- The compiled queries of a profile. -/
structure Queries where
  types : Query
  imports : Query
  usages : Query
  accessors : Option Query

def Profile.compileAccessors (profile : Profile) (cache : Query.Cache) :
    Except Query.CompileError (Option Query) × Query.Cache :=
  match profile.accessorsText with
  | none => (.ok none, cache)
  | some text =>
      match cache.compile profile.language text with
      | (.ok query, cache) => (.ok (some query), cache)
      | (.error error, cache) => (.error error, cache)

/-- Compile the queries of a profile, one after the other. -/
def Profile.compile (profile : Profile) (cache : Query.Cache) :
    Except Query.CompileError Queries × Query.Cache :=
  match cache.compile profile.language profile.typesText with
  | (.error error, cache) => (.error error, cache)
  | (.ok types, cache) =>
      match cache.compile profile.language profile.importsText with
      | (.error error, cache) => (.error error, cache)
      | (.ok imports, cache) =>
          match cache.compile profile.language profile.usagesText with
          | (.error error, cache) => (.error error, cache)
          | (.ok usages, cache) =>
              match profile.compileAccessors cache with
              | (.error error, cache) => (.error error, cache)
              | (.ok accessors, cache) => (.ok ⟨types, imports, usages, accessors⟩, cache)

end SourceGauge.Coupling
