/-
# SourceGauge.Metric.Statements -- what complexity, functions and classes count

Each of these metrics is the number of matches of some statements, made from a
registry once: a statement for every record of the counted categories, and
written ones for what a kind of node alone cannot express.

A case label counts in two ways.  In a language that has a kind of its own for
the default label, every node of the label's kind counts.  Elsewhere the same
kind stands for the default label too, and only nodes that carry a value count
(`valuedLabel`).
-/
import SourceGauge.Query.Statement

namespace SourceGauge.Metric

set_option autoImplicit false

/-- The initializer blocks of a Java class, which count as functions. -/
def initializerBlock : Statement := .forLanguages "(class_body (block) @init_block)" [.java]

/-! ## Complexity -/

/-- The categories whose nodes add one to complexity. -/
def branchingCategories : List Category :=
  [.branch, .loop, .conditional, .logicalOperation, .handler, .function]

/-- The statement of a record of a branching category.  A command list holds its
operator as a bare token, not in a field. -/
def branchingStatement (record : Record) : Statement :=
  match record.operator with
  | none => .ofRecord record
  | some operator =>
      if record.kind = "list" then
        .written ("(list \"" ++ operator ++ "\") @command_list") record.languages record.deactivated
      else .operator record.kind operator record.languages record.deactivated

/-- The pattern of the nodes of a label's kind that carry a value. -/
def valuedLabel (kind : String) : String :=
  if kind = "case_statement" then "(case_statement value: (_)) @case_statement"
  else if kind = "when_entry" then "(when_entry . condition: (_)) @when_entry"
  else if kind = "match_arm" then "(match_arm pattern: (match_pattern (_))) @match_arm"
  else "(" ++ kind ++ " (_)) @" ++ kind

/-- The statements of a case label, given the languages that have a kind of
their own for the default label. -/
def caseLabelStatements (withDefault : List Language) (record : Record) : List Statement :=
  let plain := record.languages.filter fun language => withDefault.contains language
  let valued := record.languages.filter fun language => !withDefault.contains language
  (if plain.isEmpty then [] else [.kind record.kind plain record.deactivated]) ++
    (if valued.isEmpty then []
      else [.written (valuedLabel record.kind) valued record.deactivated])

/-- The languages that have a kind of their own for the default label. -/
def languagesWithDefault (registry : Registry) : List Language :=
  (registry.inCategory .defaultLabel).flatMap Record.languages

/-- Branching that C# writes without a kind of node for it: assigning to what
is null, arms of a switch expression that are not `_`, and switch sections that
begin with `case`. -/
def csharpBranches : List Statement :=
  ["(assignment_expression operator: \"??=\") @null_coalescing_assignment",
    "(switch_expression_arm . (_) @arm_pattern (#not-eq? @arm_pattern \"_\"))",
    "((switch_section) @switch_section (#match? @switch_section \"^case\"))"].map
    fun text => .forLanguages text [.csharp]

def complexityStatements (registry : Registry) : List Statement :=
  (registry.inCategories branchingCategories).map branchingStatement ++
    (registry.inCategory .caseLabel).flatMap
      (caseLabelStatements (languagesWithDefault registry)) ++
    [initializerBlock] ++ csharpBranches

/-! ## Functions and classes -/

def functionStatements (registry : Registry) : List Statement :=
  (registry.inCategory .function).map .ofRecord ++ [initializerBlock]

/-- Type definitions that a kind of node alone does not tell: specifiers of C
and C++ with a body, enums of C++ with a base only, aliases of object types, and
anonymous classes. -/
def writtenTypes : List Statement :=
  [.forLanguages "(struct_specifier body: (field_declaration_list)) @struct_definition" [.c, .cpp],
    .forLanguages "(union_specifier body: (field_declaration_list)) @union_definition" [.c, .cpp],
    .forLanguages "(class_specifier body: (field_declaration_list)) @class_definition" [.cpp],
    .forLanguages "(enum_specifier body: (enumerator_list)) @enum_definition" [.c, .cpp],
    .forLanguages "(enum_specifier base: (_) !body) @enum_definition" [.cpp],
    .forLanguages "(type_alias_declaration value: (object_type)) @object_type_alias"
      [.typescript, .tsx],
    .forLanguages "(object_creation_expression (class_body)) @anonymous_class" [.java],
    .forLanguages "(object_creation_expression (anonymous_class)) @anonymous_class" [.php]]

def classStatements (registry : Registry) : List Statement :=
  (registry.inCategories Category.typeDefinitions).map .ofRecord ++ writtenTypes

/-! ## Comments -/

/-- The nodes that are comments, with the string statements of Python. -/
def commentStatements (registry : Registry) : List Statement :=
  (registry.inCategory .comment).map .ofRecord ++
    [.forLanguages "(expression_statement (string)) @python_docstring" [.python]]

end SourceGauge.Metric
