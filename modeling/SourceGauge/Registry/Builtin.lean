/-
# SourceGauge.Registry.Builtin -- the node kinds of the sixteen grammars

The registry that is used when none is given.  Operators that a grammar writes
as one kind of node with an `operator` field have a record each, told apart by
the operator; the kind itself is then the record's grammar name.
-/
import SourceGauge.Registry

namespace SourceGauge.Registry

set_option autoImplicit false

/-- A kind that is counted wherever the grammar has it. -/
def plain (typeName : String) (category : Category) (languages : List Language) : Record :=
  { typeName, category, languages }

def operator (typeName : String) (category : Category) (kind operator : String)
    (languages : List Language) : Record :=
  { typeName, category, languages, grammarName := some kind, operator := some operator }

def builtinRecords : List Record := [
    plain "if_statement" .branch [.c, .cpp, .csharp, .go, .java, .javascript, .typescript, .tsx,
      .php, .python, .bash],
    plain "elif_clause" .branch [.python, .bash],
    plain "else_if_clause" .branch [.php],
    plain "if_expression" .branch [.kotlin, .rust],
    plain "if" .branch [.ruby],
    plain "elsif" .branch [.ruby],
    plain "unless" .branch [.ruby],
    plain "if_modifier" .branch [.ruby],
    plain "unless_modifier" .branch [.ruby],
    plain "for_statement" .loop [.c, .cpp, .csharp, .go, .java, .kotlin, .javascript, .typescript,
      .tsx, .php, .python, .bash],
    plain "while_statement" .loop [.c, .cpp, .csharp, .java, .kotlin, .javascript, .typescript,
      .tsx, .php, .python, .bash],
    plain "do_statement" .loop [.c, .cpp, .csharp, .java, .javascript, .typescript, .tsx, .php],
    plain "do_while_statement" .loop [.kotlin],
    plain "foreach_statement" .loop [.csharp, .php],
    plain "for_in_statement" .loop [.javascript, .typescript, .tsx],
    plain "enhanced_for_statement" .loop [.java],
    plain "for_range_loop" .loop [.cpp],
    plain "c_style_for_statement" .loop [.bash],
    plain "for_expression" .loop [.rust],
    plain "while_expression" .loop [.rust],
    plain "loop_expression" .loop [.rust],
    plain "while" .loop [.ruby],
    plain "until" .loop [.ruby],
    plain "for" .loop [.ruby],
    plain "while_modifier" .loop [.ruby],
    plain "until_modifier" .loop [.ruby],
    plain "conditional_expression" .conditional [.c, .cpp, .csharp, .php, .python],
    plain "ternary_expression" .conditional [.java, .javascript, .typescript, .tsx, .bash],
    plain "conditional" .conditional [.ruby],
    plain "catch_clause" .handler [.cpp, .csharp, .java, .javascript, .typescript, .tsx, .php],
    plain "except_clause" .handler [.python],
    plain "rescue" .handler [.ruby],
    plain "catch_block" .handler [.kotlin],
    plain "binary_expression" .binaryOperation [.c, .cpp, .csharp, .go, .java, .kotlin,
      .javascript, .typescript, .tsx, .php, .rust],
    operator "logical_and" .logicalOperation "binary_expression" "&&" [.c, .cpp, .csharp, .go,
      .java, .kotlin, .javascript, .typescript, .tsx, .php, .rust],
    operator "logical_or" .logicalOperation "binary_expression" "||" [.c, .cpp, .csharp, .go,
      .java, .kotlin, .javascript, .typescript, .tsx, .php, .rust],
    operator "null_coalescing" .logicalOperation "binary_expression" "??" [.csharp, .javascript,
      .typescript, .tsx, .php],
    operator "elvis" .logicalOperation "binary_expression" "?:" [.kotlin],
    operator "logical_and_keyword" .logicalOperation "binary_expression" "and" [.cpp, .php],
    operator "logical_or_keyword" .logicalOperation "binary_expression" "or" [.cpp, .php],
    operator "boolean_and" .logicalOperation "boolean_operator" "and" [.python],
    operator "boolean_or" .logicalOperation "boolean_operator" "or" [.python],
    operator "ruby_logical_and" .logicalOperation "binary" "&&" [.ruby],
    operator "ruby_logical_or" .logicalOperation "binary" "||" [.ruby],
    operator "ruby_keyword_and" .logicalOperation "binary" "and" [.ruby],
    operator "ruby_keyword_or" .logicalOperation "binary" "or" [.ruby],
    operator "bash_logical_and" .logicalOperation "list" "&&" [.bash],
    operator "bash_logical_or" .logicalOperation "list" "||" [.bash],
    plain "case_statement" .caseLabel [.c, .cpp, .php],
    plain "default_statement" .defaultLabel [.php],
    plain "switch_case" .caseLabel [.javascript, .typescript, .tsx],
    plain "switch_default" .defaultLabel [.javascript, .typescript, .tsx],
    plain "expression_case" .caseLabel [.go],
    plain "type_case" .caseLabel [.go],
    plain "communication_case" .caseLabel [.go],
    plain "default_case" .defaultLabel [.go],
    plain "match_conditional_expression" .caseLabel [.php],
    plain "match_default_expression" .defaultLabel [.php],
    plain "switch_label" .caseLabel [.java],
    plain "match_arm" .caseLabel [.rust],
    plain "case_clause" .caseLabel [.python],
    plain "when" .caseLabel [.ruby],
    plain "case_item" .caseLabel [.bash],
    plain "when_entry" .caseLabel [.kotlin],
    { plain "switch_section" .caseLabel [.csharp] with deactivated := [.csharp] },
    plain "function_definition" .function [.c, .cpp, .php, .python, .bash],
    plain "lambda_expression" .function [.cpp, .csharp, .java],
    plain "method_declaration" .function [.csharp, .go, .java, .php],
    plain "constructor_declaration" .function [.csharp, .java],
    plain "local_function_statement" .function [.csharp],
    plain "anonymous_method_expression" .function [.csharp],
    plain "destructor_declaration" .function [.csharp],
    plain "operator_declaration" .function [.csharp],
    plain "conversion_operator_declaration" .function [.csharp],
    plain "compact_constructor_declaration" .function [.java],
    plain "function_declaration" .function [.go, .kotlin, .javascript, .typescript, .tsx],
    plain "function_expression" .function [.javascript, .typescript, .tsx],
    plain "generator_function_declaration" .function [.javascript, .typescript, .tsx],
    plain "generator_function" .function [.javascript, .typescript, .tsx],
    plain "method_definition" .function [.javascript, .typescript, .tsx],
    plain "arrow_function" .function [.javascript, .typescript, .tsx, .php],
    plain "func_literal" .function [.go],
    plain "anonymous_function" .function [.kotlin, .php],
    plain "lambda" .function [.python, .ruby],
    plain "method" .function [.ruby],
    plain "singleton_method" .function [.ruby],
    plain "function_item" .function [.rust],
    plain "closure_expression" .function [.rust],
    plain "lambda_literal" .function [.kotlin],
    plain "secondary_constructor" .function [.kotlin],
    plain "class_declaration" .classType [.csharp, .java, .kotlin, .javascript, .typescript, .tsx,
      .php],
    plain "class_definition" .classType [.python],
    plain "class" .classType [.javascript, .typescript, .tsx, .ruby],
    plain "object_declaration" .classType [.kotlin],
    plain "companion_object" .classType [.kotlin],
    plain "object_literal" .classType [.kotlin],
    plain "abstract_class_declaration" .classType [.typescript, .tsx],
    plain "interface_declaration" .interfaceType [.csharp, .java, .typescript, .tsx, .php],
    plain "interface_type" .interfaceType [.go],
    plain "enum_declaration" .enumType [.csharp, .java, .typescript, .tsx, .php],
    plain "enum_item" .enumType [.rust],
    plain "struct_declaration" .structType [.csharp],
    plain "struct_item" .structType [.rust],
    plain "struct_type" .structType [.go],
    plain "record_declaration" .recordType [.csharp, .java],
    plain "union_item" .unionType [.rust],
    plain "trait_item" .traitType [.rust],
    plain "trait_declaration" .traitType [.php],
    plain "comment" .comment [.c, .cpp, .csharp, .go, .javascript, .typescript, .tsx, .php,
      .python, .ruby, .bash, .json, .yaml],
    plain "line_comment" .comment [.java, .kotlin, .rust],
    plain "block_comment" .comment [.java, .kotlin, .rust],
    plain "object" .nesting [.json],
    plain "array" .nesting [.json],
    plain "block_node" .nesting [.yaml],
    plain "else_clause" .other [.c, .cpp, .javascript, .typescript, .tsx, .python, .rust]
  ]

def builtin : Registry := ⟨builtinRecords⟩

end SourceGauge.Registry
