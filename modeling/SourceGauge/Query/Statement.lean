/-
# SourceGauge.Query.Statement -- patterns that languages contribute to a query

A statement is one line of a query, with the languages whose grammar has the
shape and those in which it is not counted.  The text of a query for a language
is the statements active in it, a line each (`Statement.assemble`).
-/
import SourceGauge.Registry
import SourceGauge.Text.Split

namespace SourceGauge

set_option autoImplicit false

/-- One pattern contributed to a query. -/
inductive Statement where
  /-- A pattern for every language. -/
  | simple (text : String)
  /-- Every node of a kind. -/
  | kind (name : String) (applicable deactivated : List Language)
  /-- The nodes of a kind with one value in their `operator` field. -/
  | operator (name sign : String) (applicable deactivated : List Language)
  /-- A pattern written out for some languages. -/
  | written (text : String) (applicable deactivated : List Language)
  deriving DecidableEq, Repr

namespace Statement

/-- Every node of a record's kind. -/
def ofRecord (record : Record) : Statement :=
  kind record.kind record.languages record.deactivated

def ofOperator (record : Record) : Except RegistryError Statement :=
  match record.operator with
  | some text => .ok (operator record.kind text record.languages record.deactivated)
  | none => .error (.noOperator record.typeName)

def forLanguages (text : String) (languages : List Language) : Statement :=
  written text (Language.sorted languages) []

def text : Statement → String
  | simple text => text
  | kind name _ _ => "(" ++ name ++ ") @" ++ name
  | operator name sign _ _ =>
      "(" ++ name ++ " operator: \"" ++ sign ++ "\") @operator_expression"
  | written text _ _ => text

def isApplicable (language : Language) : Statement → Bool
  | simple _ => true
  | kind _ applicable _ => applicable.contains language
  | operator _ _ applicable _ => applicable.contains language
  | written _ applicable _ => applicable.contains language

/-- Matches of the statement are counted in the languages that have it. -/
def isActivated (language : Language) : Statement → Bool
  | simple _ => true
  | kind _ _ deactivated => !deactivated.contains language
  | operator _ _ _ deactivated => !deactivated.contains language
  | written _ _ deactivated => !deactivated.contains language

/-- The statement takes part in queries of the language. -/
def isActive (language : Language) (statement : Statement) : Bool :=
  statement.isApplicable language && statement.isActivated language

/-- The texts of the statements that take part in queries of a language. -/
def activeTexts (language : Language) (statements : List Statement) : List String :=
  (statements.filter (isActive language)).map text

theorem activeTexts_append (language : Language) (first second : List Statement) :
    activeTexts language (first ++ second) =
      activeTexts language first ++ activeTexts language second := by
  simp [activeTexts]

/-- The query text of some statements for a language. -/
def assemble (language : Language) (statements : List Statement) : String :=
  Text.join "\n" (activeTexts language statements)

end Statement

end SourceGauge
