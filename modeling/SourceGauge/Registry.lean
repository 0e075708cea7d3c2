/-
# SourceGauge.Registry -- which node kinds stand for which construct

A registry is a list of records.  A record gives a kind of grammar node a
category, the languages that have it, and the languages in which it is not
counted.  Being applicable and being activated are separate: a construct counts
in a language only when it is both (`Record.isActive`).

`Registry.ofRecords` accepts a list when its names are non-empty and pairwise
distinct and every operator is non-empty and belongs to a binary expression;
the first record at fault decides the error.
-/
import SourceGauge.Language

namespace SourceGauge

set_option autoImplicit false

/-- The construct that a kind of node stands for. -/
inductive Category where
  | other
  | logicalOperation
  | binaryOperation
  | comment
  | function
  | nesting
  | caseLabel
  | defaultLabel
  | branch
  | loop
  | handler
  | conditional
  | classType
  | enumType
  | structType
  | recordType
  | unionType
  | traitType
  | interfaceType
  deriving DecidableEq, Repr

namespace Category

def name : Category → String
  | other => ""
  | logicalOperation => "logical_binary_expression"
  | binaryOperation => "binary_expression"
  | comment => "comment"
  | function => "function"
  | nesting => "nesting"
  | caseLabel => "case_label"
  | defaultLabel => "default_label"
  | branch => "if"
  | loop => "loop"
  | handler => "catch_block"
  | conditional => "conditional"
  | classType => "class_definition"
  | enumType => "enum_definition"
  | structType => "struct_definition"
  | recordType => "record_definition"
  | unionType => "c_union_definition"
  | traitType => "trait_definition"
  | interfaceType => "interface_definition"

def all : List Category :=
  [other, logicalOperation, binaryOperation, comment, function, nesting, caseLabel, defaultLabel,
    branch, loop, handler, conditional, classType, enumType, structType, recordType, unionType,
    traitType, interfaceType]

def ofName? (text : String) : Option Category := all.find? fun category => category.name = text

theorem ofName?_name (category : Category) : ofName? category.name = some category := by
  cases category <;> decide

def typeDefinitions : List Category :=
  [classType, enumType, structType, recordType, unionType, traitType, interfaceType]

def allowsOperator : Category → Bool
  | logicalOperation => true
  | binaryOperation => true
  | _ => false

end Category

/-- One kind of node.  The sets of languages are kept sorted
(`Language.sorted`). -/
structure Record where
  /-- The identity of the record, and the grammar's name of the kind unless
  `grammarName` gives another. -/
  typeName : String
  category : Category
  languages : List Language
  deactivated : List Language := []
  grammarName : Option String := none
  operator : Option String := none
  deriving DecidableEq, Repr

namespace Record

def kind (record : Record) : String := record.grammarName.getD record.typeName

def isApplicable (record : Record) (language : Language) : Bool :=
  record.languages.contains language

/-- The kind is counted in the languages that have it. -/
def isActivated (record : Record) (language : Language) : Bool :=
  !record.deactivated.contains language

def isActive (record : Record) (language : Language) : Bool :=
  record.isApplicable language && record.isActivated language

end Record

/-- Why a registry is refused. -/
inductive RegistryError where
  /-- The document is not a JSON list of records. -/
  | unreadable
  | emptyName
  | duplicateName (name : String)
  /-- An operator that is empty, or whose record is no binary expression. -/
  | misplacedOperator (name operator : String)
  /-- An operator was asked of a record that has none. -/
  | noOperator (name : String)
  deriving DecidableEq, Repr

def RegistryError.message (error : RegistryError) : String :=
  "Invalid node type registry: " ++
    match error with
    | .unreadable => "not a list of records"
    | .emptyName => "empty type_name"
    | .duplicateName name => "duplicate type_name '" ++ name ++ "'"
    | .misplacedOperator name operator =>
        "'" ++ name ++ "' carries operator '" ++ operator ++
          "' but is not a binary expression record"
    | .noOperator name => "'" ++ name ++ "' has no operator"

/-- An accepted list of records. -/
structure Registry where
  records : List Record
  deriving DecidableEq, Repr

namespace Registry

/-- The first fault of a record that follows records with the names `seen`. -/
def fault? (seen : List String) (record : Record) : Option RegistryError :=
  if record.typeName = "" then some .emptyName
  else if seen.contains record.typeName then some (.duplicateName record.typeName)
  else
    match record.operator with
    | none => none
    | some operator =>
        if operator = "" ∨ record.category.allowsOperator = false then
          some (.misplacedOperator record.typeName operator)
        else none

/-- The first fault of the records that follow records with the names `seen`. -/
def firstFault? (seen : List String) : List Record → Option RegistryError
  | [] => none
  | record :: rest =>
      match fault? seen record with
      | some error => some error
      | none => firstFault? (record.typeName :: seen) rest

def ofRecords (records : List Record) : Except RegistryError Registry :=
  match firstFault? [] records with
  | some error => .error error
  | none => .ok ⟨records⟩

def get? (registry : Registry) (typeName : String) : Option Record :=
  registry.records.find? fun record => record.typeName = typeName

def inCategories (registry : Registry) (categories : List Category) : List Record :=
  registry.records.filter fun record => categories.contains record.category

def inCategory (registry : Registry) (category : Category) : List Record :=
  registry.records.filter fun record => record.category = category

def languageHas (registry : Registry) (category : Category) (language : Language) : Bool :=
  (registry.inCategory category).any fun record => record.isApplicable language

def activeKinds (registry : Registry) (category : Category) (language : Language) : List String :=
  ((registry.inCategory category).filter fun record => record.isActive language).map Record.kind

end Registry

end SourceGauge
