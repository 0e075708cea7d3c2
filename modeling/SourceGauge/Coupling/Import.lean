/-
# SourceGauge.Coupling.Import -- names, and the imports that bind them

A qualified name is segments joined by a delimiter; the empty namespace joins
without one (`qualified`).  An import has the full name of a namespace or type
and is referred to by its alias, or else by its last segment
(`Import.binding`).
-/
import SourceGauge.Syntax.Node
import SourceGauge.Text.Split

namespace SourceGauge.Coupling

set_option autoImplicit false

def qualified (space delimiter name : String) : String :=
  if space = "" then name else space ++ delimiter ++ name

/-- A name that a file imports. -/
structure Import where
  fullName : String
  /-- The last segment of the full name. -/
  typeName : String
  /-- The alias that it is given. -/
  localName : Option String
  deriving DecidableEq, Repr

namespace Import

/-- The import of a full name, whose leading delimiters do not count; an empty
alias is none. -/
def ofName (fullName delimiter : String) (localName : Option String) : Import :=
  let fullName := Text.trimLeading delimiter fullName
  { fullName
    typeName := Text.lastSegment delimiter fullName
    localName := localName.filter fun text => text ≠ "" }

def binding (declared : Import) : String := declared.localName.getD declared.typeName

end Import

/-- The import that a name is bound to: a later import of the same name hides an
earlier one. -/
def boundBy? (imports : List Import) (name : String) : Option Import :=
  imports.reverse.find? fun declared => declared.binding = name

/-! ## Reading imports -/

/-- The kinds of node that a `using` directive may name. -/
def directiveTargets : List String :=
  ["qualified_name", "identifier", "alias_qualified_name", "generic_name"]

def namedOutside (node : Node) (field : String) : List Node :=
  match node.children.findIdx? fun child => child.label.field = some field with
  | some index => (node.children.eraseIdx index).filter Node.isNamed
  | none => node.namedChildren

/-- The import of a `using` directive: its last name outside the alias. -/
def readDirective (delimiter : String) (node : Node) (source : String) : List Import :=
  let localName := (node.childByField? "name").map fun name => name.text source
  let targets := (namedOutside node "name").filter fun child => directiveTargets.contains child.kind
  match targets.getLast? with
  | none => []
  | some target => [.ofName (target.text source) delimiter localName]

/-- The import of one clause of a `use` declaration, below a common namespace. -/
def readClause? (delimiter space : String) (clause : Node) (source : String) : Option Import :=
  let localName := (clause.childByField? "alias").map fun name => name.text source
  let target := (namedOutside clause "alias").find? fun child =>
    child.kind = "name" || child.kind = "qualified_name"
  target.map fun target =>
    .ofName (qualified space delimiter (target.text source)) delimiter localName

/-- The imports of a `use` declaration; a group has a common namespace and its
clauses in its body. -/
def readUse (delimiter : String) (node : Node) (source : String) : List Import :=
  let group : String × Node := match node.childByField? "body" with
    | some body =>
        (((node.childOfKind? "namespace_name").map fun name => name.text source).getD "", body)
    | none => ("", node)
  (group.2.namedChildren.filter fun child => child.kind = "namespace_use_clause").filterMap
    fun clause => readClause? delimiter group.1 clause source

/-- The two forms of an import declaration. -/
inductive ImportForm where
  | directive
  | use
  deriving DecidableEq, Repr

def ImportForm.read : ImportForm → String → Node → String → List Import
  | directive => readDirective
  | use => readUse

end SourceGauge.Coupling
