/-
# SourceGauge.Coupling.DeclaredType -- the types that a file declares

The captures of a types query are scanned in their order.  Open namespaces and
open types are kept with the byte at which they end, and those that ended before
a capture are closed (`Scan.closeBefore`); a namespace without a body lasts until
the next such one.  A base name goes to the innermost open type, which is kept by its
index among the types of the file.

Several declarations of one full name are one type: the first declaration gives
its kind and extent, and base names are added without repeats
(`FileTypes.insert`).
-/
import SourceGauge.Coupling.Profile
import SourceGauge.Query.Captures

namespace SourceGauge.Coupling

set_option autoImplicit false

/-- Whether a type is an interface or may be built. -/
inductive TypeKind where
  | concrete
  | interface
  deriving DecidableEq, Repr

def TypeKind.name : TypeKind → String
  | concrete => "class"
  | interface => "interface"

/-- A type declared in a file. -/
structure DeclaredType where
  space : String
  name : String
  kind : TypeKind
  file : Path
  delimiter : String
  /-- The names of the types that it extends. -/
  extended : List String := []
  /-- The names of the types that it implements, or may extend. -/
  implemented : List String := []
  /-- The extent of the declaration. -/
  span : Span
  deriving DecidableEq, Repr

namespace DeclaredType

def fullName (declared : DeclaredType) : String :=
  qualified declared.space declared.delimiter declared.name

end DeclaredType

/-! ## The types of a file -/

def addNew (names : List String) (name : String) : List String :=
  if names.contains name then names else names ++ [name]

/-- The sorts of base names: of a type that is extended, and of one that is implemented, or may
be extended. -/
inductive BaseSort where
  | extended
  | implemented
  deriving DecidableEq, Repr

def BaseSort.ofCapture? (name : String) : Option BaseSort :=
  if name = "extended_class" then some extended
  else if name = "implemented_class" then some implemented
  else none

namespace DeclaredType

def bases (declared : DeclaredType) : BaseSort → List String
  | .extended => declared.extended
  | .implemented => declared.implemented

def addBase (declared : DeclaredType) (sort : BaseSort) (base : String) : DeclaredType :=
  match sort with
  | .extended => { declared with extended := addNew declared.extended base }
  | .implemented => { declared with implemented := addNew declared.implemented base }

def merge (declared further : DeclaredType) : DeclaredType :=
  { declared with
    extended := further.extended.foldl addNew declared.extended
    implemented := further.implemented.foldl addNew declared.implemented }

end DeclaredType

/-- The types of one file, in the order of their first declaration. -/
abbrev FileTypes := List DeclaredType

namespace FileTypes

def get? (types : FileTypes) (fullName : String) : Option DeclaredType :=
  types.find? fun declared => declared.fullName = fullName

/-- Add a declaration, and tell the index of its type.  Of a full name that is there already, only
the base names are added. -/
def insert (types : FileTypes) (declared : DeclaredType) : FileTypes × Nat :=
  match types.findIdx? fun other => other.fullName = declared.fullName with
  | some index => (types.modify index fun other => other.merge declared, index)
  | none => (types ++ [declared], types.length)

def addBase (types : FileTypes) (index : Nat) (sort : BaseSort) (base : String) : FileTypes :=
  types.modify index fun declared => declared.addBase sort base

end FileTypes

/-! ## The scan -/

/-- An open namespace; without an end it lasts until the next of its sort. -/
structure OpenSpace where
  name : String
  stop : Option Nat
  deriving DecidableEq, Repr

/-- An open type declaration, by the index of its type and the byte at which it ends. -/
structure OpenType where
  index : Nat
  stop : Nat
  deriving DecidableEq, Repr

/-- What was scanned so far: the types, and what is open, outermost first. -/
structure Scan where
  types : FileTypes := []
  spaces : List OpenSpace := []
  openTypes : List OpenType := []

namespace Scan

def closeBefore (scan : Scan) (byte : Nat) : Scan :=
  { scan with
    spaces := scan.spaces.filter fun space =>
      match space.stop with
      | some stop => byte < stop
      | none => true
    openTypes := scan.openTypes.filter fun declared => byte < declared.stop }

def spaceName (scan : Scan) (delimiter : String) : String :=
  Text.join delimiter ((scan.spaces.map OpenSpace.name).filter fun name => name ≠ "")

def openSpace (scan : Scan) (source : String) (node : Node) : Scan :=
  let name := ((node.childByField? "name").map fun child => child.text source).getD ""
  match node.childByField? "body" with
  | some body => { scan with spaces := scan.spaces ++ [⟨name, some body.stop.byte⟩] }
  | none =>
      { scan with
        spaces := (scan.spaces.filter fun space => space.stop.isSome) ++ [⟨name, none⟩] }

def kindOf (node : Node) : TypeKind :=
  if node.kind = "interface_declaration" then .interface else .concrete

def typeOf? (scan : Scan) (file : Path) (delimiter source : String) (node : Node) :
    Option DeclaredType :=
  (node.childByField? "name").map fun name =>
    { space := scan.spaceName delimiter
      name := name.text source
      kind := kindOf node
      file
      delimiter
      span := node.span }

def declare (scan : Scan) (file : Path) (delimiter source : String) (node : Node) : Scan :=
  match scan.typeOf? file delimiter source node with
  | none => scan
  | some declared =>
      let (types, index) := scan.types.insert declared
      { scan with types, openTypes := scan.openTypes ++ [⟨index, node.stop.byte⟩] }

def addBase (scan : Scan) (sort : BaseSort) (base : String) : Scan :=
  match scan.openTypes.getLast? with
  | none => scan
  | some innermost => { scan with types := scan.types.addBase innermost.index sort base }

def step (file : Path) (delimiter source : String) (scan : Scan) (capture : Query.Capture) : Scan :=
  let scan := scan.closeBefore capture.node.start.byte
  if capture.name = "namespace" then scan.openSpace source capture.node
  else if capture.name = "type_declaration" then
    scan.declare file delimiter source capture.node
  else
    match BaseSort.ofCapture? capture.name with
    | none => scan
    | some sort => scan.addBase sort (capture.node.text source)

end Scan

/-- The types that the captures of a types query declare. -/
def scanTypes (file : Path) (delimiter source : String) (captures : List Query.Capture) :
    FileTypes :=
  (captures.foldl (Scan.step file delimiter source) {}).types

/-- The types that a file declares. -/
def declaredTypes (profile : Profile) (queries : Queries) (file : ParsedFile) : FileTypes :=
  scanTypes file.path profile.delimiter file.source (queries.types.captures file.source file.root)

end SourceGauge.Coupling
