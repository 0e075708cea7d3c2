/-
# SourceGauge.Coupling.Accessor -- members that continue a call chain

The accessors of a type are the properties, fields and methods found within the
extent of its declaration, by name and by the text of the type they give.  One
found within several types, nested in one another, has all of them as declaring
types (`addAccessor`).
-/
import SourceGauge.Coupling.DeclaredType

namespace SourceGauge.Coupling

set_option autoImplicit false

/-- A member that can continue a call chain. -/
structure Accessor where
  name : String
  /-- The text of its type, possibly wrapped in type arguments or array marks. -/
  returnType : String
  file : Path
  /-- The full name of the first declaring type, with the name. -/
  fullName : String
  declaring : List DeclaredType
  deriving DecidableEq, Repr

/-- Add a member of a type: to the accessor of its name and type, if there is one,
or as a new one. -/
def addAccessor (file : Path) (delimiter name returnType : String) (type : DeclaredType) :
    List Accessor → List Accessor
  | [] =>
      [{ name, returnType, file
         fullName := type.fullName ++ delimiter ++ name
         declaring := [type] }]
  | accessor :: rest =>
      if accessor.name = name ∧ accessor.returnType = returnType then
        (if accessor.declaring.contains type then accessor
          else { accessor with declaring := accessor.declaring ++ [type] }) :: rest
      else accessor :: addAccessor file delimiter name returnType type rest

def captureText? (source name : String) (captures : List Query.Capture) : Option String :=
  (captures.find? fun capture => capture.name = name).map fun capture => capture.node.text source

def addMatch (file : Path) (delimiter source : String) (type : DeclaredType)
    (accessors : List Accessor) (found : Query.Match) : List Accessor :=
  match captureText? source "accessor_return_type" found.captures,
      captureText? source "accessor_name" found.captures with
  | some returnType, some name => addAccessor file delimiter name returnType type accessors
  | _, _ => accessors

def accessorsOf (profile : Profile) (queries : Queries) (file : ParsedFile) (types : FileTypes) :
    List Accessor :=
  match queries.accessors with
  | none => []
  | some query =>
      types.foldl
        (fun accessors type =>
          (query.matchesWithin file.source file.root type.span.startByte type.span.endByte).foldl
            (addMatch file.path profile.delimiter file.source type) accessors)
        []

end SourceGauge.Coupling
