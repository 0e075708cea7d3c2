/-
# SourceGauge.Coupling.Resolver -- from candidates to relationships

A relationship joins two declared types, and each ordered pair of types has at
most one.  Direct relationships are the candidates whose two ends are known
types (`addDirect`).  Call chains are then followed through accessors: a step
needs an anchor, a relationship from the file to a type that declares the
accessor, and leads to a type that the accessor's own file depends on and whose
name occurs in the accessor's type (`followSegment`).
-/
import SourceGauge.Coupling.Accessor
import SourceGauge.Coupling.Usage

namespace SourceGauge.Coupling

set_option autoImplicit false

/-- A dependency of one type on another. -/
structure Relationship where
  fromName : String
  toName : String
  fromFile : Path
  toFile : Path
  fromType : String
  toType : String
  kind : UsageKind
  deriving DecidableEq, Repr

def Relationship.joins (relationship : Relationship) (fromName toName : String) : Bool :=
  relationship.fromName = fromName && relationship.toName = toName

def areJoined (known : List Relationship) (fromName toName : String) : Bool :=
  known.any fun relationship => relationship.joins fromName toName

/-- The type of a full name; of several declarations the last one counts. -/
def typeNamed? (types : List DeclaredType) (fullName : String) : Option DeclaredType :=
  types.reverse.find? fun type => type.fullName = fullName

/-! ## Direct relationships -/

/-- The kind of a relationship to a type: a list of bases does not say whether
a base is a class or an interface, the declaration does. -/
def kindTowards (used : DeclaredType) : UsageKind → UsageKind
  | .implementation => if used.kind = .interface then .implementation else .extension
  | kind => kind

def relationshipOf? (types : List DeclaredType) (candidate : Candidate) : Option Relationship :=
  if candidate.used = candidate.origin then none
  else
    match typeNamed? types candidate.used, typeNamed? types candidate.origin with
    | some used, some origin =>
        some
          { fromName := candidate.origin
            toName := candidate.used
            fromFile := candidate.file
            toFile := used.file
            fromType := origin.name
            toType := used.name
            kind := kindTowards used candidate.kind }
    | _, _ => none

/-- Add the relationship of a candidate, unless its ends are joined already. -/
def addDirect (types : List DeclaredType) (known : List Relationship) (candidate : Candidate) :
    List Relationship :=
  match relationshipOf? types candidate with
  | none => known
  | some relationship =>
      if areJoined known relationship.fromName relationship.toName then known
      else known ++ [relationship]

def addAllDirect (types : List DeclaredType) (known : List Relationship)
    (candidates : List Candidate) : List Relationship :=
  candidates.foldl (addDirect types) known

/-! ## Chains -/

def leaving (file : Path) (relationships : List Relationship) : List Relationship :=
  relationships.filter fun relationship => file.same relationship.fromFile

/-- The relationship that a step adds: from the anchor's type to the first of the
dependencies that the accessor's type names and that is not joined yet; none
when that one is the anchor's type itself. -/
def stepTo? (known : List Relationship) (anchor : Relationship) (returnType : String) :
    List Relationship → Option Relationship
  | [] => none
  | dependency :: rest =>
      if !Text.contains dependency.toType returnType ||
          areJoined known anchor.fromName dependency.toName then
        stepTo? known anchor returnType rest
      else if anchor.fromName = dependency.toName then none
      else
        some
          { fromName := anchor.fromName
            toName := dependency.toName
            fromFile := anchor.fromFile
            toFile := dependency.toFile
            fromType := anchor.fromType
            toType := dependency.toType
            kind := .use }

/-- The step through an accessor of one declaring type, given the relationships
of the file and those it has gained.  `direct` are those whose files the chains
go through. -/
def stepThrough? (direct known own : List Relationship) (accessor : Accessor)
    (declaring : DeclaredType) : Option Relationship :=
  match own.find? fun relationship => relationship.toName = declaring.fullName with
  | none => none
  | some anchor => stepTo? known anchor accessor.returnType (leaving declaring.file direct)

def accessorsNamed (accessors : List Accessor) (name : String) : List (Accessor × DeclaredType) :=
  (accessors.filter fun accessor => accessor.name = name).flatMap fun accessor =>
    accessor.declaring.map fun declaring => (accessor, declaring)

/-- Follow one segment of a chain: the first accessor of its name that leads to a
new relationship adds it to those gained. -/
def followSegment (accessors : List Accessor) (direct known own gained : List Relationship)
    (segment : String) : List Relationship :=
  let name := (Text.stripEnd? "?" segment).getD segment
  match (accessorsNamed accessors name).findSome? fun pair =>
      stepThrough? direct (known ++ gained) (own ++ gained) pair.1 pair.2 with
  | some relationship => gained ++ [relationship]
  | none => gained

def CallChain.segments (call : CallChain) : List String :=
  let segments := Text.split call.delimiter call.text
  if call.hasReceiver then segments.tail else segments

def firstOfEach : List String → List CallChain → List CallChain
  | _, [] => []
  | seen, call :: rest =>
      if seen.contains call.text then firstOfEach seen rest
      else call :: firstOfEach (call.text :: seen) rest

/-- The relationships that a file gains from its call chains.  `direct` are the
relationships that chains go through, `known` all that there are. -/
def followCalls (accessors : List Accessor) (direct known : List Relationship) (file : Path)
    (calls : List CallChain) : List Relationship :=
  (firstOfEach [] calls).foldl
    (fun gained call =>
      call.segments.foldl (followSegment accessors direct known (leaving file direct)) gained)
    []

end SourceGauge.Coupling
