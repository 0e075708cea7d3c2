/-
# SourceGauge.Coupling.Analyzer -- the coupling of a set of files

What each file declares and refers to is collected file by file, in any order
(`Analyzer.collect`); a path is collected once.  `Analyzer.aggregate` then
resolves the relationships over all files, in the order of their paths: all
direct ones first, then those that each file gains from its call chains.
-/
import SourceGauge.Coupling.Measures

namespace SourceGauge.Coupling

set_option autoImplicit false

/-- What one file declares and refers to. -/
structure FileCoupling where
  types : FileTypes
  accessors : List Accessor
  candidates : List Candidate
  calls : List CallChain

def FileCoupling.ofFile (profile : Profile) (queries : Queries) (file : ParsedFile) :
    FileCoupling :=
  let types := declaredTypes profile queries file
  let usages := usagesOf profile queries file types
  { types
    accessors := accessorsOf profile queries file types
    candidates := usages.candidates
    calls := usages.calls }

/-- Relationships with the measures of the files they join. -/
structure CouplingResult where
  relationships : List Relationship := []
  measures : PathMap CouplingMeasures := []

/-- The result with every path changed; of files that become one, the last one's
measures count. -/
def CouplingResult.mapPaths (result : CouplingResult) (change : Path → Path) : CouplingResult :=
  { relationships := result.relationships.map fun r =>
      { r with fromFile := change r.fromFile, toFile := change r.toFile }
    measures := PathMap.ofLast (result.measures.map fun item => (change item.1, item.2)) }

/-- The files collected so far. -/
structure Analyzer where
  files : PathMap FileCoupling := []

namespace Analyzer

/-- Collect a file, if its language has a profile and its path is new. -/
def collect [Grammars] (analyzer : Analyzer) (file : ParsedFile) (cache : Query.Cache) :
    Except Query.CompileError Analyzer × Query.Cache :=
  match profile? file.language with
  | none => (.ok analyzer, cache)
  | some profile =>
      match analyzer.files.find? file.path with
      | some _ => (.ok analyzer, cache)
      | none =>
          match profile.compile cache with
          | (.error error, cache) => (.error error, cache)
          | (.ok queries, cache) =>
              (.ok ⟨analyzer.files.insert file.path (.ofFile profile queries file)⟩, cache)

def types (analyzer : Analyzer) : List DeclaredType :=
  analyzer.files.flatMap fun item => item.2.types

def accessors (analyzer : Analyzer) : List Accessor :=
  analyzer.files.flatMap fun item => item.2.accessors

def direct (analyzer : Analyzer) : List Relationship :=
  addAllDirect analyzer.types [] (analyzer.files.flatMap fun item => item.2.candidates)

def addChained (accessors : List Accessor) (direct : List Relationship) :
    List Relationship → PathMap FileCoupling → List Relationship
  | known, [] => known
  | known, (path, file) :: rest =>
      addChained accessors direct (known ++ followCalls accessors direct known path file.calls) rest

/-- The relationships of all files. -/
def relationships (analyzer : Analyzer) : List Relationship :=
  addChained analyzer.accessors analyzer.direct analyzer.direct analyzer.files

def aggregate (analyzer : Analyzer) : CouplingResult :=
  { relationships := analyzer.relationships
    measures := couplingMeasures analyzer.relationships }

end Analyzer

end SourceGauge.Coupling
