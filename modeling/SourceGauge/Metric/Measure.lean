/-
# SourceGauge.Metric.Measure -- measuring files

`Metric.measure` computes one metric of a parsed file; the compiled queries it
needs come from a cache, which it hands on.  `SourceFile.measure` computes the
metrics that a file's kind has, in their order.  A file without a grammar is
measured by the lines of its raw text, and a file that could not be read not at
all.
-/
import SourceGauge.Disk
import SourceGauge.Language.Detect
import SourceGauge.Metric
import SourceGauge.Metric.Comments
import SourceGauge.Metric.Nesting
import SourceGauge.Metric.Statements
import SourceGauge.Query.Cache

namespace SourceGauge

set_option autoImplicit false

variable [Grammars]

namespace Metric

/-- The number of matches of some statements; none apply: zero. -/
def countStatements (statements : List Statement) (file : ParsedFile) (cache : Query.Cache) :
    Except Query.CompileError Nat × Query.Cache :=
  match cache.build file.language statements with
  | (.ok (some query), cache) => (.ok (query.count file.source file.root), cache)
  | (.ok none, cache) => (.ok 0, cache)
  | (.error error, cache) => (.error error, cache)

/-- The comment nodes of a file, in the order of their matches. -/
def commentNodes (registry : Registry) (file : ParsedFile) (cache : Query.Cache) :
    Except Query.CompileError (List Node) × Query.Cache :=
  match cache.build file.language (commentStatements registry) with
  | (.ok (some query), cache) => (.ok (firstCaptures query file), cache)
  | (.ok none, cache) => (.ok [], cache)
  | (.error error, cache) => (.error error, cache)

/-- The number of rows of a file, empty ones included. -/
def rows (file : ParsedFile) : Nat := file.root.stop.row + 1

def keywordTotal (file : ParsedFile) (nodes : List Node) : Nat :=
  nodes.foldr (fun node count => keywordCount (node.text file.source) + count) 0

def measure (registry : Registry) (file : ParsedFile) (cache : Query.Cache) :
    Metric → Except Query.CompileError Nat × Query.Cache
  | complexity => countStatements (complexityStatements registry) file cache
  | functions => countStatements (functionStatements registry) file cache
  | classes => countStatements (classStatements registry) file cache
  | linesOfCode => (.ok (rows file), cache)
  | commentLines =>
      match commentNodes registry file cache with
      | (.ok nodes, cache) => (.ok (countRows none nodes), cache)
      | (.error error, cache) => (.error error, cache)
  | realLinesOfCode => (.ok (realLines registry file), cache)
  | maxNestingLevel => (.ok (nestingLevel registry file), cache)
  | keywordsInComments =>
      match commentNodes registry file cache with
      | (.ok nodes, cache) =>
          (.ok (keywordTotal file nodes), cache)
      | (.error error, cache) => (.error error, cache)

/-- Some metrics of a file, in order, added to what was measured before. -/
def measureAll (registry : Registry) (file : ParsedFile) :
    List Metric → FileMeasures → Query.Cache → FileMeasures × Query.Cache
  | [], measures, cache => (measures, cache)
  | metric :: rest, measures, cache =>
      match metric.measure registry file cache with
      | (.ok value, cache) =>
          measureAll registry file rest
            { measures with values := measures.values ++ [(metric, value)] } cache
      | (.error error, cache) =>
          measureAll registry file rest
            { measures with failures := measures.failures ++ [⟨metric, error.message⟩] } cache

end Metric

/-- A discovered file as far as it could be read. -/
inductive SourceFile where
  | parsed (file : ParsedFile)
  /-- No grammar fits the name; the raw text, if it could be read. -/
  | unsupported (path : Path) (content : Except FileError String)
  /-- A grammar fits, but there is no text or no tree. -/
  | unreadable (path : Path) (error : FileError)

namespace SourceFile

def kind : SourceFile → FileKind
  | parsed file => file.language.fileKind
  | unsupported _ _ => .unsupported
  | unreadable _ _ => .unreadable

/-- The file at a path, read in the language that its name has. -/
def load (policy : HeaderPolicy) (disk : Disk) (path : Path) : SourceFile :=
  match Language.ofPath? policy path with
  | none => unsupported path (disk.readText path)
  | some language =>
      match disk.findFile path with
      | .error error => unreadable path error
      | .ok stored =>
          match stored.read, stored.treeFor? language with
          | .error error, _ => unreadable path error
          | .ok _, none => unreadable path .noTree
          | .ok source, some root => parsed ⟨path, language, source, root⟩

def measure (registry : Registry) (file : SourceFile) (cache : Query.Cache) :
    FileMeasures × Query.Cache :=
  match file with
  | parsed parsedFile =>
      Metric.measureAll registry parsedFile file.kind.metrics { kind := file.kind } cache
  | unsupported _ (.ok text) =>
      ({ kind := .unsupported, values := [(.linesOfCode, Text.lineCount text)] }, cache)
  | unsupported _ (.error error) =>
      ({ kind := .unsupported, failures := [⟨.linesOfCode, error.message⟩] }, cache)
  | unreadable _ _ => ({ kind := .unreadable }, cache)

end SourceFile

end SourceGauge
