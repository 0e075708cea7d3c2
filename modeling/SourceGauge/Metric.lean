/-
# SourceGauge.Metric -- what is measured of a file

Eight metrics give one number each for a file.  A metric that could not be had
is a failure with its text; it never stops the others.  Program code and data
formats each have a fixed list of metrics, in the order in which they are
reported (`FileKind.metrics`).
-/
import SourceGauge.Language

namespace SourceGauge

set_option autoImplicit false

/-- A metric of one file. -/
inductive Metric where
  | complexity
  | functions
  | classes
  | linesOfCode
  | commentLines
  | realLinesOfCode
  | maxNestingLevel
  | keywordsInComments
  deriving DecidableEq, Repr

namespace Metric

def name : Metric → String
  | complexity => "complexity"
  | functions => "functions"
  | classes => "classes"
  | linesOfCode => "lines_of_code"
  | commentLines => "comment_lines"
  | realLinesOfCode => "real_lines_of_code"
  | maxNestingLevel => "max_nesting_level"
  | keywordsInComments => "keywords_in_comments"

def all : List Metric :=
  [complexity, functions, classes, linesOfCode, commentLines, realLinesOfCode, maxNestingLevel,
    keywordsInComments]

def ofName? (text : String) : Option Metric := all.find? fun metric => metric.name = text

end Metric

/-- The metrics of the files that have a syntax tree, in the order in which they
are reported: all but nesting for program code, size and nesting for data. -/
def FileKind.metrics : FileKind → List Metric
  | structuredText => [.linesOfCode, .maxNestingLevel]
  | _ =>
      [.complexity, .functions, .classes, .linesOfCode, .commentLines, .realLinesOfCode,
        .keywordsInComments]

/-- A metric that could not be had, and why. -/
structure MetricFailure where
  metric : Metric
  reason : String
  deriving DecidableEq, Repr

def MetricFailure.message (failure : MetricFailure) : String :=
  failure.metric.name ++ ": " ++ failure.reason

/-- What was measured of one file. -/
structure FileMeasures where
  kind : FileKind
  values : List (Metric × Nat) := []
  failures : List MetricFailure := []
  deriving DecidableEq, Repr

def FileMeasures.value? (measures : FileMeasures) (metric : Metric) : Option Nat :=
  (measures.values.find? fun item => item.1 = metric).map (·.2)

end SourceGauge
