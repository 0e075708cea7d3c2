/-
# SourceGauge.Run -- measuring everything below a path

A run discovers the files below the sources, measures each, and then resolves
the coupling of those whose language has a profile.  Compiled queries are shared
between the files (`Worker`), which changes no measure.

The files are measured under the paths that discovery gives; `Findings` hold
them under the paths that are printed (`Findings.add`).
-/
import SourceGauge.Metric.Measure
import SourceGauge.Progress
import SourceGauge.Report
import SourceGauge.Settings

namespace SourceGauge

set_option autoImplicit false

variable [Grammars]

/-! ## Measuring files -/

/-- What is kept from file to file. -/
structure Worker where
  cache : Query.Cache := {}
  /-- The files collected for coupling, when that is wanted. -/
  analyzer : Option Coupling.Analyzer := none

namespace Worker

/-- Collect a file for coupling, when that is wanted.  A file that cannot be
collected is left out. -/
def collect (worker : Worker) : SourceFile → Worker
  | .parsed file =>
      match worker.analyzer with
      | none => worker
      | some analyzer =>
          match analyzer.collect file worker.cache with
          | (.ok analyzer, cache) => { cache, analyzer := some analyzer }
          | (.error _, cache) => { worker with cache }
  | _ => worker

def measure (registry : Registry) (worker : Worker) (file : SourceFile) : FileMeasures × Worker :=
  let (measures, cache) := file.measure registry worker.cache
  (measures, { worker with cache }.collect file)

def measureAll (registry : Registry) :
    Worker → List (Path × SourceFile) → List (Path × FileMeasures) × Worker
  | worker, [] => ([], worker)
  | worker, (path, file) :: rest =>
      let (measures, worker) := worker.measure registry file
      let (others, worker) := measureAll registry worker rest
      ((path, measures) :: others, worker)

end Worker

/-! ## What a run finds -/

/-- Add what was measured of a file, under the path that is printed.  A file that
could not be read has no measures. -/
def Findings.add (print : Path → Path) (found : Findings) (path : Path) (measures : FileMeasures) :
    Findings :=
  match measures.kind with
  | .unreadable => { found with unreadable := found.unreadable ++ [print path] }
  | .unsupported =>
      { found with
        unsupported := found.unsupported ++ [print path]
        measures := found.measures.insert (print path) measures }
  | _ => { found with measures := found.measures.insert (print path) measures }

/-- The findings of measured files, under the paths that are printed. -/
def Findings.ofMeasures (print : Path → Path) (measured : List (Path × FileMeasures)) : Findings :=
  measured.foldl (fun found item => found.add print item.1 item.2) {}

namespace Settings

def headerPolicy (settings : Settings) : HeaderPolicy :=
  { root := settings.sources, allAsC := settings.allHeadersAsC, names := settings.headersAsC }

def print (settings : Settings) (path : Path) : Path :=
  path.printed settings.sources settings.relativePaths

def sourceFiles (settings : Settings) (disk : Disk) : List (Path × SourceFile) :=
  (disk.discover settings.sources settings.exclusions).map fun path =>
    (path, .load settings.headerPolicy disk path)

def worker (settings : Settings) : Worker :=
  { analyzer := if settings.withCoupling then some {} else none }

end Settings

/-- Measure everything below the sources. -/
def survey (registry : Registry) (disk : Disk) (settings : Settings) : Findings :=
  let (measured, worker) := settings.worker.measureAll registry (settings.sourceFiles disk)
  { Findings.ofMeasures settings.print measured with
    coupling := worker.analyzer.map fun analyzer => analyzer.aggregate.mapPaths settings.print }

/-- Check the settings and measure everything below the sources. -/
def run (registry : Registry) (disk : Disk) (settings : Settings) :
    Except SettingsError Findings :=
  match settings.check (disk.hasItem settings.sources) with
  | .ok _ => .ok (survey registry disk settings)
  | .error error => .error error

def announcements (settings : Settings) (files : Nat) : List Progress.Event :=
  .start (some (.ofNat files)) :: List.replicate files (.advance 1) ++ [.finish] ++
    if settings.withCoupling then [.message] else []

end SourceGauge
