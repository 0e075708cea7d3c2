/-
# SourceGauge.Report -- the document that a run leaves

What a run found (`Findings`) becomes a report of three lists: one entry for each
file that was measured, one notice for each file that was not measured fully,
and one link for each relationship.  The coupling of a file joins the entry of
its name, or makes an entry of its own (`addCoupling`).

Within an entry the quantities stand in the order of their names
(`setQuantity`).  Shares are written by the layout `shareLayout`.
-/
import SourceGauge.Coupling.Analyzer
import SourceGauge.Decimal.Shortest
import SourceGauge.Json
import SourceGauge.Metric

namespace SourceGauge

set_option autoImplicit false

open Coupling (CouplingMeasures CouplingResult Relationship)

/-- What a run found. -/
structure Findings where
  measures : PathMap FileMeasures := []
  /-- Files whose name fits no language. -/
  unsupported : List Path := []
  /-- Files of a language that could not be read. -/
  unreadable : List Path := []
  coupling : Option CouplingResult := none

namespace Report

/-- A number that a report gives for a file. -/
inductive Quantity where
  | count (n : Nat)
  | share (x : Decimal.Binary)
  deriving DecidableEq, Repr

/-- Quantities by name, in the order of their names. -/
abbrev Quantities := List (String × Quantity)

/-- Set a quantity, replacing one of the same name. -/
def setQuantity (name : String) (value : Quantity) : Quantities → Quantities
  | [] => [(name, value)]
  | (other, old) :: rest =>
      if name = other then (name, value) :: rest
      else if name < other then (name, value) :: (other, old) :: rest
      else (other, old) :: setQuantity name value rest

def setAll (new : List (String × Quantity)) (quantities : Quantities) : Quantities :=
  new.foldl (fun quantities item => setQuantity item.1 item.2 quantities) quantities

/-- A file with its quantities. -/
structure Entry where
  name : String
  kind : FileKind
  quantities : Quantities
  deriving DecidableEq, Repr

/-- A file that was not measured fully, and why. -/
structure Notice where
  name : String
  kind : FileKind
  message : String
  deriving DecidableEq, Repr

/-- A dependency of one file on another. -/
structure Link where
  source : String
  target : String
  deriving DecidableEq, Repr

end Report

/-- The document that a run leaves. -/
structure Report where
  entries : List Report.Entry
  notices : List Report.Notice
  links : List Report.Link
  deriving DecidableEq, Repr

namespace Report

/-! ## From findings -/

def entryOf (path : Path) (measures : FileMeasures) : Entry :=
  { name := path.text
    kind := measures.kind
    quantities := setAll (measures.values.map fun item => (item.1.name, .count item.2)) [] }

def couplingQuantities (measures : CouplingMeasures) : List (String × Quantity) :=
  [("outgoing_dependencies", .count measures.outgoing),
    ("incoming_dependencies", .count measures.incoming),
    ("coupling_between_objects", .count measures.total),
    ("instability", .share measures.instability)]

/-- Add the coupling of a file to the first entry of its name, or as an entry. -/
def addCoupling (name : String) (measures : CouplingMeasures) : List Entry → List Entry
  | [] => [⟨name, .sourceCode, setAll (couplingQuantities measures) []⟩]
  | entry :: rest =>
      if entry.name = name then
        { entry with quantities := setAll (couplingQuantities measures) entry.quantities } :: rest
      else entry :: addCoupling name measures rest

def entriesOf (found : Findings) : List Entry :=
  let entries := found.measures.map fun item => entryOf item.1 item.2
  match found.coupling with
  | none => entries
  | some coupling =>
      coupling.measures.foldl (fun entries item => addCoupling item.1.text item.2 entries) entries

/-- What a notice says of a file whose name fits no language. -/
def unknownLanguage : String := "Unknown language or file extension"

/-- What a notice says of a file that could not be read. -/
def noTree : String := "Error while parsing a syntax tree for the file"

/-- What a notice says of a file with metrics that could not be had. -/
def failedMetrics (failures : List MetricFailure) : String :=
  "Error while calculating the following metric(s) for the file:" ++
    String.join (failures.map fun failure => " " ++ failure.metric.name)

def failureNotice? (path : Path) (measures : FileMeasures) : Option Notice :=
  if measures.failures.isEmpty then none
  else some ⟨path.text, .unreadable, failedMetrics measures.failures⟩

/-- All notices: unsupported files, unreadable ones, then failed metrics. -/
def noticesOf (found : Findings) : List Notice :=
  (found.unsupported.map fun path => ⟨path.text, .unsupported, unknownLanguage⟩) ++
    (found.unreadable.map fun path => ⟨path.text, .unreadable, noTree⟩) ++
    found.measures.filterMap fun item => failureNotice? item.1 item.2

def linksOf (found : Findings) : List Link :=
  match found.coupling with
  | none => []
  | some coupling =>
      coupling.relationships.map fun relationship =>
        ⟨relationship.fromFile.text, relationship.toFile.text⟩

/-- The report of what a run found. -/
def ofFindings (found : Findings) : Report :=
  { entries := entriesOf found
    notices := noticesOf found
    links := linksOf found }

/-! ## As a document -/

/-- Shares are written out from the fifth place after the point to the sixteenth
before it, and a positive exponent has its sign. -/
def shareLayout : Decimal.Layout where
  plainFrom := -5
  plainBelow := 16
  positiveExponent := "+"

def linkWeight : Nat := 100

def Quantity.toJson : Quantity → Json
  | count n => .nat n
  | share x => .number (shareLayout.renderBinary x)

def Entry.toJson (entry : Entry) : Json :=
  .record
    [("name", .string entry.name),
      ("type", .string entry.kind.name),
      ("metrics", .record (entry.quantities.map fun item => (item.1, item.2.toJson)))]

def Notice.toJson (notice : Notice) : Json :=
  .record
    [("name", .string notice.name),
      ("type", .string notice.kind.name),
      ("message", .string notice.message)]

def Link.toJson (link : Link) : Json :=
  .record
    [("from", .string link.source),
      ("to", .string link.target),
      ("metrics", .record [("coupling", .nat linkWeight)])]

def toJson (report : Report) : Json :=
  .record
    [("nodes", .array (report.entries.map Entry.toJson)),
      ("info", .array (report.notices.map Notice.toJson)),
      ("relationships", .array (report.links.map Link.toJson))]

end Report

end SourceGauge
