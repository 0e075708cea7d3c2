/-
# SourceGauge.Report.Output -- writing a report to a file

A report is written as one line of JSON.  A compressed one goes to a path with
the extension `gz`, which is appended to a path without it (`Report.target`).
-/
import SourceGauge.Disk
import SourceGauge.Json.Printer
import SourceGauge.Report

namespace SourceGauge

set_option autoImplicit false

/-- A report could not be written. -/
structure WriteError where
  target : Path
  error : FileError
  deriving DecidableEq, Repr

def WriteError.message (failure : WriteError) : String :=
  "Cannot write output file " ++ failure.target.text ++ ": " ++ failure.error.message

namespace Report

/-- Where a report is written, given where it should go. -/
def target (output : Path) (compress : Bool) : Path :=
  if compress ∧ output.extension? ≠ some "gz" then ⟨output.text ++ ".gz"⟩ else output

def toFile (report : Report) (compress : Bool) : StoredFile :=
  { text := some report.toJson.render, compressed := compress }

/-- Write a report; the result is where it went and the disk after. -/
def save (report : Report) (disk : Disk) (output : Path) (compress : Bool) :
    Except WriteError (Path × Disk) :=
  match disk.write (target output compress) (report.toFile compress) with
  | .ok disk => .ok (target output compress, disk)
  | .error error => .error ⟨target output compress, error⟩

end Report

end SourceGauge
