/-
# SourceGauge.Progress -- how far a run has come

A run announces what it does in `Progress.Event`s.  The count of processed files
starts again with every phase (`Progress.apply`).
-/

namespace SourceGauge

set_option autoImplicit false

/-- The number of files processed in the current phase. -/
structure Progress where
  processed : UInt64 := 0
  deriving DecidableEq, Repr

namespace Progress

/-- What a run announces. -/
inductive Event where
  /-- A phase begins, with the number of its files when that is known. -/
  | start (total : Option UInt64)
  /-- So many more files were processed. -/
  | advance (amount : UInt64)
  | message
  | finish
  deriving DecidableEq, Repr

def apply (progress : Progress) : Event → Progress
  | .start _ => { processed := 0 }
  | .advance amount => { processed := progress.processed + amount }
  | .message => progress
  | .finish => progress

end Progress

end SourceGauge
