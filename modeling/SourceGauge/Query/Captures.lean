/-
# SourceGauge.Query.Captures -- the order in which captures are reported

Captures of one tree are reported while the tree is walked in pre-order.  A
match joins a queue at the node that completes it, and then captures leave the
queue: always the one with the least start byte, then the least clause number,
then from the match queued first (`Queue.next?`).

A pattern whose first child has matched and captured while a later child is
still to capture holds back every capture that is not before its own first one,
until the walk leaves the pattern's root (`Hold`).
-/
import SourceGauge.Query.Pattern

namespace SourceGauge.Query

set_option autoImplicit false

/-! ## The queue -/

/-- The place of a capture in the order: its start byte and its clause. -/
abbrev Rank := Nat × Nat

/-- Smaller start byte first, then smaller clause. -/
def Rank.lt (a b : Rank) : Bool := if a.1 = b.1 then a.2 < b.2 else a.1 < b.1

/-- The captures of one match that are still to be reported. -/
structure Waiting where
  clause : Nat
  captures : List Capture

/-- The rank of the next capture of a match. -/
def Waiting.rank? (waiting : Waiting) : Option Rank :=
  waiting.captures.head?.map fun capture => (capture.node.start.byte, waiting.clause)

def leastRank? : List Waiting → Option Rank
  | [] => none
  | waiting :: rest =>
      match waiting.rank?, leastRank? rest with
      | none, other => other
      | some rank, none => some rank
      | some rank, some other => some (if other.lt rank then other else rank)

/-- Take the next capture of the first match whose next capture has the rank. -/
def takeRank (rank : Rank) : List Waiting → Option (Capture × List Waiting)
  | [] => none
  | waiting :: rest =>
      if waiting.rank? = some rank then
        match waiting.captures with
        | capture :: captures => some (capture, { waiting with captures } :: rest)
        | [] => none
      else (takeRank rank rest).map fun taken => (taken.1, waiting :: taken.2)

/-- The number of captures still to be reported. -/
def pending (queue : List Waiting) : Nat :=
  queue.foldr (fun waiting count => waiting.captures.length + count) 0

/-- The next capture of the queue, if it comes before the bound. -/
def nextCapture? (bound : Option Rank) (queue : List Waiting) : Option (Capture × List Waiting) :=
  match leastRank? queue with
  | none => none
  | some rank =>
      match bound with
      | none => takeRank rank queue
      | some limit => if rank.lt limit then takeRank rank queue else none

/-- Report captures as long as one comes before the bound, at most `limit`. -/
def release (bound : Option Rank) : Nat → List Waiting → List Capture × List Waiting
  | 0, queue => ([], queue)
  | limit + 1, queue =>
      match nextCapture? bound queue with
      | none => ([], queue)
      | some (capture, rest) =>
          let later := release bound limit rest
          (capture :: later.1, later.2)

/-! ## Holds -/

/-- A half matched pattern: while the walk is at `start` or later below `root`,
only captures before `rank` are reported. -/
structure Hold where
  root : Address
  start : Address
  rank : Rank

def Hold.isActive (hold : Hold) (here : Address) : Bool :=
  hold.root.isPrefixOf here && !here.lt hold.start

def Clause.holdsAt (clause : Clause) (number : Nat) (here : Address) (target : Node) : List Hold :=
  match clause.pattern with
  | .node _ test _ _ (first :: rest) =>
      if test.accepts target && !first.captureNames.isEmpty && !(Pattern.namesOf rest).isEmpty then
        (first.slot.candidates (positioned target)).flatMap fun candidate =>
          (first.findAt (here ++ [candidate.1.1]) candidate.1.2).filterMap fun fit =>
            fit.captures.head?.map fun capture =>
              ⟨here, fit.completed, (capture.node.start.byte, number)⟩
      else []
  | _ => []

def holds (query : Query) (root : Node) : List Hold :=
  root.entries.flatMap fun entry =>
    query.clauses.zipIdx.flatMap fun item => item.1.holdsAt item.2 entry.1 entry.2

def bound? (holds : List Hold) (here : Address) : Option Rank :=
  ((holds.filter fun hold => hold.isActive here).map Hold.rank).foldl
    (fun least rank =>
      match least with
      | none => some rank
      | some other => some (if rank.lt other then rank else other))
    none

/-! ## The walk -/

/-- Report the captures of the matches of a walk: at each node the matches that
it completes join the queue, and what comes before the holds leaves it; at the
end all the rest does. -/
def walk (holds : List Hold) (found : List Match) : List Waiting → List Address → List Capture
  | queue, [] => (release none (pending queue) queue).1
  | queue, here :: rest =>
      let joined := queue ++
        (found.filter fun item => item.completed = here).map fun item =>
          ⟨item.clause, item.captures⟩
      let released := release (bound? holds here) (pending joined) joined
      released.1 ++ walk holds found released.2 rest

/-- The captures of a query in a tree, in the order in which they are reported. -/
def captures (query : Query) (source : String) (root : Node) : List Capture :=
  walk (query.holds root) (query.allMatches source root) [] (root.entries.map (·.1))

end SourceGauge.Query
