/-
# SourceGauge.Query.Pattern -- patterns over syntax trees

A `Pattern` describes a node: its kind, fields it must not have, and patterns
that children must fit, in order but not necessarily side by side.  A `Clause`
is a pattern with conditions on the text of its captures, and a `Query` is a
list of clauses.

`Pattern.findAt` lists the ways in which a pattern fits at a node, and
`Clause.matchesAt` makes one match of those that capture the same nodes: a child
pattern that captures nothing only has to fit somewhere.
-/
import SourceGauge.Syntax.Node

namespace SourceGauge

set_option autoImplicit false

namespace Query

/-! ## Patterns -/

/-- What a node must be. -/
inductive Test where
  /-- A named node of a kind. -/
  | named (kind : String)
  /-- A token of exactly this text. -/
  | token (text : String)
  /-- Any named node that is no error. -/
  | anyNamed
  deriving DecidableEq, Repr

def Test.accepts : Test → Node → Bool
  | named kind, node => node.isNamed && node.kind = kind
  | token text, node => !node.isNamed && node.kind = text
  | anyNamed, node => node.isNamed && !node.isError

/-- How a node stands among the children of its parent: the field it fills, and
whether no named child may stand between the child matched before and it. -/
structure Slot where
  field : Option String := none
  anchored : Bool := false
  deriving DecidableEq, Repr

def Slot.fits (slot : Slot) (child : Node) : Bool :=
  slot.field.isNone || child.label.field = slot.field

/-- A description of a node. -/
inductive Pattern where
  | node (slot : Slot) (test : Test) (absent : List String) (captures : List String)
      (children : List Pattern)
  | oneOf (slot : Slot) (captures : List String) (choices : List Pattern)

namespace Pattern

def slot : Pattern → Slot
  | node slot _ _ _ _ => slot
  | oneOf slot _ _ => slot

def capture (name : String) : Pattern → Pattern
  | node slot test absent captures children => node slot test absent (captures ++ [name]) children
  | oneOf slot captures choices => oneOf slot (captures ++ [name]) choices

def inSlot (slot : Slot) : Pattern → Pattern
  | node _ test absent captures children => node slot test absent captures children
  | oneOf _ captures choices => oneOf slot captures choices

mutual

def captureNames : Pattern → List String
  | node _ _ _ captures children => namesOf children ++ captures
  | oneOf _ captures choices => namesOf choices ++ captures

def namesOf : List Pattern → List String
  | [] => []
  | pattern :: rest => captureNames pattern ++ namesOf rest

end

end Pattern

/-! ## Matching -/

/-- A captured node. -/
structure Capture where
  name : String
  address : Address
  node : Node

/-- One way in which a pattern fits: what it captures, in pre-order, and the
last node in pre-order that it needs. -/
structure Fit where
  captures : List Capture
  completed : Address

/-- The name and place of each captured node; fits that agree on these are one
match. -/
def Fit.key (fit : Fit) : List (String × Address) :=
  fit.captures.map fun capture => (capture.name, capture.address)

/-- The children that may stand in a slot, each with the children after it. -/
def Slot.candidates (slot : Slot) : List (Nat × Node) → List ((Nat × Node) × List (Nat × Node))
  | [] => []
  | child :: rest =>
      if slot.anchored then
        if child.2.isNamed then (if slot.fits child.2 then [(child, rest)] else [])
        else candidates slot rest
      else if slot.fits child.2 then (child, rest) :: candidates slot rest
      else candidates slot rest

def capturesOf (names : List String) (here : Address) (node : Node) : List Capture :=
  names.map fun name => ⟨name, here, node⟩

def Fit.under (names : List String) (here : Address) (node : Node) (fit : Fit) : Fit :=
  { fit with captures := capturesOf names here node ++ fit.captures }

/-- A fit of one child together with a fit of the later ones. -/
def Fit.followedBy (first rest : Fit) : Fit :=
  ⟨first.captures ++ rest.captures, Address.later first.completed rest.completed⟩

def positioned (node : Node) : List (Nat × Node) :=
  node.children.zipIdx.map fun item => (item.2, item.1)

namespace Pattern

mutual

/-- The ways in which a pattern fits the node at the address `here`. -/
def findAt : Pattern → Address → Node → List Fit
  | node _ test absent captures children, here, target =>
      if test.accepts target && absent.all fun field => (target.childByField? field).isNone then
        (findChildren children here (positioned target)).map (Fit.under captures here target)
      else []
  | oneOf _ captures choices, here, target =>
      (findChoices choices here target).map (Fit.under captures here target)

/-- The ways in which patterns fit some of the children of the node at `here`,
in order. -/
def findChildren : List Pattern → Address → List (Nat × Node) → List Fit
  | [], here, _ => [⟨[], here⟩]
  | pattern :: rest, here, children =>
      (pattern.slot.candidates children).flatMap fun candidate =>
        (findAt pattern (here ++ [candidate.1.1]) candidate.1.2).flatMap fun fit =>
          (findChildren rest here candidate.2).map fit.followedBy

/-- The ways in which one of several patterns fits a node. -/
def findChoices : List Pattern → Address → Node → List Fit
  | [], _, _ => []
  | pattern :: rest, here, target => findAt pattern here target ++ findChoices rest here target

end

end Pattern

/-- Add a fit to fits with distinct keys; of two with one key, the place where
the earlier one was complete counts. -/
def Fit.mergeInto (fit : Fit) : List Fit → List Fit
  | [] => [fit]
  | other :: rest =>
      if other.key = fit.key then
        { other with completed := Address.earlier other.completed fit.completed } :: rest
      else other :: mergeInto fit rest

/-- The fits, one for each key. -/
def distinct (fits : List Fit) : List Fit := fits.foldl (fun merged fit => fit.mergeInto merged) []

/-! ## Clauses and queries -/

/-- A condition on the text of every node captured under a name. -/
inductive Condition where
  | differs (capture text : String)
  | startsWith (capture text : String)
  deriving DecidableEq, Repr

def Condition.holds (source : String) (captures : List Capture) : Condition → Bool
  | differs name text =>
      captures.all fun capture => capture.name ≠ name || capture.node.text source ≠ text
  | startsWith name text =>
      captures.all fun capture =>
        capture.name ≠ name || Text.startsWith text (capture.node.text source)

/-- A pattern with conditions. -/
structure Clause where
  pattern : Pattern
  conditions : List Condition := []

def Clause.matchesAt (clause : Clause) (source : String) (here : Address) (node : Node) :
    List Fit :=
  (distinct (clause.pattern.findAt here node)).filter fun fit =>
    clause.conditions.all (Condition.holds source fit.captures)

end Query

/-- A compiled query. -/
structure Query where
  clauses : List Query.Clause

namespace Query

def captureNames (query : Query) : List String :=
  (query.clauses.flatMap fun clause => clause.pattern.captureNames).eraseDups

/-- A match in a tree: where its pattern is rooted and the number of its clause. -/
structure Match extends Fit where
  root : Address
  node : Node
  clause : Nat

/-- The matches rooted at a node, clause by clause. -/
def matchesAt (query : Query) (source : String) (entry : Address × Node) : List Match :=
  query.clauses.zipIdx.flatMap fun item =>
    (item.1.matchesAt source entry.1 entry.2).map fun fit => ⟨fit, entry.1, entry.2, item.2⟩

/-- The matches in a tree, by root. -/
def found (query : Query) (source : String) (root : Node) : List Match :=
  root.entries.flatMap (query.matchesAt source)

def count (query : Query) (source : String) (root : Node) : Nat := (query.found source root).length

/-- The order in which matches are reported: by the node that completes them,
then outer roots first, then by clause. -/
def Match.precedes (first second : Match) : Bool :=
  if first.completed = second.completed then
    if first.root.length = second.root.length then first.clause ≤ second.clause
    else first.root.length < second.root.length
  else first.completed.lt second.completed

/-- The matches in a tree, in the order in which they are reported. -/
def allMatches (query : Query) (source : String) (root : Node) : List Match :=
  (query.found source root).mergeSort Match.precedes

/-- Whether a node meets the bytes from `start` to `stop`; `stop = 0` sets no
upper limit.  A node that ends where the range starts meets it only when empty. -/
def meets (start stop : Nat) (node : Node) : Bool :=
  (stop = 0 || node.start.byte < stop) && start ≤ node.stop.byte &&
    (node.stop.byte ≠ start || node.start.byte = node.stop.byte)

def matchesWithin (query : Query) (source : String) (root : Node) (start stop : Nat) : List Match :=
  (query.allMatches source root).filter fun found => meets start stop found.node

end Query

end SourceGauge
