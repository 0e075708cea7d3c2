/-
# SourceGauge.Syntax.Node -- syntax trees

A `Node` is a label with its children in order.  The label says what the
grammar calls the node, whether it is named, an error or missing, the field it
fills in its parent, and the extent of its text.  Trees are given, not parsed
here: `Node.ofPreorder?` builds one from its nodes in pre-order with their
depths.

A node has no identity of its own.  Within a tree it is named by its `Address`,
the list of child positions that leads to it from the root; addresses in
lexicographic order are pre-order (`Address.lt`).
-/
import SourceGauge.Language
import SourceGauge.Path
import SourceGauge.Text.Lines

namespace SourceGauge

set_option autoImplicit false

open Text (Place)

/-- The extent of a node, kept without the tree: bytes and rows. -/
structure Span where
  startByte : Nat
  endByte : Nat
  startRow : Nat
  endRow : Nat
  deriving DecidableEq, Repr

/-- Whether `inner` lies within `outer`, by bytes. -/
def Span.contains (outer inner : Span) : Bool :=
  outer.startByte ≤ inner.startByte && inner.endByte ≤ outer.endByte

/-- What a node says of itself. -/
structure Label where
  kind : String
  named : Bool
  extra : Bool := false
  isError : Bool := false
  missing : Bool := false
  /-- The field of the parent that the node fills. -/
  field : Option String := none
  start : Place
  stop : Place
  deriving DecidableEq, Repr

/-- A node of a syntax tree. -/
inductive Node where
  | mk (label : Label) (children : List Node)

/-- The child positions that lead from the root of a tree to a node. -/
abbrev Address := List Nat

namespace Address

/-- Pre-order: a node before what is below it, and that before what comes after. -/
def lt : Address → Address → Bool
  | [], [] => false
  | [], _ :: _ => true
  | _ :: _, [] => false
  | i :: a, j :: b => if i = j then lt a b else decide (i < j)

def later (a b : Address) : Address := if lt a b then b else a

def earlier (a b : Address) : Address := if lt b a then b else a

end Address

namespace Node

def label : Node → Label
  | mk label _ => label

def children : Node → List Node
  | mk _ children => children

def kind (node : Node) : String := node.label.kind

def isNamed (node : Node) : Bool := node.label.named

def isError (node : Node) : Bool := node.label.isError

def start (node : Node) : Place := node.label.start

def stop (node : Node) : Place := node.label.stop

def span (node : Node) : Span :=
  ⟨node.start.byte, node.stop.byte, node.start.row, node.stop.row⟩

def text (node : Node) (source : String) : String :=
  Text.slice source node.start.byte node.stop.byte

def namedChildren (node : Node) : List Node := node.children.filter isNamed

def childByField? (node : Node) (field : String) : Option Node :=
  node.children.find? fun child => child.label.field = some field

def childOfKind? (node : Node) (kind : String) : Option Node :=
  node.children.find? fun child => child.kind = kind

mutual

/-- The nodes of a tree with their addresses, in pre-order, below the address
`here` of the root. -/
def preorder (here : Address) : Node → List (Address × Node)
  | mk label children => (here, mk label children) :: preorderFrom here 0 children

/-- The same for the children of the node at `here` from position `i` on. -/
def preorderFrom (here : Address) (i : Nat) : List Node → List (Address × Node)
  | [] => []
  | child :: rest => preorder (here ++ [i]) child ++ preorderFrom here (i + 1) rest

end

/-- The nodes of a tree with their addresses, in pre-order. -/
def entries (root : Node) : List (Address × Node) := preorder [] root

mutual

def nodes : Node → List Node
  | mk label children => mk label children :: nodesOf children

def nodesOf : List Node → List Node
  | [] => []
  | child :: rest => nodes child ++ nodesOf rest

end

/-! ## Trees from their pre-order -/

/-- The trees of a list of nodes in pre-order with their depths: a node's
children are the trees after it whose depth is greater. -/
def forest : List (Nat × Label) → List (Nat × Node)
  | [] => []
  | (depth, label) :: rest =>
      let trees := forest rest
      (depth, mk label ((trees.takeWhile fun tree => depth < tree.1).map (·.2))) ::
        trees.dropWhile fun tree => depth < tree.1

/-- The tree of its nodes in pre-order, when they form one tree. -/
def ofPreorder? (items : List (Nat × Label)) : Option Node :=
  match forest items with
  | [(_, root)] => some root
  | _ => none

/-- A statement that is nothing but a string literal, which in Python is how
comments of several lines are written. -/
def isDocstring (node : Node) : Bool :=
  node.kind = "expression_statement" &&
    match node.children with
    | [child] => child.kind = "string"
    | _ => false

end Node

/-- A source file with its syntax tree. -/
structure ParsedFile where
  path : Path
  language : Language
  source : String
  root : Node

end SourceGauge
