/-
# SourceGauge.Coupling.Measures -- how strongly files are coupled

The files are the ends of relationships.  They are the nodes of a graph, numbered
as they first appear, which has one edge for each relationship (`FileGraph`).  A
file's outgoing dependencies are the distinct types that the edges leaving its
node lead to, its incoming ones the distinct types that the edges entering its
node come from; instability is the share of the outgoing ones
(`CouplingMeasures.ofCounts`).
-/
import SourceGauge.Coupling.Resolver
import SourceGauge.Decimal.Binary

namespace SourceGauge.Coupling

set_option autoImplicit false

/-- The coupling of one file with the others. -/
structure CouplingMeasures where
  outgoing : Nat
  incoming : Nat
  /-- Outgoing and incoming together. -/
  total : Nat
  /-- The share of the outgoing ones. -/
  instability : Decimal.Binary
  deriving DecidableEq, Repr

/-- The measures of a file with so many dependencies; without any, instability is
zero. -/
def CouplingMeasures.ofCounts (outgoing incoming : Nat) : CouplingMeasures :=
  { outgoing
    incoming
    total := outgoing + incoming
    instability := .ofRatio outgoing (outgoing + incoming) }

/-! ## The graph of files -/

/-- An edge between two nodes. -/
structure FileGraph.Edge where
  source : Nat
  target : Nat
  relationship : Relationship
  deriving DecidableEq, Repr

/-- Files as nodes, where a file's place is its number, and relationships as edges. -/
structure FileGraph where
  files : List Path := []
  edges : List FileGraph.Edge := []
  deriving DecidableEq, Repr

namespace FileGraph

/-- The node of a file, which is added when the file has none. -/
def nodeOf (graph : FileGraph) (file : Path) : Nat × FileGraph :=
  match graph.files.findIdx? file.same with
  | some node => (node, graph)
  | none => (graph.files.length, { graph with files := graph.files ++ [file] })

def add (graph : FileGraph) (relationship : Relationship) : FileGraph :=
  let (source, graph) := graph.nodeOf relationship.fromFile
  let (target, graph) := graph.nodeOf relationship.toFile
  { graph with edges := graph.edges ++ [{ source, target, relationship }] }

def ofRelationships (relationships : List Relationship) : FileGraph :=
  relationships.foldl add {}

/-- The distinct types that the edges leaving a node lead to. -/
def outgoing (graph : FileGraph) (node : Nat) : Nat :=
  ((graph.edges.filter fun edge => edge.source = node).map
    fun edge => edge.relationship.toName).eraseDups.length

/-- The distinct types that the edges entering a node come from. -/
def incoming (graph : FileGraph) (node : Nat) : Nat :=
  ((graph.edges.filter fun edge => edge.target = node).map
    fun edge => edge.relationship.fromName).eraseDups.length

def measures (graph : FileGraph) : PathMap CouplingMeasures :=
  PathMap.ofLast (graph.files.mapIdx fun node file =>
    (file, .ofCounts (graph.outgoing node) (graph.incoming node)))

end FileGraph

/-- The files at the ends of relationships, in order of first appearance. -/
def filesOf (relationships : List Relationship) : List Path :=
  (FileGraph.ofRelationships relationships).files

def couplingMeasures (relationships : List Relationship) : PathMap CouplingMeasures :=
  (FileGraph.ofRelationships relationships).measures

end SourceGauge.Coupling
