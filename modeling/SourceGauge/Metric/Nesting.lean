/-
# SourceGauge.Metric.Nesting -- how deep containers of a data file are nested

The deepest chain of nesting nodes in the first top-level node is measured; the
outermost container is level zero.  A language without nesting kinds has level
zero.
-/
import SourceGauge.Registry
import SourceGauge.Syntax.Node

namespace SourceGauge.Metric

set_option autoImplicit false

mutual

/-- The greatest number of counted nodes on a way from a node down. -/
def depth (counted : List String) : Node → Nat
  | .mk label children =>
      depthOf counted children + if counted.contains label.kind then 1 else 0

def depthOf (counted : List String) : List Node → Nat
  | [] => 0
  | node :: rest => max (depth counted node) (depthOf counted rest)

end

/-- The nesting level of a file. -/
def nestingLevel (registry : Registry) (file : ParsedFile) : Nat :=
  let counted := registry.activeKinds .nesting file.language
  match counted, file.root.children with
  | [], _ => 0
  | _, [] => 0
  | _, top :: _ => depth counted top - 1

end SourceGauge.Metric
