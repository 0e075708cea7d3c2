/-
# SourceGauge.Syntax.Document -- syntax trees as JSON

A tree is an array of its nodes in pre-order.  A node is an array of its depth,
its kind, the byte offsets of its start and end, a number whose bits say whether
it is named, extra, an error and missing, and the field it fills; the field may
be left out, and then the number when it is zero.  Rows and columns follow from
the source.
-/
import SourceGauge.Json
import SourceGauge.Syntax.Node

namespace SourceGauge.Node

set_option autoImplicit false

def itemOfJson? (source : String) : Json → Option (Nat × Label)
  | .array (depth :: kind :: start :: stop :: rest) => do
      let depth ← depth.nat?
      let kind ← kind.text?
      let start ← start.nat?
      let stop ← stop.nat?
      let flags := (rest[0]?.bind Json.nat?).getD 0
      some (depth,
        { kind
          named := flags.testBit 0
          extra := flags.testBit 1
          isError := flags.testBit 2
          missing := flags.testBit 3
          field := rest[1]?.bind Json.text?
          start := Text.Place.ofByte source start
          stop := Text.Place.ofByte source stop })
  | _ => none

def ofJson? (source : String) (value : Json) : Option Node := do
  let items ← value.items?
  ofPreorder? (← items.mapM (itemOfJson? source))

end SourceGauge.Node
