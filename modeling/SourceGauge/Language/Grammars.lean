/-
# SourceGauge.Language.Grammars -- what is asked of the grammars

The grammars are no part of the library.  Syntax trees are given with the files, and the
one thing that is asked of a grammar itself is whether it has a kind of node: a query that
names any other kind does not compile.  So the kinds that the grammars know are a parameter
of everything that compiles queries.
-/
import SourceGauge.Language
import SourceGauge.Text.Split

namespace SourceGauge

set_option autoImplicit false

/-- The grammars of the languages. -/
class Grammars where
  /-- Whether the grammar of a language has a kind of node. -/
  hasKind : Language → String → Bool

/-- Grammars that have every kind but those whose name begins in a certain way. -/
@[reducible]
def Grammars.allBut (start : String) : Grammars where
  hasKind _ kind := !Text.startsWith start kind

end SourceGauge
