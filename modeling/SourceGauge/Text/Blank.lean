/-
# SourceGauge.Text.Blank -- white space and lists of entries

The white space characters are those of the Unicode property `White_Space`
(`isBlank`).  A list option is entries between commas, each trimmed, the empty
ones left out (`entries`).
-/
import SourceGauge.Text.Split

namespace SourceGauge.Text

set_option autoImplicit false

/-- The code points with the property `White_Space`, as closed ranges. -/
def blankRanges : List (Nat × Nat) :=
  [(0x9, 0xd), (0x20, 0x20), (0x85, 0x85), (0xa0, 0xa0), (0x1680, 0x1680), (0x2000, 0x200a),
    (0x2028, 0x2029), (0x202f, 0x202f), (0x205f, 0x205f), (0x3000, 0x3000)]

def isBlank (c : Char) : Bool :=
  blankRanges.any fun range => range.1 ≤ c.toNat && c.toNat ≤ range.2

theorem isBlank_of_isWhitespace {c : Char} (h : c.isWhitespace) : isBlank c := by
  simp only [Char.isWhitespace, Bool.or_eq_true, decide_eq_true_eq] at h
  rcases h with ((rfl | rfl) | rfl) | rfl <;> decide

/-- The text without white space at its ends. -/
def trim (s : String) : String :=
  String.ofList (((s.toList.dropWhile isBlank).reverse.dropWhile isBlank).reverse)

/-- The entries between commas: trimmed, empty ones left out. -/
def entries (s : String) : List String :=
  ((split "," s).map trim).filter fun entry => entry ≠ ""

end SourceGauge.Text
