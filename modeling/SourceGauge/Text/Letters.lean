/-
# SourceGauge.Text.Letters -- lower case as far as ASCII is concerned

Extensions and messages are compared after lowering.  What they are compared
with is ASCII, so `lower` maps the characters whose lower case holds an ASCII
letter: `A` to `Z`, the Kelvin sign, and the capital dotted I, which becomes an
`i` and a combining dot.  All others stay as they are.
-/

namespace SourceGauge.Text

set_option autoImplicit false

/-- The lower case of a character whose lower case holds an ASCII letter; any
other character itself. -/
def lowerChar (c : Char) : List Char :=
  if c = '\u212a' then ['k']
  else if c = '\u0130' then ['i', '\u0307']
  else if 'A' ≤ c ∧ c ≤ 'Z' then [Char.ofNat (c.toNat + 32)]
  else [c]

/-- The text in lower case, as far as ASCII letters come of it. -/
def lower (s : String) : String := String.ofList (s.toList.flatMap lowerChar)

end SourceGauge.Text
