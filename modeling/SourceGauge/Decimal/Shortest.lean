/-
# SourceGauge.Decimal.Shortest -- the fewest digits that read back

The reals that round to a binary value form an interval, halfway to its two
neighbours, the ends included when the mantissa is even (`Binary.holds`).  For
one, two, three digits and so on the two multiples of the power of ten around
the value are tried; the first number of digits with a multiple inside the
interval is taken, of two such multiples the nearer, at a tie the even one
(`Binary.shortest`).

How the digits are laid out is a `Layout`: up to which exponents the number is
written out, and the sign of a positive exponent.
-/
import SourceGauge.Decimal.Binary

namespace SourceGauge.Decimal

set_option autoImplicit false

/-- The value `digits * 10 ^ exponent`. -/
structure Digits where
  digits : Nat
  exponent : Int
  deriving DecidableEq, Repr

/-- The order of `a * 10 ^ i` and `b * 2 ^ j`. -/
def compareScaled (a : Nat) (i : Int) (b : Nat) (j : Int) : Ordering :=
  compare (a * power 10 i * power 2 (-j)) (b * power 2 j * power 10 (-i))

namespace Binary

/-- Whether the neighbour below is half as far away as the one above. -/
def isNarrowBelow (x : Binary) : Bool :=
  2 * x.mantissa = power 2 precision && leastExponent < x.exponent

/-- Whether a decimal lies among the reals that round to the value. -/
def holds (x : Binary) (d : Digits) : Bool :=
  let low := if x.isNarrowBelow then 4 * x.mantissa - 1 else 4 * x.mantissa - 2
  let high := 4 * x.mantissa + 2
  let closed := x.mantissa % 2 = 0
  let atLow := compareScaled d.digits d.exponent low (x.exponent - 2)
  let atHigh := compareScaled d.digits d.exponent high (x.exponent - 2)
  (atLow = .gt || (closed && atLow = .eq)) && (atHigh = .lt || (closed && atHigh = .eq))

/-- The least `k`, counted up from a start, with the value below `10 ^ k`. -/
def raiseScale (x : Binary) : Nat → Int → Int
  | 0, k => k
  | fuel + 1, k =>
      if compareScaled 1 k x.mantissa x.exponent = .gt then k else raiseScale x fuel (k + 1)

/-- The least `k` with the value below `10 ^ k`, for a value that is not zero.
The start is at most a few below it: `log10 2` lies above 0.30102. -/
def scale (x : Binary) : Int :=
  let bits : Int := (x.mantissa.log2 : Int) + x.exponent
  raiseScale x 8 ((bits * 30102).fdiv 100000 - 1)

/-- The nearest multiples of `10 ^ e` that read back: the nearer of the two around
the value, at a tie the even one. -/
def onGrid? (x : Binary) (e : Int) : Option Digits :=
  let num := x.mantissa * power 2 x.exponent * power 10 (-e)
  let den := power 2 (-x.exponent) * power 10 e
  let below : Digits := ⟨num / den, e⟩
  let above : Digits := ⟨num / den + 1, e⟩
  let twice := 2 * (num % den)
  if x.holds below then
    if x.holds above then
      if twice < den then some below
      else if den < twice then some above
      else if below.digits % 2 = 0 then some below else some above
    else some below
  else if x.holds above then some above
  else none

/-- Try grids of one more digit each, at most `fuel` of them. -/
def firstGrid? (x : Binary) (k : Int) : Nat → Nat → Option Digits
  | 0, _ => none
  | fuel + 1, n =>
      match x.onGrid? (k - n) with
      | some d => some d
      | none => firstGrid? x k fuel (n + 1)

def exactDigits (x : Binary) : Digits :=
  if 0 ≤ x.exponent then ⟨x.mantissa * power 2 x.exponent, 0⟩
  else ⟨x.mantissa * power 5 (-x.exponent), x.exponent⟩

/-- The fewest digits that read back as the value, which is not zero. -/
def shortest (x : Binary) : Digits := ((x.firstGrid? x.scale 17 1)).getD x.exactDigits

end Binary

/-! ## Layout -/

/-- How decimal digits are laid out. -/
structure Layout where
  /-- The least exponent of a leading digit that is written out. -/
  plainFrom : Int
  /-- The least larger exponent that is not. -/
  plainBelow : Int
  /-- What stands before a positive exponent. -/
  positiveExponent : String

/-- Drop the zeros at the end of a reversed list of digits into an exponent. -/
def stripZeros : List Char → Int → List Char × Int
  | '0' :: rest, e => stripZeros rest (e + 1)
  | reversed, e => (reversed, e)

def Layout.render (layout : Layout) (d : Digits) : String :=
  let stripped := stripZeros (toString d.digits).toList.reverse d.exponent
  let digits := stripped.1.reverse
  let count := digits.length
  let leading : Int := stripped.2 + count - 1
  if layout.plainFrom ≤ leading ∧ leading < layout.plainBelow then
    if 0 ≤ stripped.2 then
      String.ofList (digits ++ List.replicate stripped.2.toNat '0') ++ ".0"
    else if 0 ≤ leading then
      String.ofList (digits.take (leading.toNat + 1)) ++ "." ++
        String.ofList (digits.drop (leading.toNat + 1))
    else "0." ++ String.ofList (List.replicate (-leading - 1).toNat '0' ++ digits)
  else
    String.ofList (digits.take 1) ++
      (if count = 1 then "" else "." ++ String.ofList (digits.drop 1)) ++
      "e" ++
      (if leading < 0 then "-" ++ toString leading.natAbs
        else layout.positiveExponent ++ toString leading.natAbs)

/-- The text of a binary value: its sign, also that of zero, and the fewest digits
that read back. -/
def Layout.renderBinary (layout : Layout) (x : Binary) : String :=
  (if x.negative then "-" else "") ++
    if x.mantissa = 0 then "0.0" else layout.render x.shortest

end SourceGauge.Decimal
