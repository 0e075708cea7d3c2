/-
# SourceGauge.Decimal.Binary -- binary fractions of fifty-three bits

A `Binary` is `± m * 2 ^ q` with `m` below `2 ^ 53` and `q` at least `-1074`, the
format in which a share is kept before it is written in decimal.
`Binary.ofRatio` rounds a quotient of naturals to the nearest such value, a tie
to the even `m`.
-/

namespace SourceGauge.Decimal

set_option autoImplicit false

/-- A power of a natural; one when the exponent is negative. -/
def power (base : Nat) (exponent : Int) : Nat := base.pow exponent.toNat

/-- The value `± mantissa * 2 ^ exponent`. -/
structure Binary where
  negative : Bool := false
  mantissa : Nat
  exponent : Int
  deriving DecidableEq, Repr

namespace Binary

def precision : Nat := 53

def leastExponent : Int := -1074

def zero : Binary := { mantissa := 0, exponent := leastExponent }

/-- The nearest natural to a quotient; a tie goes to the even one. -/
def roundQuotient (num den : Nat) : Nat :=
  let quotient := num / den
  let twice := 2 * (num % den)
  if twice < den then quotient
  else if den < twice then quotient + 1
  else if quotient % 2 = 0 then quotient else quotient + 1

/-- A quotient divided by `2 ^ q`. -/
def scaled (num den : Nat) (q : Int) : Nat × Nat := (num * power 2 (-q), den * power 2 q)

/-- The exponent with which the quotient of two positive naturals has fifty-three
bits, or the least exponent. -/
def exponentOf (num den : Nat) : Int :=
  let guess : Int := (num.log2 : Int) - (den.log2 : Int) - (precision : Int)
  let pair := scaled num den guess
  let exact := if pair.1 / pair.2 < power 2 precision then guess else guess + 1
  max exact leastExponent

/-- The value nearest to a quotient of naturals; zero when the divisor is. -/
def ofRatio (num den : Nat) : Binary :=
  if num = 0 ∨ den = 0 then zero
  else
    let q := exponentOf num den
    let pair := scaled num den q
    let m := roundQuotient pair.1 pair.2
    if m < power 2 precision then { mantissa := m, exponent := q }
    else { mantissa := m / 2, exponent := q + 1 }

/-- The value as a quotient of naturals, without its sign. -/
def ratio (x : Binary) : Nat × Nat :=
  (x.mantissa * power 2 x.exponent, power 2 (-x.exponent))

end Binary

end SourceGauge.Decimal
