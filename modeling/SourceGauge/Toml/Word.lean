/-
# SourceGauge.Toml.Word -- numbers, points in time and truth values

Values that are not quoted and not bracketed are written as one word, or as a
date and a time with a space between.  Digits may have single underscores
between them; whole numbers have no leading zero, fit sixty-four bits with a
sign, and may be written to the base two, eight or sixteen; a number with a
fraction or an exponent must not round to infinity (`isTooLarge`).
-/
import SourceGauge.Decimal.Binary
import SourceGauge.Text.Split
import SourceGauge.Toml
import SourceGauge.Toml.Quoted

namespace SourceGauge.Toml

set_option autoImplicit false

open Decimal (power)

def isWordLetter (c : Char) : Bool :=
  c.isAlphanum || c = '+' || c = '-' || c = '_' || c = '.' || c = ':'

/-- Without its sign, and whether that is a minus. -/
def splitSign : List Char → Bool × List Char
  | '-' :: rest => (true, rest)
  | '+' :: rest => (false, rest)
  | cs => (false, cs)

/-! ## Whole numbers -/

/-- The digits of a run without the underscores, each of which stands between two
digits. -/
def digits? (isDigit : Char → Bool) (run : List Char) : Option (List Char) :=
  let groups := run.splitOn '_'
  if groups.all fun group => !group.isEmpty && group.all isDigit then some groups.flatten else none

def valueOf (base : Nat) (digits : List Char) : Nat :=
  digits.foldl (fun value c => base * value + (hexValue? c).getD 0) 0

/-- The digits of a decimal number without a leading zero. -/
def wholeDigits? (run : List Char) : Option (List Char) :=
  if run.head? = some '0' ∧ run ≠ ['0'] then none else digits? Char.isDigit run

def integer? (value : Int) : Option Toml :=
  if Int64.minValue.toInt ≤ value ∧ value ≤ Int64.maxValue.toInt then some (integer value) else none

def integerToBase? (base : Nat) (run : List Char) : Option Toml :=
  (digits? (fun c => (hexValue? c).any (· < base)) run).bind fun digits =>
    integer? (valueOf base digits)

def integerOfWord? : List Char → Option Toml
  | '0' :: 'x' :: run => integerToBase? 16 run
  | '0' :: 'o' :: run => integerToBase? 8 run
  | '0' :: 'b' :: run => integerToBase? 2 run
  | word =>
      (wholeDigits? (splitSign word).2).bind fun digits =>
        let value : Int := valueOf 10 digits
        integer? (if (splitSign word).1 then -value else value)

/-! ## Fractions -/

/-- Whether `digits * 10 ^ exponent` rounds to a number above all those of
fifty-three bits and an exponent below 1024. -/
def isTooLarge (digits : List Char) (exponent : Int) : Bool :=
  let significant := digits.dropWhile (· = '0')
  let places := significant.length + exponent
  if significant.isEmpty || places < 300 then false
  else if 310 < places then true
  else
    (power 2 1024 - power 2 970) * power 10 (-exponent) ≤
      valueOf 10 significant * power 10 exponent

def exponent? (run : List Char) : Option Int :=
  (digits? Char.isDigit (splitSign run).2).map fun digits =>
    let value : Int := valueOf 10 digits
    if (splitSign run).1 then -value else value

def beginsExponent (c : Char) : Bool := c = 'e' || c = 'E'

/-- The number with a fraction or an exponent, or without a value, that a word
writes. -/
def floatOfWord? (word : List Char) : Option Toml :=
  let (negative, unsigned) := splitSign word
  if unsigned = "inf".toList ∨ unsigned = "nan".toList then some float
  else
    let mantissa := unsigned.takeWhile fun c => !beginsExponent c
    let power := unsigned.dropWhile fun c => !beginsExponent c
    let fraction := mantissa.dropWhile (· ≠ '.')
    if power.isEmpty && fraction.isEmpty then none
    else
      let whole := wholeDigits? (mantissa.takeWhile (· ≠ '.'))
      let places := if fraction.isEmpty then some [] else digits? Char.isDigit fraction.tail
      let exponent := if power.isEmpty then some 0 else exponent? power.tail
      match whole, places, exponent with
      | some whole, some places, some exponent =>
          if isTooLarge (whole ++ places) (exponent - places.length) && !negative then none
          else some float
      | _, _, _ => none

/-! ## Points in time -/

/-- The number that two digits write, if it is in a range, and what follows. -/
def twoDigits? (low high : Nat) : List Char → Option (List Char)
  | c :: d :: rest =>
      let value := valueOf 10 [c, d]
      if c.isDigit && d.isDigit && low ≤ value && value ≤ high then some rest else none
  | _ => none

def after? (c : Char) : List Char → Option (List Char)
  | d :: rest => if d = c then some rest else none
  | [] => none

def daysOf (year month : Nat) : Nat :=
  if month = 2 then
    if year % 4 = 0 && (year % 100 ≠ 0 || year % 400 = 0) then 29 else 28
  else if [4, 6, 9, 11].contains month then 30
  else 31

def afterDate? (cs : List Char) : Option (List Char) :=
  let year := cs.take 4
  if year.length = 4 ∧ year.all Char.isDigit then
    (after? '-' (cs.drop 4)).bind fun rest =>
      (twoDigits? 1 12 rest).bind fun afterMonth =>
        (after? '-' afterMonth).bind
          (twoDigits? 1 (daysOf (valueOf 10 year) (valueOf 10 (rest.take 2))))
  else none

/-- What follows the fraction of a second, if there is one. -/
def afterFraction? : List Char → Option (List Char)
  | '.' :: rest =>
      let left := rest.dropWhile Char.isDigit
      if left.length < rest.length then some left else none
  | cs => some cs

def afterTime? (cs : List Char) : Option (List Char) :=
  (twoDigits? 0 23 cs).bind fun rest =>
    (after? ':' rest).bind fun rest =>
      (twoDigits? 0 59 rest).bind fun rest =>
        (after? ':' rest).bind fun rest =>
          (twoDigits? 0 60 rest).bind afterFraction?

/-- Whether a time zone, or nothing, is written. -/
def isOffset : List Char → Bool
  | [] => true
  | ['Z'] => true
  | ['z'] => true
  | c :: rest =>
      (c = '+' || c = '-') &&
        (((twoDigits? 0 23 rest).bind (after? ':')).bind (twoDigits? 0 59)) = some []

def dateTimeOfWord? (word : List Char) : Option Toml :=
  let isDateTime := match afterDate? word with
    | some [] => true
    | some (c :: rest) =>
        (c = 'T' || c = 't' || c = ' ') && (afterTime? rest).any isOffset
    | none => afterTime? word = some []
  if isDateTime then some dateTime else none

/-! ## Words -/

/-- The word at the start of some characters, and what follows; a date and the
digits after one space are one word. -/
def splitWord (cs : List Char) : List Char × List Char :=
  let word := cs.takeWhile isWordLetter
  match cs.dropWhile isWordLetter with
  | ' ' :: c :: rest =>
      if afterDate? word = some [] ∧ c.isDigit then
        (word ++ ' ' :: (c :: rest).takeWhile isWordLetter, (c :: rest).dropWhile isWordLetter)
      else (word, ' ' :: c :: rest)
  | rest => (word, rest)

def ofWord? (word : List Char) : Option Toml :=
  if word = "true".toList then some (boolean true)
  else if word = "false".toList then some (boolean false)
  else
    match integerOfWord? word with
    | some value => some value
    | none =>
        match floatOfWord? word with
        | some value => some value
        | none => dateTimeOfWord? word

end SourceGauge.Toml
