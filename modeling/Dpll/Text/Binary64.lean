import Dpll.Text.Numeral

/-!
# Double precision numbers

A number is read from decimal notation and rounded to the nearest number of the form `m * 2 ^ e`
with `m` below `2 ^ 53` and `e` at least `-1074`, of two neighbours to the one with even `m`. What
would need more than 1024 binary digits before the point is infinite.
-/

set_option autoImplicit false

namespace Dpll.Text

/-- The absolute value of a double precision number, which is `mantissa * 2 ^ exponent` if it is
finite. -/
inductive Magnitude where
  | finite (mantissa : Nat) (exponent : Int)
  | infinite
deriving DecidableEq

inductive Binary64 where
  | number (negative : Bool) (magnitude : Magnitude)
  | notANumber
deriving DecidableEq

namespace Magnitude

def zero : Magnitude := finite 0 0

def scale (numerator denominator : Nat) : Int → Nat × Nat
  | .ofNat power => (numerator, denominator * Nat.pow 2 power)
  | .negSucc power => (numerator * Nat.pow 2 (power + 1), denominator)

/-- The exponent with which the mantissa of a positive quotient has 53 binary digits, or the least
exponent there is. -/
def exponentOf (numerator denominator : Nat) : Int :=
  let guess : Int := (numerator.log2 : Int) - denominator.log2 - 52
  let (above, below) := scale numerator denominator guess
  max (if above < Nat.pow 2 52 * below then guess - 1 else guess) (-1074)

def overflows (mantissa : Nat) (exponent : Int) : Bool :=
  Nat.pow 2 1024 ≤ mantissa * Nat.pow 2 exponent.toNat

def nearest (numerator denominator : Nat) : Magnitude :=
  if numerator = 0 then zero
  else
    let exponent := exponentOf numerator denominator
    let (above, below) := scale numerator denominator exponent
    let mantissa := roundedDiv above below
    if overflows mantissa exponent then infinite else finite mantissa exponent

/-- The magnitude nearest to `digits * 10 ^ power`. Numbers that are surely too large or too small
are told by their number of digits. -/
def ofDecimal (digits : Nat) (power : Int) : Magnitude :=
  if digits = 0 then zero
  else
    let places : Int := (toString digits).length + power
    if 400 < places then infinite
    else if places < -400 then zero
    else match power with
      | .ofNat power => nearest (digits * Nat.pow 10 power) 1
      | .negSucc power => nearest digits (Nat.pow 10 (power + 1))

end Magnitude

/-! ## Decimal notation -/

def takeSign : List Char → Bool × List Char
  | '-' :: rest => (true, rest)
  | '+' :: rest => (false, rest)
  | text => (false, text)

def powerOfTen? : List Char → Option Int
  | [] => some 0
  | letter :: rest =>
    if letter = 'e' ∨ letter = 'E' then
      let (negative, digits) := takeSign rest
      (natural? digits).map fun power => if negative then -(power : Int) else power
    else none

def takeFraction : List Char → List Char × List Char
  | '.' :: rest => (rest.takeWhile Char.isDigit, rest.dropWhile Char.isDigit)
  | text => ([], text)

/-- A number without sign: digits with or without a point, at least one of them, and a power of
ten. -/
def magnitude? (text : List Char) : Option Magnitude := do
  let whole := text.takeWhile Char.isDigit
  let (fraction, rest) := takeFraction (text.dropWhile Char.isDigit)
  let digits ← natural? (whole ++ fraction)
  let power ← powerOfTen? rest
  return Magnitude.ofDecimal digits (power - fraction.length)

/-- A number in decimal notation, or one of the words for what is no finite number, in any case of
letters. -/
def binary64? (text : List Char) : Option Binary64 :=
  let (negative, rest) := takeSign text
  let word := String.ofList (rest.map Char.toLower)
  if word = "nan" then some .notANumber
  else if word = "inf" ∨ word = "infinity" then some (.number negative .infinite)
  else (magnitude? rest).map (.number negative)

def nanoseconds (mantissa : Nat) : Int → Nat
  | .ofNat exponent => mantissa * Nat.pow 2 exponent * 1000000000
  | .negSucc exponent => roundedDiv (mantissa * 1000000000) (Nat.pow 2 (exponent + 1))

end Dpll.Text
