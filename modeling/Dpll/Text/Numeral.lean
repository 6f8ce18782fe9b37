/-!
# Decimal numerals

Numbers are read from digits `0` to `9` only, at least one of them, after an optional sign. A number
outside the range of its machine word is refused. Leading zeros are allowed.
-/

set_option autoImplicit false

namespace Dpll.Text

def ofDigits (digits : List Char) : Nat :=
  digits.foldl (fun number digit => 10 * number + (digit.toNat - '0'.toNat)) 0

def natural? (text : List Char) : Option Nat :=
  if !text.isEmpty && text.all Char.isDigit then some (ofDigits text) else none

def withoutPlus : List Char → List Char
  | '+' :: rest => rest
  | text => text

/-- A number below `2 ^ 64`, with an optional plus sign. -/
def unsigned? (text : List Char) : Option Nat :=
  (natural? (withoutPlus text)).filter (· < 18446744073709551616)

/-- A number from `-2 ^ 63` to `2 ^ 63 - 1`, with an optional sign. -/
def signed? : List Char → Option Int
  | '-' :: rest =>
    ((natural? rest).filter (· ≤ 9223372036854775808)).map fun number => -(number : Int)
  | text => ((natural? (withoutPlus text)).filter (· < 9223372036854775808)).map Int.ofNat

def padLeft (width : Nat) (text : String) : String :=
  String.ofList (List.replicate (width - text.length) ' ') ++ text

def roundedDiv (numerator denominator : Nat) : Nat :=
  let quotient := numerator / denominator
  let twice := 2 * (numerator % denominator)
  if twice < denominator then quotient
  else if denominator < twice then quotient + 1
  else quotient + quotient % 2

/-- A quotient with a fixed number of decimal places, rounded to the nearest, a half to even. -/
def fixedPoint (places numerator denominator : Nat) : String :=
  let scaled := roundedDiv (numerator * Nat.pow 10 places) denominator
  let fraction := toString (scaled % Nat.pow 10 places)
  toString (scaled / Nat.pow 10 places) ++ "." ++
    String.ofList (List.replicate (places - fraction.length) '0') ++ fraction

end Dpll.Text
