/-!
# Literals

A literal is a propositional variable with a sign. Both are packed into one 64-bit code, twice the
variable plus one if the literal is negated, so that codes index tables of literals directly and the
two literals of a variable are neighbours. The largest code is reserved: it names no literal.
-/

set_option autoImplicit false

namespace Dpll

abbrev Var := Nat

/-- A literal, held as its code, which is twice the variable, plus one for a negated literal. Codes
are 64-bit numbers. -/
structure Literal where
  code : Nat
  code_lt : code < 18446744073709551616
deriving DecidableEq

namespace Literal

def invalid : Literal := ⟨18446744073709551615, by decide⟩

instance : Inhabited Literal := ⟨invalid⟩

def isValid (literal : Literal) : Bool := literal.code != invalid.code

def var (literal : Literal) : Var := literal.code / 2

/-- Whether a literal asserts its variable; a negated literal denies it. -/
def positive (literal : Literal) : Bool := literal.code % 2 == 0

def negate (literal : Literal) : Literal :=
  if even : literal.code % 2 = 0 then
    ⟨literal.code + 1, by have := literal.code_lt; omega⟩
  else
    ⟨literal.code - 1, by have := literal.code_lt; omega⟩

def codeOf (var : Var) (positive : Bool) : Nat := 2 * var + if positive then 0 else 1

def ofVar? (var : Var) (positive : Bool) : Option Literal :=
  if small : codeOf var positive < 18446744073709551616 then
    some ⟨codeOf var positive, small⟩
  else none

/-- The literal that a non-zero signed number denotes: its magnitude is the variable counted from
one and its sign is the sign of the literal. Zero denotes no literal. -/
def ofDimacs? (value : Int) : Option Literal :=
  if value = 0 then none else ofVar? (value.natAbs - 1) (0 < value)

def toDimacs (literal : Literal) : Int :=
  if literal.positive then (literal.var + 1 : Nat) else -(literal.var + 1 : Nat)

/-- The text of a literal: its signed number, or a question mark for the reserved code. -/
def text (literal : Literal) : String :=
  if literal.isValid then
    if literal.positive then toString (literal.var + 1) else "-" ++ toString (literal.var + 1)
  else "?"

def le (left right : Literal) : Bool := left.code ≤ right.code

def sort (literals : List Literal) : List Literal := literals.mergeSort le

def greatest? : List Literal → Option Literal
  | [] => none
  | first :: rest =>
    some (rest.foldl (fun best literal => if le best literal then literal else best) first)

end Literal

end Dpll
