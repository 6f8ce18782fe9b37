import Dpll.Formula.Literal

/-!
# Partial valuations

During search a variable is true, false or not decided yet. A valuation is a table of such values;
a variable beyond its end counts as not decided.
-/

set_option autoImplicit false

namespace Dpll

inductive Truth where
  | holds
  | fails
  | unset
deriving DecidableEq, Inhabited

namespace Truth

def ofSign (positive : Bool) : Truth := if positive then holds else fails

/-- The value of the negation. Nothing is known of either when nothing is known of one. -/
def complement : Truth → Truth
  | holds => fails
  | fails => holds
  | unset => unset

def letter : Truth → Char
  | holds => 'T'
  | fails => 'F'
  | unset => '?'

end Truth

/-- One value per variable, in the order of the variables. -/
abbrev Valuation := Array Truth

namespace Valuation

def value (values : Valuation) (var : Var) : Truth := values.getD var .unset

def firstUnset? (values : Valuation) : Option Var := values.findIdx? (· = .unset)

def text (values : Valuation) : String := String.ofList (values.toList.map Truth.letter)

end Valuation

def Literal.value (values : Valuation) (literal : Literal) : Truth :=
  if literal.positive then values.value literal.var else (values.value literal.var).complement

end Dpll
