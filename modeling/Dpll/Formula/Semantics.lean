import Dpll.Formula.Valuation

/-!
# Satisfaction

The meaning of a formula does not mention search: an assignment gives every variable a truth
value, a clause asks for one of its literals, and a formula asks for all of its clauses.
-/

set_option autoImplicit false

namespace Dpll

abbrev Assignment := Var → Bool

/-- A formula in conjunctive normal form, as the literals of its clauses. -/
abbrev Formula := List (List Literal)

def Literal.Holds (assignment : Assignment) (literal : Literal) : Prop :=
  assignment literal.var = literal.positive

instance (assignment : Assignment) (literal : Literal) : Decidable (literal.Holds assignment) :=
  inferInstanceAs (Decidable (assignment literal.var = literal.positive))

/-- An assignment satisfies a formula if every clause has a literal that holds. -/
def Formula.Satisfied (assignment : Assignment) (formula : Formula) : Prop :=
  ∀ clause ∈ formula, ∃ literal ∈ clause, literal.Holds assignment

instance (assignment : Assignment) (formula : Formula) :
    Decidable (formula.Satisfied assignment) :=
  inferInstanceAs (Decidable (∀ clause ∈ formula, ∃ literal ∈ clause, literal.Holds assignment))

def Formula.Satisfiable (formula : Formula) : Prop :=
  ∃ assignment : Assignment, formula.Satisfied assignment

/-- The assignment that completes a valuation: a variable not decided takes the given value. -/
def Valuation.complete (values : Valuation) (filler : Bool) : Assignment := fun var =>
  match values.value var with
  | .holds => true
  | .fails => false
  | .unset => filler

end Dpll
