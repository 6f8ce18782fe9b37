import Dpll.Formula.Semantics

/-!
# The order of assignments

Assignments to the first few variables are compared at the lowest variable on which they differ,
where true is above false.
-/

set_option autoImplicit false

namespace Dpll.Assignment

def AgreeBelow (count : Nat) (left right : Assignment) : Prop :=
  ∀ var < count, left var = right var

instance (count : Nat) (left right : Assignment) : Decidable (AgreeBelow count left right) :=
  inferInstanceAs (Decidable (∀ var < count, left var = right var))

/-- On the variables below `count`, the left assignment is not above the right one. -/
def AtMost (count : Nat) (left right : Assignment) : Prop :=
  AgreeBelow count left right ∨
    ∃ var < count, AgreeBelow var left right ∧ left var = false ∧ right var = true

end Dpll.Assignment
