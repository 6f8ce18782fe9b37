import Dpll.Formula.Semantics

/-!
# Unit consequences

A clause of which all positions but one are known to be false leaves only the literal at that
position. `Formula.Forced` is the least set of literals that is closed under this rule, and
`Formula.saturate?` reaches it on a valuation by looking at all clauses again and again.
-/

set_option autoImplicit false

namespace Dpll.Formula

/-- The literals that follow from known ones by clauses of at least two literals. -/
inductive Forced (formula : Formula) (known : Literal → Prop) : Literal → Prop where
  | given {literal : Literal} : known literal → Forced formula known literal
  | left {clause : List Literal} {position : Nat} {literal : Literal} :
      clause ∈ formula → 2 ≤ clause.length → clause[position]? = some literal →
      (∀ (place : Nat) (other : Literal), place ≠ position → clause[place]? = some other →
        Forced formula known other.negate) →
      Forced formula known literal

def refuted (values : Valuation) (clause : List Literal) : Bool :=
  clause.all (·.value values = .fails)

/-- The literal of the only position of a clause that is not false, if nothing is known of it. -/
def unitLiteral? (values : Valuation) (clause : List Literal) : Option Literal :=
  match clause.filter (·.value values ≠ .fails) with
  | [literal] => if literal.value values = .unset then some literal else none
  | _ => none

def setTrue (values : Valuation) (literal : Literal) : Valuation :=
  values.setIfInBounds literal.var (Truth.ofSign literal.positive)

/-- Makes literals true that clauses leave as the only ones, at most so many. There is no result
if a clause turns out to be false. -/
def saturate? (formula : Formula) : Nat → Valuation → Option Valuation
  | 0, values => if formula.any (refuted values) then none else some values
  | more + 1, values =>
    if formula.any (refuted values) then none
    else match formula.findSome? (unitLiteral? values) with
      | none => some values
      | some literal => saturate? formula more (setTrue values literal)

end Dpll.Formula
