import Dpll.Engine.Memory
import Dpll.Formula.Literal

/-!
# Faults

An operation of the engine is entitled to certain preconditions: an index lies inside its table, a
watch list is empty before it is filled again. Each operation tests what it relies on and reports
the first precondition that does not hold. A fault is never an answer about a formula.
-/

set_option autoImplicit false

namespace Dpll

/-- The precondition that an operation found broken. -/
inductive Fault where
  | emptyClause
  | noClause (index : Nat)
  | noSlot (slot : Nat)
  | noWatchList (literal : Literal)
  | watchListInUse (literal : Literal)
  | noVariable (var : Var)
  | invalidLiteral
  | noLiteral (var : Var)
  | levelInUse (level : Nat)
  | noLowerLevel
  | tooManyVariables (count : Nat)
  | searchTooLong
  | timeLimitTooLong
deriving DecidableEq

def checkVariables (count : Nat) : Except Fault Unit :=
  if count < variableLimit then .ok () else .error (.tooManyVariables count)

end Dpll
