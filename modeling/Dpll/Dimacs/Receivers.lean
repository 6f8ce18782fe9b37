import Dpll.Dimacs.Reader
import Dpll.Engine.Search

/-!
# Receivers of formulas

A formula can be read into a solver, or written down as it comes.
-/

set_option autoImplicit false

namespace Dpll.Dimacs

def solverReceiver : Receiver (Except Fault Solver) where
  createVariables count state := state.bind (·.ensureVariables count)
  addClause literals state :=
    match state.bind (·.addClause literals) with
    | .error fault => (false, .error fault)
    | .ok (.error _, solver) => (false, .ok solver)
    | .ok (.ok _, solver) => (true, .ok solver)

inductive Call where
  | createVariables (count : Nat)
  | addClause (literals : Array Literal)
deriving DecidableEq

/-- The requests made so far, the newest first, and the number of clauses among them. -/
structure Transcript where
  calls : List Call := []
  clauses : Nat := 0

/-- Writing down what a receiver is asked to do. The receiver refuses the clause of the given
number, and an empty clause unless told otherwise. -/
def transcriptReceiver (refused : Option Nat) (acceptsEmpty : Bool) : Receiver Transcript where
  createVariables count transcript :=
    { transcript with calls := .createVariables count :: transcript.calls }
  addClause literals transcript :=
    let number := transcript.clauses + 1
    ((acceptsEmpty || !literals.isEmpty) && refused ≠ some number,
      { calls := .addClause literals :: transcript.calls, clauses := number })

end Dpll.Dimacs
