import Dpll.Engine.Search

/-!
# Sessions

A session is a sequence of requests to a solver. Every state that a user of the engine can bring
about is reached from an empty solver by such a sequence.
-/

set_option autoImplicit false

namespace Dpll

inductive Command where
  | createVariables (count : Nat)
  | addClause (literals : Array Literal)
  | decide (literal : Literal)
  | assign (literal : Literal)
  | backtrackTo (level : Nat)
  | solve
deriving DecidableEq

inductive Reply where
  | done
  | added (ref : ClauseRef)
  | refused (error : EmptyClause)
  | propagated (conflict : Option Conflict)
  | answered (status : Status)
deriving DecidableEq

namespace Solver

def perform (clock : Clock) (solver : Solver) : Command → Except Fault (Reply × Solver)
  | .createVariables count =>
    match solver.ensureVariables count with
    | .error fault => .error fault
    | .ok solver => .ok (.done, solver)
  | .addClause literals =>
    match solver.addClause literals with
    | .error fault => .error fault
    | .ok (.ok ref, solver) => .ok (.added ref, solver)
    | .ok (.error empty, solver) => .ok (.refused empty, solver)
  | .decide literal =>
    match solver.decide literal with
    | .error fault => .error fault
    | .ok (conflict, solver) => .ok (.propagated conflict, solver)
  | .assign literal =>
    match solver.assign literal with
    | .error fault => .error fault
    | .ok (conflict, solver) => .ok (.propagated conflict, solver)
  | .backtrackTo level =>
    match solver.trail.checkUndo level with
    | .error fault => .error fault
    | .ok () => .ok (.done, solver.backtrackTo level)
  | .solve =>
    match solver.solve clock with
    | .error fault => .error fault
    | .ok (status, solver) => .ok (.answered status, solver)

def run (clock : Clock) (solver : Solver) : List Command → Except Fault Solver
  | [] => .ok solver
  | command :: rest =>
    match solver.perform clock command with
    | .error fault => .error fault
    | .ok (_, solver) => solver.run clock rest

end Solver

end Dpll
