import Dpll.Engine.Propagation

/-!
# Search

The search goes through the assignments depth first. It picks the lowest undecided variable, tries
the positive literal and after a conflict the negative one, and undoes decisions of which both
literals have failed. `Solver.step` is one round of it: it ends the search or leaves a state in
which propagation has met no conflict. `Solver.solve` starts from the unit clauses and takes such
steps.
-/

set_option autoImplicit false

namespace Dpll

/-- How long a search has been running, in nanoseconds, when it has made a number of decisions. -/
abbrev Clock := Nat → Nat

def Clock.stopped : Clock := fun _ => 0

namespace Solver

def progressInterval : Nat := 10000

def literalOf (var : Var) (positive : Bool) : Except Fault Literal :=
  match Literal.ofVar? var positive with
  | some literal => .ok literal
  | none => .error (.noLiteral var)

def assignAll (solver : Solver) : List Literal → Except Fault (Option Conflict × Solver)
  | [] => .ok (none, solver)
  | literal :: rest =>
    match solver.assign literal with
    | .error fault => .error fault
    | .ok (some conflict, solver) => .ok (some conflict, solver)
    | .ok (none, solver) => solver.assignAll rest

def units (solver : Solver) : List Literal := solver.clauses.toList.filterMap Clause.unit?

def limitReached (solver : Solver) (elapsed : Nat) : Bool :=
  solver.options.decisionLimit.any (· ≤ solver.statistics.decisions) ||
    solver.options.timeLimit.any (· ≤ elapsed)

def progress (solver : Solver) : Progress :=
  { decisions := solver.statistics.decisions
    conflicts := solver.statistics.conflicts
    propagations := solver.statistics.propagations
    level := solver.level
    assigned := solver.trail.entries.length }

def reportProgress (solver : Solver) : Solver :=
  if solver.options.verbose && 0 < solver.statistics.decisions &&
      solver.statistics.decisions % progressInterval == 0 then
    { solver with journal := solver.journal.report solver.progress }
  else solver

def branch (solver : Solver) (var : Var) : Except Fault (Option Conflict × Solver) := do
  let literal ← literalOf var true
  let decision := { var, level := solver.level + 1, flipped := false : Decision }
  let solver := { solver with decisions := decision :: solver.decisions }
  solver.reportProgress.decide literal

def abandon (solver : Solver) (decision : Decision) (outer : List Decision) :
    Except Fault Solver := do
  solver.trail.checkUndo decision.level
  let solver := solver.popTo decision.level
  let trail ← solver.trail.lowerLevel (← Trail.levelBelow decision.level)
  return { solver with trail := trail, decisions := outer }

def turn (solver : Solver) (decision : Decision) (outer : List Decision) :
    Except Fault (Option Conflict × Solver) := do
  let literal ← literalOf decision.var false
  solver.trail.checkUndo decision.level
  let solver := { solver.popTo decision.level with
    decisions := { decision with flipped := true } :: outer }
  (solver.record (.flipped decision.var decision.level)).assign literal

/-- Undoes decisions, given the innermost first, until one can be turned to its negative literal
without conflict. Says whether there was one. -/
def retreat : List Decision → Solver → Except Fault (Bool × Solver)
  | [], solver => .ok (false, solver)
  | decision :: outer, solver =>
    if decision.flipped then
      match solver.abandon decision outer with
      | .error fault => .error fault
      | .ok solver => retreat outer solver
    else
      match solver.turn decision outer with
      | .error fault => .error fault
      | .ok (none, solver) => .ok (true, solver)
      | .ok (some _, solver) =>
        match solver.abandon decision outer with
        | .error fault => .error fault
        | .ok solver => retreat outer solver

def flipLast (solver : Solver) : Except Fault (Bool × Solver) :=
  let solver := solver.count fun statistics =>
    { statistics with backtracks := statistics.backtracks + 1 }
  retreat solver.decisions solver

inductive Step where
  | finished (status : Status) (solver : Solver)
  | continued (solver : Solver)

/-- Leaves a state that allows no solution for another branch. With none left the formula has no
solution. -/
def retry (solver : Solver) : Except Fault Step :=
  match solver.flipLast with
  | .error fault => .error fault
  | .ok (true, solver) => .ok (.continued solver)
  | .ok (false, solver) => .ok (.finished .unsat solver)

def advance (solver : Solver) : Except Fault Step :=
  match solver.model.firstUnset? with
  | none => solver.retry
  | some var =>
    match solver.branch var with
    | .error fault => .error fault
    | .ok (none, solver) => .ok (.continued solver)
    | .ok (some _, solver) => solver.retry

/-- One round of the search: stop at a limit or with all clauses satisfied, else branch. -/
def step (solver : Solver) (elapsed : Nat) : Except Fault Step :=
  if solver.limitReached elapsed then
    .ok (.finished .unknown (solver.record .limitReached))
  else if solver.clauses.allSatisfied solver.model then .ok (.finished .sat solver)
  else solver.advance

def steps (clock : Clock) : Nat → Solver → Except Fault (Status × Solver)
  | 0, _ => .error .searchTooLong
  | more + 1, solver =>
    match solver.step (clock solver.statistics.decisions) with
    | .error fault => .error fault
    | .ok (.finished status solver) => .ok (status, solver)
    | .ok (.continued solver) => steps clock more solver

def restart (solver : Solver) : Solver :=
  solver.reset.count fun statistics =>
    { variableCount := statistics.variableCount
      clauseCount := statistics.clauseCount
      literalCount := statistics.literalCount }

def begin (solver : Solver) : Except Fault Step :=
  if solver.hasEmptyClause then .ok (.finished .unsat solver)
  else match solver.assignAll solver.units with
    | .error fault => .error fault
    | .ok (some _, solver) => .ok (.finished .unsat solver)
    | .ok (none, solver) => .ok (.continued solver)

/-- Searches the whole formula. Each round that goes on has left one of the assignments behind, so
there are no more rounds than assignments. -/
def search (clock : Clock) (solver : Solver) : Except Fault (Status × Solver) :=
  match solver.begin with
  | .error fault => .error fault
  | .ok (.finished status solver) => .ok (status, solver)
  | .ok (.continued solver) => steps clock (Nat.pow 2 solver.statistics.variableCount) solver

def conclude (solver : Solver) (status : Status) : Solver :=
  solver.record
    (.finished status solver.statistics.decisions solver.statistics.conflicts)

def solve (solver : Solver) (clock : Clock) : Except Fault (Status × Solver) :=
  match solver.trail.checkUndo 0 with
  | .error fault => .error fault
  | .ok () =>
    match search clock solver.restart with
    | .error fault => .error fault
    | .ok (status, solver) => .ok (status, solver.conclude status)

end Solver

end Dpll
