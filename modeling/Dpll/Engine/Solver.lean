import Dpll.Engine.Journal
import Dpll.Engine.Trail
import Dpll.Engine.WatchIndex

/-!
# Solver state

A solver holds the clauses of a formula, the watch lists over them, the trail, and the decisions of
a running search. This module has the state and the operations that need no propagation: growing the
tables, adding a clause, making one literal true, undoing levels.
-/

set_option autoImplicit false

namespace Dpll

/-- What a solver is told to do beyond deciding the formula. A search gives up after so many
decisions or nanoseconds. -/
structure Options where
  verbose : Bool := false
  decisionLimit : Option Nat := none
  timeLimit : Option Nat := none
deriving DecidableEq

structure Statistics where
  variableCount : Nat := 0
  clauseCount : Nat := 0
  literalCount : Nat := 0
  decisions : Nat := 0
  conflicts : Nat := 0
  propagations : Nat := 0
  backtracks : Nat := 0
  maxLevel : Nat := 0
deriving DecidableEq

/-- A variable that the search has chosen, the level that the decision opened, and whether the
search has turned to the negative literal. -/
structure Decision where
  var : Var
  level : Nat
  flipped : Bool
deriving DecidableEq

/-- A formula with everything that is known about it. An empty clause is never stored, only noted.
The decisions still open stand the innermost first. -/
structure Solver where
  options : Options := {}
  clauses : ClauseStore := #[]
  hasEmptyClause : Bool := false
  watches : WatchIndex := {}
  trail : Trail := {}
  decisions : List Decision := []
  statistics : Statistics := {}
  journal : Journal := {}

/-- The clause to be added has no literals. So many clauses were stored before it. -/
structure EmptyClause where
  index : Nat
deriving DecidableEq

def EmptyClause.message (error : EmptyClause) : String := s!"Clause {error.index} is empty"

namespace Solver

def record (solver : Solver) (event : Event) : Solver :=
  { solver with journal := solver.journal.record event }

def count (solver : Solver) (update : Statistics → Statistics) : Solver :=
  { solver with statistics := update solver.statistics }

def level (solver : Solver) : Nat := solver.trail.level

def model (solver : Solver) : Valuation := solver.trail.values

def formula (solver : Solver) : List (List Literal) :=
  solver.clauses.toList.map (·.literals.toList)

def ensureVariables (solver : Solver) (count : Nat) : Except Fault Solver :=
  if count ≤ solver.statistics.variableCount then .ok solver
  else match checkVariables count with
    | .error fault => .error fault
    | .ok () => .ok { solver with
        statistics := { solver.statistics with variableCount := count }
        trail := solver.trail.grow count
        watches := solver.watches.grow count }

/-- Undoes every literal made true at the level or above it, and says how many there were. -/
def popTo (solver : Solver) (level : Nat) : Solver :=
  let undone := (Trail.above solver.trail.entries level).length
  let solver := { solver with trail := solver.trail.popTo level }
  if undone = 0 then solver else solver.record (.unassigned undone level)

def backtrackTo (solver : Solver) (level : Nat) : Solver :=
  let solver := solver.popTo level
  { solver with decisions := solver.decisions.filter (·.level < level) }

def reset (solver : Solver) : Solver := solver.backtrackTo 0

def watchAll (watches : WatchIndex) (ref : ClauseRef) : List Literal → Except Fault WatchIndex
  | [] => .ok watches
  | literal :: rest =>
    if watches.Covers literal then watchAll (watches.watch literal ref) ref rest
    else .error (.noWatchList literal)

def width (literals : Array Literal) : Nat :=
  literals.foldl (fun most literal => max most literal.var) 0 + 1

def insert (solver : Solver) (literals : Array Literal) :
    Except Fault (ClauseRef × Solver) := do
  solver.trail.checkUndo 0
  let solver ← solver.reset.ensureVariables (width literals)
  match Clause.ofLiterals? literals with
  | none => throw .emptyClause
  | some clause =>
    let ref := solver.clauses.nextRef
    let watches ← watchAll solver.watches ref clause.watchKeys
    let solver := { solver with
      clauses := solver.clauses.push clause
      watches := watches
      statistics := { solver.statistics with
        clauseCount := solver.statistics.clauseCount + 1
        literalCount := solver.statistics.literalCount + literals.size } }
    return (ref, solver.record (.clauseAdded ref clause))

/-- Adds a clause to the formula and discards all assignments. An empty clause is refused, but the
formula is unsatisfiable from then on. -/
def addClause (solver : Solver) (literals : Array Literal) :
    Except Fault (Except EmptyClause ClauseRef × Solver) :=
  if literals.isEmpty then
    let index := solver.statistics.clauseCount
    .ok (.error ⟨index⟩,
      { solver.record (.emptyClauseAdded index) with hasEmptyClause := true })
  else if literals.all (·.isValid) then
    match solver.insert literals with
    | .error fault => .error fault
    | .ok (ref, solver) => .ok (.ok ref, solver)
  else .error .invalidLiteral

def addClauses (solver : Solver) :
    List (Array Literal) → Except Fault (Except EmptyClause Unit × Solver)
  | [] => .ok (.ok (), solver)
  | literals :: rest =>
    match solver.addClause literals with
    | .error fault => .error fault
    | .ok (.error empty, solver) => .ok (.error empty, solver)
    | .ok (.ok _, solver) => solver.addClauses rest

/-- Makes a literal true at the current level, without following its consequences. -/
def push (solver : Solver) (literal : Literal) : Except Fault (Option Conflict × Solver) :=
  match solver.trail.judge literal with
  | .error fault => .error fault
  | .ok .present => .ok (none, solver)
  | .ok .rejected =>
    .ok (some (.assignment literal), solver.record (.rejected literal solver.level))
  | .ok .free =>
    let solver := { solver with trail := solver.trail.assign literal }
    .ok (none, solver.record (.assigned literal solver.level))

end Solver

end Dpll
