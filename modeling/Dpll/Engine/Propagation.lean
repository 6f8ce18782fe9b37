import Dpll.Engine.Solver

/-!
# Unit propagation

When a literal becomes true, its negation becomes false, and only the clauses that watch the
negation can be affected. `Solver.sweep` visits them in the order of their watch list: a clause
may find another literal to watch and leave the list, force its other watched literal, or turn out
to be false in all literals, which ends the sweep. `Solver.propagate` sweeps for one literal of
the trail after another, in the order in which they became true, until none is left.
-/

set_option autoImplicit false

namespace Dpll

namespace Solver

/-- The state after visiting clauses of a watch list, with those that stay in the list and the
conflict that ended the sweep. -/
structure Sweep where
  solver : Solver
  kept : Array ClauseRef
  conflict : Option Conflict

/-- Moves one watch of a clause to another position and lists the clause under the literal there.
The list that it is visited from is not touched. -/
def rewatch (solver : Solver) (ref : ClauseRef) (clause : Clause) (slot : Slot)
    (position : Fin clause.literals.size) : Solver :=
  { solver with
    clauses := solver.clauses.setIfInBounds ref.index (clause.move slot position)
    watches := solver.watches.watch (clause.literalAt position) ref }.record
      (.rewatched ref (clause.literalAt position) (clause.watched slot))

def setWatchList (solver : Solver) (literal : Literal) (refs : Array ClauseRef) : Solver :=
  { solver with watches := solver.watches.replace literal refs }

/-- Visits the clauses listed under a literal that has become false. After a conflict the clauses
not visited stay in the list. -/
def sweep (falsified : Literal) :
    List ClauseRef → Array ClauseRef → Solver → Except Fault Sweep
  | [], kept, solver => .ok ⟨solver, kept, none⟩
  | ref :: rest, kept, solver =>
    match solver.clauses.get? ref with
    | none => .error (.noClause ref.index)
    | some clause =>
      match clause.visit falsified solver.model with
      | .stray => sweep falsified rest kept (solver.record (.strayWatch ref falsified))
      | .satisfied => sweep falsified rest (kept.push ref) solver
      | .movable slot position =>
        if solver.watches.Covers (clause.literalAt position) then
          sweep falsified rest kept (solver.rewatch ref clause slot position)
        else .error (.noWatchList (clause.literalAt position))
      | .forcing literal =>
        match (solver.record (.forced ref literal)).push literal with
        | .error fault => .error fault
        | .ok (none, solver) => sweep falsified rest (kept.push ref) solver
        | .ok (some conflict, solver) =>
          .ok ⟨solver, kept.push ref ++ rest.toArray, some conflict⟩
      | .refuted => .ok ⟨solver, kept.push ref ++ rest.toArray, some (.clause ref)⟩

/-- Visits all clauses listed under a literal that has become false. Its list is taken apart before
the sweep and put together again after it. -/
def sweepAll (solver : Solver) (falsified : Literal) : Except Fault Sweep :=
  sweep falsified (solver.watches.watchedBy falsified).toList #[]
    (solver.setWatchList falsified #[])

def propagateLiteral (solver : Solver) (literal : Literal) :
    Except Fault (Option Conflict × Solver) :=
  if solver.watches.Covers literal.negate then
    match solver.sweepAll literal.negate with
    | .error fault => .error fault
    | .ok swept =>
      if (swept.solver.watches.watchedBy literal.negate).isEmpty then
        .ok (swept.conflict, swept.solver.setWatchList literal.negate swept.kept)
      else .error (.watchListInUse literal.negate)
  else .error (.noWatchList literal.negate)

def concede (solver : Solver) (literal : Literal) (conflict : Conflict) : Solver :=
  let solver := solver.count fun statistics =>
    { statistics with conflicts := statistics.conflicts + 1 }
  { solver with trail := solver.trail.settle }.record (.conflicted literal conflict)

def dequeue (solver : Solver) : Solver :=
  let solver := solver.count fun statistics =>
    { statistics with propagations := statistics.propagations + 1 }
  { solver with trail := solver.trail.advance }

/-! ## Propagation ends

Each literal made true decides a variable and waits to be propagated, so the number of undecided
variables and of waiting literals taken together does not grow during a sweep. It falls with every
literal taken off the queue. -/

def workload (solver : Solver) : Nat :=
  solver.trail.values.count .unset + solver.trail.pending

private theorem workload_record (solver : Solver) (event : Event) :
    (solver.record event).workload = solver.workload := rfl

/-- Making a literal true that nothing is known of moves its variable from the undecided ones to the
waiting ones. -/
theorem workload_assign (solver : Solver) (literal : Literal)
    (covered : solver.trail.Covers literal) (free : literal.value solver.trail.values = .unset) :
    { solver with trail := solver.trail.assign literal }.workload = solver.workload := by
  have inside : literal.var < solver.trail.values.size := covered
  have undecided : solver.trail.values[literal.var] = .unset := by
    have known : solver.trail.values.value literal.var = .unset := by
      unfold Literal.value at free
      split at free
      · exact free
      · cases value : solver.trail.values.value literal.var <;> simp_all [Truth.complement]
    simpa [Valuation.value, Array.getD, inside] using known
  have positive : 0 < solver.trail.values.count .unset := by
    rw [Array.count_pos_iff, ← undecided]
    exact Array.getElem_mem inside
  have decided : (Truth.ofSign literal.positive == Truth.unset) = false := by
    cases literal.positive <;> rfl
  simp only [workload, Trail.assign, Array.setIfInBounds, inside, ↓reduceDIte, Array.count_set,
    undecided, decided]
  simp
  omega

private theorem workload_push {solver next : Solver} {literal : Literal} {conflict : Option Conflict}
    (pushed : solver.push literal = .ok (conflict, next)) : next.workload = solver.workload := by
  unfold push Trail.judge at pushed
  split at pushed
  · cases pushed
  · cases pushed; rfl
  · cases pushed; rfl
  · rename_i judged
    split at judged
    · cases judged
    · cases judged
    · rename_i free
      split at judged
      · rename_i covered
        cases pushed
        exact workload_assign solver literal covered free
      · cases judged

private theorem workload_sweep {falsified : Literal} {refs : List ClauseRef} {kept : Array ClauseRef}
    {solver : Solver} {swept : Sweep} (done : sweep falsified refs kept solver = .ok swept) :
    swept.solver.workload = solver.workload := by
  induction refs generalizing kept solver with
  | nil => cases done; rfl
  | cons ref rest ih =>
    unfold sweep at done
    split at done
    · cases done
    · split at done
      · exact (ih done).trans (workload_record ..)
      · exact ih done
      · split at done
        · exact (ih done).trans rfl
        · cases done
      · split at done
        · cases done
        · rename_i pushed
          exact (ih done).trans ((workload_push pushed).trans (workload_record ..))
        · rename_i pushed
          cases done
          exact (workload_push pushed).trans (workload_record ..)
      · cases done; rfl

private theorem workload_sweepAll {solver : Solver} {falsified : Literal} {swept : Sweep}
    (done : solver.sweepAll falsified = .ok swept) :
    swept.solver.workload = solver.workload := by
  unfold sweepAll at done
  have same := workload_sweep done
  exact same

theorem workload_propagateLiteral {solver next : Solver} {literal : Literal}
    {conflict : Option Conflict}
    (done : solver.propagateLiteral literal = .ok (conflict, next)) :
    next.workload = solver.workload := by
  unfold propagateLiteral at done
  split at done
  · split at done
    · cases done
    · rename_i sweptAll
      split at done
      · cases done
        exact workload_sweepAll sweptAll
      · cases done
  · cases done

/-- A literal taken off the queue is no longer waiting. -/
theorem workload_dequeue {solver : Solver} {literal : Literal}
    (waiting : solver.trail.next? = some literal) : solver.dequeue.workload < solver.workload := by
  have positive : 0 < solver.trail.pending := by
    unfold Trail.next? at waiting
    split at waiting
    · cases waiting
    · omega
  simp only [workload, dequeue, count, Trail.advance]
  omega

/-- Follows the consequences of all literals that have become true since the last propagation, and
of those that they force in turn. -/
def propagate (solver : Solver) : Except Fault (Option Conflict × Solver) :=
  match _waiting : solver.trail.next? with
  | none => .ok (none, solver)
  | some literal =>
    match _done : solver.dequeue.propagateLiteral literal with
    | .error fault => .error fault
    | .ok (some conflict, next) => .ok (some conflict, next.concede literal conflict)
    | .ok (none, next) => propagate next
termination_by solver.workload
decreasing_by
  rw [workload_propagateLiteral _done]
  exact workload_dequeue _waiting

def assign (solver : Solver) (literal : Literal) : Except Fault (Option Conflict × Solver) := do
  let solver ← solver.ensureVariables (literal.var + 1)
  match ← solver.push literal with
  | (some conflict, solver) => return (some conflict, solver)
  | (none, solver) => solver.propagate

def decide (solver : Solver) (literal : Literal) : Except Fault (Option Conflict × Solver) :=
  let solver := { solver with trail := solver.trail.newLevel }
  let solver := solver.count fun statistics =>
    { statistics with
      decisions := statistics.decisions + 1
      maxLevel := max statistics.maxLevel solver.level }
  (solver.record (.decided literal solver.level)).assign literal

end Solver

end Dpll
