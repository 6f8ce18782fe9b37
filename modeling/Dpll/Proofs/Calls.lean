import Dpll.Proofs.Replay
import Dpll.Proofs.Retreats

/-!
# The calls inside a request

A request that makes literals true does so in states of its own, and a search passes through many of
them. `Solver.Undoes` holds of the states in which a search undoes decisions, `Solver.Assigns` of the
literals that a request sets out to make true, each with the state at that moment, and
`Solver.Propagates` of the states in which propagation looks for the next literal of its queue. Nothing
waits when a literal is to be made true. A search makes only such literals true as are not false.
-/

set_option autoImplicit false

namespace Dpll.Solver

variable {problem : Problem} {origin solver state next after : Solver} {clock : Clock}
  {command : Command} {literal : Literal} {var : Var} {decision : Decision}
  {decisions outer : List Decision}

/-! ## Undoing decisions -/

inductive Undoes (clock : Clock) (origin : Solver) : List Decision → Solver → Prop where
  | deadEnd {current failed : Solver} :
      Round clock origin current → DeadEnd current (clock current.statistics.decisions) failed →
      Undoes clock origin failed.decisions failed.counted
  | failed {decision : Decision} {outer : List Decision} {reason : Conflict}
      {solver next : Solver} :
      Undoes clock origin (decision :: outer) solver → decision.flipped = false →
      solver.turn decision outer = .ok (some reason, next) →
      Undoes clock origin ({ decision with flipped := true } :: outer) next
  | closed {decision : Decision} {outer : List Decision} {solver next : Solver} :
      Undoes clock origin (decision :: outer) solver → decision.flipped = true →
      solver.abandon decision outer = .ok next → Undoes clock origin outer next

theorem Undoes.stranded (undoes : Undoes clock origin decisions state) (resting : origin.Resting) :
    Stranded origin.problem decisions state := by
  induction undoes with
  | deadEnd round deadEnd => exact ((round.searching resting).stranded deadEnd).counted
  | failed _ fresh turned ih =>
      obtain ⟨literal, conflict, next, done, trying, propagated⟩ := ih.exists_turn fresh
      cases turned.symm.trans done
      exact trying.stranded propagated
  | closed _ flipped abandoned ih =>
      obtain ⟨done, outside⟩ := ih.exists_abandon flipped
      cases abandoned.symm.trans done
      exact outside

/-! ## Making literals true -/

def branched (solver : Solver) (var : Var) (literal : Literal) : Solver :=
  { solver with
    decisions := { var, level := solver.level + 1, flipped := false } ::
      solver.decisions }.reportProgress.deepened literal

theorem branch_eq_assign (made : literalOf var true = .ok literal) :
    solver.branch var = (solver.branched var literal).assign literal := by
  simp only [branch, made, bind, Except.bind]
  rfl

theorem turn_eq_assign (made : literalOf decision.var false = .ok literal)
    (checked : solver.trail.checkUndo decision.level = .ok ()) :
    solver.turn decision outer = (solver.turned decision outer).assign literal := by
  simp only [turn, made, checked, bind, Except.bind]
  rfl

/-- The literals that a request sets out to make true, each with the state at that moment. A search
begins with the unit clauses, tries the positive literals of its decisions and turns them to the
negative ones. -/
inductive Assigns (clock : Clock) (origin : Solver) : Command → Solver → Literal → Prop where
  | assign (literal : Literal) : Assigns clock origin (.assign literal) origin literal
  | decide (literal : Literal) :
      Assigns clock origin (.decide literal) (origin.deepened literal) literal
  | unit {earlier later : List Literal} {literal : Literal} {state : Solver} :
      origin.restart.hasEmptyClause = false → origin.restart.units = earlier ++ literal :: later →
      origin.restart.assignAll earlier = .ok (none, state) →
      Assigns clock origin .solve state literal
  | branch {current : Solver} {var : Var} {literal : Literal} :
      Round clock origin current →
      current.limitReached (clock current.statistics.decisions) = false →
      current.clauses.allSatisfied current.model = false →
      current.model.firstUnset? = some var → literalOf var true = .ok literal →
      Assigns clock origin .solve (current.branched var literal) literal
  | turn {decision : Decision} {outer : List Decision} {literal : Literal} {state : Solver} :
      Undoes clock origin (decision :: outer) state → decision.flipped = false →
      literalOf decision.var false = .ok literal →
      Assigns clock origin .solve (state.turned decision outer) literal

private theorem exists_branched_eq (solver : Solver) (var : Var) (literal : Literal) :
    ∃ journal, solver.branched var literal = solver.opened var journal := by
  simp only [branched, reportProgress]
  split <;> exact ⟨_, rfl⟩

private theorem literalOf_eq_ok {positive : Bool} (small : var < variableLimit)
    (made : literalOf var positive = .ok literal) :
    literal.var = var ∧ literal.positive = positive := by
  obtain ⟨other, found, same, sign⟩ := Literal.exists_ofVar? small positive
  simp only [literalOf, found] at made
  cases made
  exact ⟨same, sign⟩

private theorem Rooting.of_assignAll (rooting : Rooting problem solver) {literals : List Literal}
    (units : ∀ literal ∈ literals, [literal] ∈ problem.formula)
    (done : solver.assignAll literals = .ok (none, after)) : Rooting problem after := by
  obtain ⟨conflict, other, same, outcome⟩ := rooting.exists_assignAll literals units
  cases done.symm.trans same
  exact outcome.1

/-- Wherever a search sets out to make a literal true, propagation is complete and the literal is not
false. -/
theorem Assigns.ready (assigns : Assigns clock origin .solve state literal)
    (resting : origin.Resting) :
    state.Settled ∧ state.trail.Covers literal ∧ literal.value state.model ≠ .fails := by
  cases assigns with
  | @unit earlier later _ _ _ split followed =>
      have rooting := resting.rooting_restart
      have units : ∀ unit ∈ earlier ++ literal :: later, [unit] ∈ origin.problem.formula := by
        intro unit member
        rw [← rooting.formula]
        exact mem_units_iff.mp (split ▸ member)
      have still := rooting.of_assignAll
        (fun unit member => units unit (List.mem_append_left _ member)) followed
      have unit := units literal (List.mem_append_right _ (.head _))
      exact ⟨still.toSettled, still.covers_unit unit, still.unit_not_fails unit⟩
  | @branch current var _ round _ unsatisfied lowest made =>
      have searching := round.searching resting
      obtain ⟨inside, -, -⟩ := Valuation.firstUnset?_eq_some_iff.mp lowest
      have small : current.model.size < variableLimit := searching.sized ▸ searching.small
      obtain ⟨same, positive⟩ := literalOf_eq_ok (Nat.lt_trans inside small) made
      obtain ⟨journal, opened⟩ := exists_branched_eq current var literal
      have trying := searching.trying (searching.unsatisfied unsatisfied) lowest same positive journal
      rw [opened]
      refine ⟨trying.toSettled, trying.covered, ?_⟩
      rw [trying.free]
      simp
  | turn undoes fresh made =>
      obtain ⟨other, same, trying⟩ := (undoes.stranded resting).exists_trying fresh
      cases made.symm.trans same
      refine ⟨trying.toSettled, trying.covered, ?_⟩
      rw [trying.free]
      simp

theorem Assigns.resting (assigns : Assigns clock origin command state literal)
    (resting : origin.Resting) : state.Resting := by
  cases command with
  | assign literal =>
      cases assigns
      exact resting
  | decide literal =>
      cases assigns
      exact resting.deepened literal
  | solve => exact (assigns.ready resting).1.toResting
  | createVariables | addClause | backtrackTo => cases assigns

/-! ## Propagating them -/

inductive Propagates (clock : Clock) (origin : Solver) (command : Command) : Solver → Prop where
  | first {state wide pushed : Solver} {literal : Literal} :
      Assigns clock origin command state literal →
      state.ensureVariables (literal.var + 1) = .ok wide →
      wide.push literal = .ok (none, pushed) → Propagates clock origin command pushed
  | next {state after : Solver} {literal : Literal} :
      Propagates clock origin command state → state.trail.next? = some literal →
      state.dequeue.propagateLiteral literal = .ok (none, after) →
      Propagates clock origin command after

/-- The state in which a literal that is not false is about to be propagated. -/
def enqueued? (solver : Solver) (literal : Literal) : Option Solver :=
  match solver.ensureVariables (literal.var + 1) with
  | .error _ => none
  | .ok wide =>
    match wide.push literal with
    | .ok (none, pushed) => some pushed
    | _ => none

theorem Propagates.of_enqueued? (assigns : Assigns clock origin command state literal)
    (found : state.enqueued? literal = some after) : Propagates clock origin command after := by
  unfold enqueued? at found
  split at found
  · cases found
  · next grown =>
    split at found
    · next pushed =>
      cases found
      exact .first assigns grown pushed
    · cases found

private theorem Resting.propagating_zero (resting : solver.Resting) : Propagating 0 solver where
  toIntact := resting.toIntact
  uniform := by
    rw [resting.idle]
    simp
  guarded := .zero _ _ _

private theorem Resting.propagating_of_push (resting : solver.Resting)
    (pushed : solver.push literal = .ok (none, after)) : Propagating 0 after := by
  cases value : literal.value solver.model with
  | unset =>
      obtain ⟨covered, -, rfl⟩ := push_eq_ok_of_unset value pushed
      exact resting.propagating (.zero _ _ _) covered value
  | holds =>
      have value : literal.value solver.trail.values = .holds := value
      simp only [push, Trail.judge, value, Except.ok.injEq, Prod.mk.injEq, true_and] at pushed
      exact pushed ▸ resting.propagating_zero
  | fails =>
      have value : literal.value solver.trail.values = .fails := value
      simp [push, Trail.judge, value] at pushed

/-- Inside a request the queue holds literals of the current level, and the index tracks the clauses. -/
theorem Propagates.propagating (propagates : Propagates clock origin command state)
    (resting : origin.Resting) : Propagating 0 state := by
  -- The bound is zero, since a conflict that nobody has dealt with may have spoiled the guard anywhere.
  induction propagates with
  | first assigns grown pushed =>
      have before := assigns.resting resting
      have fits := lt_of_ensureVariables before.small grown
      obtain ⟨wide, same, widened⟩ := before.toIntact.exists_ensureVariables fits
      cases grown.symm.trans same
      exact (widened.resting before.idle).propagating_of_push pushed
  | next _ waiting swept ih =>
      obtain ⟨conflict, after, done, -, -, -, -, proceed, -⟩ := ih.exists_propagateLiteral waiting
      cases swept.symm.trans done
      exact proceed rfl

end Dpll.Solver
