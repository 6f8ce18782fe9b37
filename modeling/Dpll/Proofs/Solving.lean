import Dpll.Proofs.Searching

/-!
# Whole searches

A search starts from the unit clauses, takes one step after the other and ends. `Solver.Ends` says what
holds at its end for each answer. Main statement: from every solver at rest `Solver.solve` comes to
such an end, so it never runs out of steps and breaks no precondition.
-/

set_option autoImplicit false

namespace Dpll.Solver

variable {problem : Problem} {solver after : Solver} {literal : Literal} {status : Status}

def Ends (problem : Problem) (solver : Solver) : Status → Prop
  | .sat => Searching problem solver ∧
      PlainSearch.allSatisfied problem.formula solver.model = true
  | .unsat => Refuted problem solver
  | .unknown => Searching problem solver ∧
      (problem.options.decisionLimit.isSome ∨ problem.options.timeLimit.isSome)

/-- What a step of the search leads to, with the number of decisions made then: a state to go on from,
or the end. Only a refutation ends a step after its decision, other ends come before it. -/
def LeadsTo (problem : Problem) (count : Nat) : Step → Prop
  | .continued solver => Searching problem solver ∧ solver.statistics.decisions = count
  | .finished status solver => Ends problem solver status ∧
      solver.statistics.decisions + (if status = .unsat then 0 else 1) = count

/-! ## The steps of a search -/

def counted (solver : Solver) : Solver :=
  solver.count fun statistics => { statistics with backtracks := statistics.backtracks + 1 }

theorem Stranded.counted {decisions : List Decision}
    (stranded : Stranded problem decisions solver) : Stranded problem decisions solver.counted where
  toResting := stranded.toResting.transfer rfl rfl rfl rfl
  same := stranded.same
  guarded := stranded.guarded
  layered := stranded.layered
  excluded := stranded.excluded
  depth := stranded.depth
  deep := stranded.deep
  balanced := stranded.balanced

theorem Stranded.exists_retry (stranded : Stranded problem solver.decisions solver) :
    ∃ step, solver.retry = .ok step ∧ LeadsTo problem solver.statistics.decisions step := by
  obtain ⟨found, after, done, count, outcome⟩ := stranded.counted.exists_retreat
  have flipped : solver.flipLast = .ok (found, after) := done
  cases found with
  | true => exact ⟨.continued after, by simp only [retry, flipped], outcome, count⟩
  | false => exact ⟨.finished .unsat after, by simp only [retry, flipped], outcome, count⟩

theorem Searching.exists_advance (searching : Searching problem solver)
    (unsatisfied : PlainSearch.allSatisfied problem.formula solver.model = false) :
    ∃ step, solver.advance = .ok step ∧
      LeadsTo problem (solver.statistics.decisions + 1) step := by
  obtain ⟨var, literal, journal, conflict, next, choice, branched, trying, propagated⟩ :=
    searching.exists_branch unsatisfied
  have count : next.statistics.decisions = solver.statistics.decisions + 1 := by
    rw [propagated.continues.statistics]
    rfl
  cases conflict with
  | none =>
      exact ⟨.continued next, by simp only [advance, choice, branched],
        trying.searching propagated, count⟩
  | some reason =>
      have kept := propagated.continues.decisions.trans trying.decisions
      obtain ⟨step, retried, leads⟩ := Stranded.exists_retry (kept ▸ trying.stranded propagated)
      rw [count] at leads
      exact ⟨step, by simp only [advance, choice, branched, retried], leads⟩

/-- Every step ends the search or has made exactly one decision more. -/
theorem Searching.exists_step (searching : Searching problem solver) (elapsed : Nat) :
    ∃ step, solver.step elapsed = .ok step ∧
      LeadsTo problem (solver.statistics.decisions + 1) step := by
  cases limit : solver.limitReached elapsed with
  | true =>
      refine ⟨.finished .unknown (solver.record .limitReached), ?_, ⟨searching.record _, ?_⟩, rfl⟩
      · simp only [step, limit, ↓reduceIte]
      · have options : solver.options = problem.options :=
          congrArg Problem.options searching.same
        rw [← options]
        simp only [limitReached, Bool.or_eq_true, Option.any_eq_true_iff_get] at limit
        exact limit.imp (fun ⟨given, _⟩ => given) (fun ⟨given, _⟩ => given)
  | false =>
      cases satisfied : PlainSearch.allSatisfied problem.formula solver.model with
      | true =>
          refine ⟨.finished .sat solver, ?_, ⟨searching, satisfied⟩, rfl⟩
          simp only [step, limit, allSatisfied_eq, searching.formula, satisfied, ↓reduceIte,
            Bool.false_eq_true]
      | false =>
          obtain ⟨step, advanced, leads⟩ := searching.exists_advance satisfied
          refine ⟨step, ?_, leads⟩
          simp only [Solver.step, limit, allSatisfied_eq, searching.formula, satisfied, ↓reduceIte,
            Bool.false_eq_true, advanced]

/-- The search ends before the plain search runs out of decisions. It makes another one before a
refutation. -/
theorem Searching.exists_steps (clock : Clock) (more : Nat)
    (searching : Searching problem solver)
    (enough : (PlainSearch.search problem.formula problem.variableCount).decisions <
      more + solver.statistics.decisions) :
    ∃ status after, steps clock more solver = .ok (status, after) ∧ Ends problem after status ∧
      solver.statistics.decisions <
        after.statistics.decisions + (if status = .unsat then 0 else 1) := by
  induction more generalizing solver with
  | zero =>
      have bound := searching.balanced.decisions_le
      omega
  | succ more ih =>
      obtain ⟨step, done, leads⟩ := searching.exists_step (clock solver.statistics.decisions)
      cases step with
      | finished status after =>
          obtain ⟨ends, count⟩ := leads
          exact ⟨status, after, by simp only [steps, done], ends, by omega⟩
      | continued next =>
          obtain ⟨still, count⟩ := leads
          obtain ⟨status, after, finished, ends, more⟩ := ih still (by omega)
          exact ⟨status, after, by simp only [steps, done, finished], ends, by omega⟩

/-! ## The start of a search -/

structure Rooting (problem : Problem) (solver : Solver) : Prop extends Settled solver where
  same : solver.problem = problem
  rooted : Rooted problem.formula solver.trail.entries
  decisions : solver.decisions = []
  level : solver.level = 0
  spent : solver.statistics.spent = PlainSearch.dead
  fresh : solver.statistics.backtracks = 0

structure Doomed (problem : Problem) (solver : Solver) : Prop extends Refuted problem solver where
  unstable : ∀ values, ¬ problem.formula.Stable values
  once : solver.statistics.spent = PlainSearch.failed 0
  fresh : solver.statistics.backtracks = 0

namespace Rooting

theorem formula (rooting : Rooting problem solver) : solver.formula = problem.formula :=
  congrArg Problem.formula rooting.same

theorem fits (rooting : Rooting problem solver) : problem.formula.Fits problem.variableCount := by
  have fits := rooting.toIntact.fits
  rw [show solver.model.size = problem.variableCount from
    rooting.sized.trans (congrArg Problem.variableCount rooting.same), rooting.formula] at fits
  exact fits

/-- The literal of a unit clause is never false, since the clause watches nothing else. -/
theorem unit_not_fails (rooting : Rooting problem solver) (unit : [literal] ∈ problem.formula) :
    literal.value solver.model ≠ .fails := by
  obtain ⟨clause, member, shape⟩ := mem_formula_iff.mp (rooting.formula ▸ unit)
  obtain ⟨other, inClause, notFalse⟩ := rooting.toSettled.exists_not_fails member
  have only : other = literal := by
    simpa [shape] using Array.mem_toList_iff.mpr inClause
  exact only ▸ notFalse

private theorem rooted_pushed (rooting : Rooting problem solver)
    (unit : [literal] ∈ problem.formula) :
    Rooted problem.formula (solver.pushed literal).trail.entries := by
  change Rooted problem.formula (⟨literal, solver.level⟩ :: solver.trail.entries)
  rw [rooting.level]
  exact .unit rooting.rooted unit

theorem doomed (rooting : Rooting problem solver) (unit : [literal] ∈ problem.formula)
    {conflict : Option Conflict}
    (propagated : Propagated (solver.pushed literal) (solver.level + 1) conflict after)
    (met : conflict.isSome = true) : Doomed problem after := by
  have same : after.problem = problem := propagated.continues.problem_eq.trans rooting.same
  have formula : after.formula = problem.formula := congrArg Problem.formula same
  have pushed := rooting.rooted_pushed unit
  have growth : Growth problem.formula 0 (solver.pushed literal).trail.entries
      after.trail.entries := by
    rw [← rooting.formula, ← rooting.level]
    exact propagated.growth
  -- Whatever the unit clauses lead to is true under all stable valuations, so there are none.
  have unstable : ∀ values, ¬ problem.formula.Stable values := by
    intro values stable
    refine propagated.not_stable met (pushed.holds_of_stable stable) ?_
    change Formula.Stable solver.formula values
    rw [rooting.formula]
    exact stable
  have once : after.statistics.spent = PlainSearch.failed 0 := by
    have level : (solver.pushed literal).level = 0 := rooting.level
    have spent : (solver.pushed literal).statistics.spent = PlainSearch.dead := rooting.spent
    rw [propagated.spent (level ▸ Nat.zero_le _), if_pos met, spent, level, PlainSearch.both_dead]
    rfl
  exact {
    toResting := propagated.resting
    same := same
    excluded := (pushed.grow growth).excludes (formula ▸ propagated.excludes met)
    level := Eq.trans propagated.continues.level rooting.level
    spent := once.trans (PlainSearch.search_of_conflict rooting.fits unstable).symm
    unstable := unstable
    once := once
    fresh := by
      rw [propagated.continues.statistics]
      exact rooting.fresh }

theorem decisions_eq (rooting : Rooting problem solver) : solver.statistics.decisions = 0 :=
  congrArg PlainSearch.Result.decisions rooting.spent

theorem covers_unit (rooting : Rooting problem solver) (unit : [literal] ∈ problem.formula) :
    solver.trail.Covers literal := by
  obtain ⟨clause, member, shape⟩ := mem_formula_iff.mp (rooting.formula ▸ unit)
  exact rooting.toIntact.covers member (by simp [← Array.mem_toList_iff, shape])

theorem exists_assign (rooting : Rooting problem solver) (unit : [literal] ∈ problem.formula) :
    ∃ conflict after, solver.assign literal = .ok (conflict, after) ∧
      match conflict with
      | none => Rooting problem after ∧
          (⟨literal, 0⟩ :: solver.trail.entries) ⊆ after.trail.entries
      | some _ => Doomed problem after := by
  obtain ⟨conflict, after, done, assigned⟩ := rooting.toResting.exists_assign_of_covers
    (rooting.guarded (solver.level + 1)) (rooting.covers_unit unit)
  refine ⟨conflict, after, done, ?_⟩
  unfold Assigned at assigned
  split at assigned
  · next true_ =>
    obtain ⟨rfl, rfl⟩ := assigned
    obtain ⟨level, old⟩ := (rooting.faithful.holds_iff literal).mp true_
    obtain rfl : level = 0 := rooting.rooted.level_eq _ old
    exact ⟨rooting, List.cons_subset.mpr ⟨old, fun _ member => member⟩⟩
  · next false_ => exact absurd false_ (rooting.unit_not_fails unit)
  · cases conflict with
    | some reason => exact rooting.doomed unit assigned rfl
    | none =>
        have grown := assigned.growth
        have level : (solver.pushed literal).level = 0 := rooting.level
        have formula : (solver.pushed literal).formula = problem.formula := rooting.formula
        have entries : (solver.pushed literal).trail.entries =
            ⟨literal, 0⟩ :: solver.trail.entries := by
          rw [← rooting.level]
          rfl
        rw [level, formula, entries] at grown
        refine ⟨?_, grown.subset⟩
        exact {
          toSettled := assigned.settled (Nat.lt_succ_self _)
          same := assigned.continues.problem_eq.trans rooting.same
          rooted := .grow (.unit rooting.rooted unit) grown
          decisions := assigned.continues.decisions.trans rooting.decisions
          level := Eq.trans assigned.continues.level rooting.level
          spent := (assigned.spent (level ▸ Nat.zero_le _)).trans rooting.spent
          fresh := by
            rw [assigned.continues.statistics]
            exact rooting.fresh }

theorem exists_assignAll (rooting : Rooting problem solver) (literals : List Literal)
    (units : ∀ literal ∈ literals, [literal] ∈ problem.formula) :
    ∃ conflict after, solver.assignAll literals = .ok (conflict, after) ∧
      match conflict with
      | none => Rooting problem after ∧ solver.trail.entries ⊆ after.trail.entries ∧
          ∀ literal ∈ literals, ⟨literal, 0⟩ ∈ after.trail.entries
      | some _ => Doomed problem after := by
  induction literals generalizing solver with
  | nil => exact ⟨none, solver, rfl, rooting, fun _ member => member, by simp⟩
  | cons literal rest ih =>
      obtain ⟨conflict, next, assigned, outcome⟩ := rooting.exists_assign (units literal (.head _))
      cases conflict with
      | some reason => exact ⟨some reason, next, by simp only [assignAll, assigned], outcome⟩
      | none =>
          obtain ⟨still, added⟩ := outcome
          obtain ⟨conflict, after, done, outcome⟩ :=
            ih still fun other member => units other (.tail _ member)
          refine ⟨conflict, after, by simp only [assignAll, assigned, done], ?_⟩
          cases conflict with
          | some reason => exact outcome
          | none =>
              obtain ⟨final, kept, made⟩ := outcome
              refine ⟨final, fun _ member => kept (added (.tail _ member)), ?_⟩
              intro other member
              rcases List.mem_cons.mp member with rfl | later
              · exact kept (added (.head _))
              · exact made other later

theorem searching (rooting : Rooting problem solver)
    (units : ∀ literal, [literal] ∈ problem.formula → ⟨literal, 0⟩ ∈ solver.trail.entries) :
    Searching problem solver := by
  have stable : problem.formula.Stable solver.model := by
    rw [← rooting.formula]
    exact rooting.toSettled.stable fun literal unit =>
      rooting.faithful.holds (units literal (rooting.formula ▸ unit))
  have size : solver.model.size = problem.variableCount :=
    rooting.sized.trans (congrArg Problem.variableCount rooting.same)
  exact {
    toSettled := rooting.toSettled
    same := rooting.same
    layered := rooting.decisions ▸ .root rooting.rooted units
    depth := by rw [rooting.decisions, rooting.level, List.length_nil]
    deep := rooting.level ▸ Nat.zero_le _
    balanced := by
      unfold Problem.Balanced
      rw [rooting.spent, rooting.decisions, rooting.level, PlainSearch.both_dead]
      refine (PlainSearch.search_eq_searchFrom rooting.fits ?_ stable size ?_).symm
      · rw [← rooting.same]
        exact rooting.small
      · intro above stableAbove literal true_
        obtain ⟨level, member⟩ := (rooting.faithful.holds_iff literal).mp true_
        exact rooting.rooted.holds_of_stable stableAbove _ member }

end Rooting

theorem unit?_eq_some_iff {clause : Clause} :
    clause.unit? = some literal ↔ clause.literals.toList = [literal] := by
  have watched : clause.watched .first ∈ clause.literals.toList :=
    Array.mem_toList_iff.mpr (clause.watched_mem .first)
  constructor
  · intro unit
    simp only [Clause.unit?] at unit
    split at unit
    · next single =>
      obtain ⟨only, shape⟩ := List.length_eq_one_iff.mp (Array.length_toList.trans single)
      cases unit
      rw [shape] at watched ⊢
      rw [List.mem_singleton.mp watched]
    · cases unit
  · intro shape
    have single : clause.literals.size = 1 := by
      rw [← Array.length_toList, shape]
      rfl
    rw [shape] at watched
    simp [Clause.unit?, single, List.mem_singleton.mp watched]

theorem mem_units_iff : literal ∈ solver.units ↔ [literal] ∈ solver.formula := by
  simp only [units, List.mem_filterMap, mem_formula_iff, Array.mem_toList_iff, unit?_eq_some_iff]

def Begins (problem : Problem) : Step → Prop
  | .continued solver => Searching problem solver ∧ Rooting problem solver
  | .finished status solver => status = .unsat ∧ Doomed problem solver

theorem Begins.leadsTo {step : Step} (begins : Begins problem step) : LeadsTo problem 0 step := by
  cases step with
  | continued solver => exact ⟨begins.1, begins.2.decisions_eq⟩
  | finished status solver =>
      obtain ⟨rfl, doomed⟩ := begins
      exact ⟨doomed.toRefuted, congrArg PlainSearch.Result.decisions doomed.once⟩

theorem Rooting.exists_begin (rooting : Rooting problem solver)
    (nonempty : problem.hasEmptyClause = false) :
    ∃ step, solver.begin = .ok step ∧ Begins problem step := by
  have noEmpty : solver.hasEmptyClause = false :=
    (congrArg Problem.hasEmptyClause rooting.same).trans nonempty
  obtain ⟨conflict, after, assigned, outcome⟩ := rooting.exists_assignAll solver.units
    fun literal member => rooting.formula ▸ mem_units_iff.mp member
  cases conflict with
  | some reason =>
      refine ⟨.finished .unsat after, ?_, rfl, outcome⟩
      simp only [begin, noEmpty, assigned, Bool.false_eq_true, ↓reduceIte]
  | none =>
      obtain ⟨final, -, made⟩ := outcome
      refine ⟨.continued after, ?_, ?_, final⟩
      · simp only [begin, noEmpty, assigned, Bool.false_eq_true, ↓reduceIte]
      · exact final.searching fun literal unit =>
          made literal (mem_units_iff.mpr (rooting.formula ▸ unit))

/-! ## Solving -/

theorem Resting.rooting_restart (resting : solver.Resting) :
    Rooting solver.problem solver.restart where
  toSettled :=
    ⟨resting.reset.toResting.transfer rfl rfl rfl rfl, resting.reset.settled.guarded⟩
  same := problem_popTo solver 0
  rooted := by
    change Rooted _ solver.reset.trail.entries
    rw [resting.reset.entries]
    exact .nil
  decisions := resting.reset.decisions
  level := resting.reset.level
  spent := rfl
  fresh := rfl

private theorem count_unset_start_le (problem : Problem) :
    (PlainSearch.start problem.formula problem.variableCount).count .unset ≤
      problem.variableCount :=
  Nat.le_trans Array.count_le_size (Nat.le_of_eq (PlainSearch.size_start ..))

theorem search_decisions_lt (problem : Problem) :
    (PlainSearch.search problem.formula problem.variableCount).decisions <
      Nat.pow 2 problem.variableCount :=
  Nat.lt_of_lt_of_le (PlainSearch.decisions_lt ..)
    (Nat.pow_le_pow_right (by decide) (count_unset_start_le problem))

theorem search_maxLevel_le (problem : Problem) :
    (PlainSearch.search problem.formula problem.variableCount).maxLevel ≤
      problem.variableCount := by
  have deep := PlainSearch.maxLevel_le problem.formula 0
    (PlainSearch.start problem.formula problem.variableCount)
  rw [Nat.zero_add] at deep
  exact Nat.le_trans deep (count_unset_start_le problem)

theorem Rooting.exists_search (rooting : Rooting problem solver)
    (nonempty : problem.hasEmptyClause = false) (clock : Clock) :
    ∃ status after, search clock solver = .ok (status, after) ∧ Ends problem after status := by
  obtain ⟨step, begun, begins⟩ := rooting.exists_begin nonempty
  have leads := begins.leadsTo
  cases step with
  | finished status after => exact ⟨status, after, by simp only [search, begun], leads.1⟩
  | continued next =>
      obtain ⟨searching, count⟩ := leads
      obtain ⟨status, after, done, ends, -⟩ := searching.exists_steps clock
        (Nat.pow 2 next.statistics.variableCount) (by
          rw [searching.variableCount, count]
          exact search_decisions_lt problem)
      exact ⟨status, after, by simp only [search, begun, done], ends⟩

theorem Ends.record (ends : Ends problem solver status) (event : Event) :
    Ends problem (solver.record event) status := by
  cases status with
  | sat => exact ⟨ends.1.record event, ends.2⟩
  | unknown => exact ⟨ends.1.record event, ends.2⟩
  | unsat =>
      have refuted : Refuted problem solver := ends
      exact { refuted with
        toResting := refuted.toResting.transfer rfl rfl rfl rfl }

/-- What holds of a solver that has answered. An empty clause spares it the search. -/
def Answers (problem : Problem) (solver : Solver) (status : Status) : Prop :=
  if problem.hasEmptyClause then status = .unsat ∧ Cleared solver ∧ solver.problem = problem
  else Ends problem solver status

/-- From every solver at rest, whatever its trail, the search comes to an end. -/
theorem Resting.exists_solve (resting : solver.Resting) (clock : Clock) :
    ∃ status after, solver.solve clock = .ok (status, after) ∧
      Answers solver.problem after status := by
  have rooting := resting.rooting_restart
  cases empty : solver.problem.hasEmptyClause with
  | false =>
      obtain ⟨status, after, done, ends⟩ := rooting.exists_search empty clock
      refine ⟨status, after.conclude status, by
        simp only [solve, resting.faithful.checkUndo, done], ?_⟩
      rw [Answers, if_neg (Bool.eq_false_iff.mp empty)]
      exact ends.record _
  | true =>
      have given : solver.restart.hasEmptyClause = true :=
        (congrArg Problem.hasEmptyClause rooting.same).trans empty
      have cleared := resting.reset
      refine ⟨.unsat, solver.restart.conclude .unsat, ?_, ?_⟩
      · simp only [solve, resting.faithful.checkUndo, search, begin, given, ↓reduceIte]
      · rw [Answers, if_pos empty]
        exact ⟨rfl, ⟨cleared.toResting.transfer rfl rfl rfl rfl, cleared.entries, cleared.level,
          cleared.decisions⟩, rooting.same⟩

namespace Answers

theorem problem_eq (answers : Answers problem solver status) : solver.problem = problem := by
  unfold Answers at answers
  split at answers
  · exact answers.2.2
  · cases status with
    | sat => exact answers.1.same
    | unknown => exact answers.1.same
    | unsat => exact Refuted.same answers

theorem resting (answers : Answers problem solver status) : solver.Resting := by
  unfold Answers at answers
  split at answers
  · exact answers.2.1.toResting
  · cases status with
    | sat => exact answers.1.toResting
    | unknown => exact answers.1.toResting
    | unsat => exact Refuted.toResting answers

theorem searching (answers : Answers problem solver status) (found : status ≠ .unsat) :
    Searching problem solver := by
  unfold Answers at answers
  split at answers
  · exact absurd answers.1 found
  · cases status with
    | sat => exact answers.1
    | unknown => exact answers.1
    | unsat => exact absurd rfl found

theorem hasEmptyClause_eq_false (answers : Answers problem solver status)
    (found : status ≠ .unsat) : problem.hasEmptyClause = false := by
  unfold Answers at answers
  split at answers
  · exact absurd answers.1 found
  · next nonempty => exact Bool.eq_false_iff.mpr nonempty

theorem level_eq_zero (answers : Answers problem solver .unsat) : solver.level = 0 := by
  unfold Answers at answers
  split at answers
  · exact answers.2.1.level
  · exact Refuted.level answers

theorem satisfied (answers : Answers problem solver .sat) :
    PlainSearch.allSatisfied problem.formula solver.model = true := by
  unfold Answers at answers
  split at answers
  · exact absurd answers.1 (by simp)
  · exact answers.2

theorem ends (answers : Answers problem solver status)
    (nonempty : problem.hasEmptyClause = false) : Ends problem solver status := by
  rwa [Answers, if_neg (Bool.eq_false_iff.mp nonempty)] at answers

theorem ne_unknown (answers : Answers problem solver status)
    (decisions : problem.options.decisionLimit = none) (time : problem.options.timeLimit = none) :
    status ≠ .unknown := by
  rintro rfl
  unfold Answers at answers
  split at answers
  · exact absurd answers.1 (by simp)
  · simp [Ends, decisions, time] at answers

theorem not_satisfiable (answers : Answers problem solver .unsat)
    (nonempty : problem.hasEmptyClause = false) : ¬ problem.formula.Satisfiable :=
  (Refuted.excluded (answers.ends nonempty)).not_satisfiable

end Answers

end Dpll.Solver
