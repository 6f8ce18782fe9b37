import Dpll.Proofs.Sessions

/-!
# What the answers mean

Three statements about every state that a session can reach. A search without limits decides the
formula and ends with a model of it. Its model, completed by true, is the greatest of all assignments
that satisfy the formula. Answer, model and counters are those of the plain search, which knows
nothing of watches, trail and stack.
-/

set_option autoImplicit false

namespace Dpll

/-! ## Formulas with empty clauses -/

namespace Formula

variable {formula : Formula} {values : Valuation}

/-- Only clauses that are not empty can be satisfied. -/
theorem satisfied_iff {assignment : Assignment} :
    formula.Satisfied assignment ↔
      [] ∉ formula ∧ Formula.Satisfied assignment (formula.filter (· ≠ [])) := by
  constructor
  · intro satisfied
    refine ⟨fun empty => ?_, fun clause member => satisfied clause (List.mem_filter.mp member).1⟩
    obtain ⟨literal, impossible, -⟩ := satisfied [] empty
    cases impossible
  · rintro ⟨noEmpty, satisfied⟩ clause member
    refine satisfied clause (List.mem_filter.mpr ⟨member, ?_⟩)
    simpa using fun empty : clause = [] => noEmpty (empty ▸ member)

private theorem satisfiable_iff : formula.Satisfiable ↔
    [] ∉ formula ∧ Formula.Satisfiable (formula.filter (· ≠ [])) := by
  constructor
  · rintro ⟨assignment, satisfied⟩
    obtain ⟨noEmpty, rest⟩ := satisfied_iff.mp satisfied
    exact ⟨noEmpty, assignment, rest⟩
  · rintro ⟨noEmpty, assignment, rest⟩
    exact ⟨assignment, satisfied_iff.mpr ⟨noEmpty, rest⟩⟩

theorem satisfied_complete (satisfied : PlainSearch.allSatisfied formula values = true)
    (filler : Bool) : formula.Satisfied (values.complete filler) := by
  intro clause member
  simp only [PlainSearch.allSatisfied, List.all_eq_true, List.any_eq_true,
    decide_eq_true_eq] at satisfied
  obtain ⟨literal, inClause, true_⟩ := satisfied clause member
  exact ⟨literal, inClause, Literal.holds_complete true_ filler⟩

end Formula

/-! ## The order of assignments -/

namespace Assignment

variable {count : Nat} {left right : Assignment}

/-- An assignment that is true only where the other is lies nowhere above it. -/
theorem atMost_of_le (le : ∀ var < count, left var = true → right var = true) :
    AtMost count left right := by
  induction count with
  | zero => exact .inl fun _ below => absurd below (Nat.not_lt_zero _)
  | succ count ih =>
      rcases ih fun var below => le var (Nat.lt_succ_of_lt below) with agree | earlier
      · cases values : left count == right count with
        | true =>
            refine .inl fun var below => ?_
            rcases Nat.lt_succ_iff_lt_or_eq.mp below with lower | rfl
            · exact agree var lower
            · exact beq_iff_eq.mp values
        | false =>
            refine .inr ⟨count, Nat.lt_succ_self count, agree, ?_⟩
            have order := le count (Nat.lt_succ_self count)
            revert values order
            cases left count <;> cases right count <;> simp
      · obtain ⟨var, below, rest⟩ := earlier
        exact .inr ⟨var, Nat.lt_succ_of_lt below, rest⟩

private theorem agreeBelow_of_atMost (up : AtMost count left right) (down : AtMost count right left) :
    AgreeBelow count left right := by
  rcases up with agree | ⟨first, -, agreeFirst, leftFalse, rightTrue⟩
  · exact agree
  · rcases down with agree | ⟨second, -, agreeSecond, rightFalse, leftTrue⟩
    · exact fun var below => (agree var below).symm
    · exfalso
      rcases Nat.lt_trichotomy first second with less | rfl | more
      · rw [agreeSecond first less, leftFalse] at rightTrue
        cases rightTrue
      · rw [leftFalse] at leftTrue
        cases leftTrue
      · rw [agreeFirst second more, rightFalse] at leftTrue
        cases leftTrue

end Assignment

/-- The assignment satisfies the formula, and on the variables below `count` no other that does is
above it. -/
def Formula.Greatest (formula : Formula) (count : Nat) (assignment : Assignment) : Prop :=
  formula.Satisfied assignment ∧
    ∀ other, formula.Satisfied other → Assignment.AtMost count other assignment

namespace Solver

variable {solver after final : Solver} {problem : Problem} {status : Status}

/-! ## Deciding the formula -/

theorem Resting.exists_run (resting : solver.Resting) (clock : Clock) {commands : List Command}
    (admissible : ∀ command ∈ commands, command.Admissible) :
    ∃ after, solver.run clock commands = .ok after ∧ after.Resting ∧
      after.options = solver.options ∧
      after.formula = solver.formula ++ (addedClauses commands).filter (· ≠ []) ∧
      after.hasEmptyClause = (solver.hasEmptyClause || (addedClauses commands).contains []) := by
  obtain ⟨after, done, kept, options, formula, flag⟩ := resting.exists_runTimed
    (by simpa using admissible :
      ∀ request ∈ commands.map (clock, ·), request.2.Admissible)
  have same : (commands.map (clock, ·)).map Prod.snd = commands := by
    simp [Function.comp_def]
  rw [same] at formula flag
  exact ⟨after, (run_eq_runTimed ..).trans done, kept, options, formula, flag⟩

private theorem satisfied_clause
    (satisfied : PlainSearch.allSatisfied solver.formula solver.model = true)
    {clause : Clause} (member : clause ∈ solver.clauses) :
    ∃ literal ∈ clause.literals, literal.value solver.model = .holds := by
  simp only [PlainSearch.allSatisfied, List.all_eq_true, List.any_eq_true,
    decide_eq_true_eq] at satisfied
  obtain ⟨literal, inClause, true_⟩ := satisfied _ (mem_formula member)
  exact ⟨literal, Array.mem_toList_iff.mp inClause, true_⟩

/-- Without limits the answer tells whether all clauses ever given can be satisfied together, and with
a positive answer the model satisfies every clause stored. -/
theorem run_solve_decides (verbose : Bool) (journal : Journal) (clock lastClock : Clock)
    (commands : List Command) (admissible : ∀ command ∈ commands, command.Admissible) :
    ∃ solver status final,
      run clock { options := { verbose }, journal } commands = .ok solver ∧
      solver.solve lastClock = .ok (status, final) ∧
      final.formula = (addedClauses commands).filter (· ≠ []) ∧
      ((status = .sat ∧ (addedClauses commands).Satisfiable ∧
          ∀ clause ∈ final.clauses, ∃ literal ∈ clause.literals,
            literal.value final.model = .holds) ∨
        (status = .unsat ∧ ¬ (addedClauses commands).Satisfiable)) := by
  obtain ⟨solver, done, resting, options, formula, flag⟩ :=
    (cleared_start { verbose } journal).toResting.exists_run clock admissible
  obtain ⟨status, final, solved, answers⟩ := resting.exists_solve lastClock
  have stored : solver.problem.formula = (addedClauses commands).filter (· ≠ []) := formula
  have empty : solver.problem.hasEmptyClause = (addedClauses commands).contains [] := flag
  have kept : final.formula = solver.problem.formula := congrArg Problem.formula answers.problem_eq
  refine ⟨solver, status, final, done, solved, kept.trans stored, ?_⟩
  cases status with
  | sat =>
      have noEmpty := answers.hasEmptyClause_eq_false (by simp)
      have satisfied := answers.satisfied
      refine .inl ⟨rfl, Formula.satisfiable_iff.mpr ⟨?_, ?_⟩, ?_⟩
      · simpa [empty] using noEmpty
      · rw [← stored]
        exact ⟨_, Formula.satisfied_complete satisfied true⟩
      · exact fun clause member => satisfied_clause (kept ▸ satisfied) member
  | unsat =>
      refine .inr ⟨rfl, fun satisfiable => ?_⟩
      obtain ⟨noEmpty, rest⟩ := Formula.satisfiable_iff.mp satisfiable
      have nonempty : solver.problem.hasEmptyClause = false := by
        rw [empty]
        simpa using noEmpty
      exact answers.not_satisfiable nonempty (stored ▸ rest)
  | unknown =>
      have limitless : solver.problem.options = { verbose } := options
      exact absurd rfl (answers.ne_unknown (by rw [limitless]) (by rw [limitless]))

/-- A conflict that nobody undoes does no harm to the search that follows. -/
theorem run_solve_decides_contradiction :
    let commands : List Command :=
      [.addClause #[⟨0, by decide⟩], .assign ⟨1, by decide⟩, .decide ⟨2, by decide⟩,
        .addClause #[⟨1, by decide⟩]]
    (∀ command ∈ commands, command.Admissible) ∧
      ∃ solver final, run Clock.stopped {} commands = .ok solver ∧
        solver.solve Clock.stopped = .ok (.unsat, final) := by
  intro commands
  have admissible : ∀ command ∈ commands, command.Admissible := by
    simp [commands, Command.Admissible, Literal.var, variableLimit_eq]
  refine ⟨admissible, ?_⟩
  obtain ⟨solver, status, final, done, solved, -, answer⟩ :=
    run_solve_decides false {} Clock.stopped Clock.stopped commands admissible
  rcases answer with ⟨-, ⟨assignment, satisfied⟩, -⟩ | ⟨rfl, -⟩
  · have positive := satisfied [⟨0, by decide⟩] (by simp [commands, addedClauses, Command.clause?])
    have negative := satisfied [⟨1, by decide⟩] (by simp [commands, addedClauses, Command.clause?])
    simp [Literal.Holds, Literal.var, Literal.positive] at positive negative
    simp [positive] at negative
  · exact ⟨solver, final, done, solved⟩

/-! ## The greatest model -/

/-- No assignment that satisfies the formula lies above a state of the search, completed by true. -/
theorem Searching.atMost (searching : Searching problem solver) {assignment : Assignment}
    (satisfied : problem.formula.Satisfied assignment) :
    Assignment.AtMost problem.variableCount assignment (solver.model.complete true) := by
  have completed : ∀ entry ∈ solver.trail.entries,
      entry.literal.Holds (solver.model.complete true) := fun entry member =>
    Literal.holds_complete (searching.faithful.holds member) true
  have decided : ∀ entry ∈ solver.trail.entries, entry.literal.Holds assignment →
      assignment entry.literal.var = solver.model.complete true entry.literal.var :=
    fun entry member holds => Eq.trans holds (completed entry member).symm
  rcases searching.layered.holds_or_fallsBelow satisfied with agree | below
  · refine Assignment.atMost_of_le fun var inside true_ => ?_
    cases known : solver.model.value var with
    | holds => simp [Valuation.complete, known]
    | unset => simp [Valuation.complete, known]
    | fails =>
        obtain ⟨literal, -, rfl, negative⟩ := Literal.exists_ofVar?
          (Nat.lt_trans inside (searching.variableCount ▸ searching.small)) false
        have holds : literal.value solver.model = .holds := by
          simp [Literal.value, known, negative, Truth.complement]
        obtain ⟨level, member⟩ := (searching.faithful.holds_iff literal).mp holds
        exact (decided _ member (agree _ member)).symm.trans true_
  · obtain ⟨entry, member, positive, fails, lower⟩ := below
    have inside : entry.literal.var < solver.model.size := searching.faithful.covers member
    refine .inr ⟨entry.literal.var, ?_, fun var less => ?_, ?_, ?_⟩
    · rw [← searching.variableCount, ← searching.sized]
      exact inside
    · obtain ⟨other, older, rfl, holds⟩ := lower var less
      exact decided other older holds
    · simpa [Literal.Holds, positive] using fails
    · exact (completed entry member).trans positive

/-- The answer comes with an upper bound: no assignment that satisfies the formula is above the model
completed by true. With a positive answer the bound itself satisfies the formula, so that it is the
greatest assignment to do so and the only one. -/
theorem solve_model_greatest (reached : Reachable solver) (clock : Clock) :
    ∃ status final, solver.solve clock = .ok (status, final) ∧
      (status ≠ .unsat → ∀ assignment, Formula.Satisfied assignment solver.formula →
        Assignment.AtMost solver.statistics.variableCount assignment
          (final.model.complete true)) ∧
      (status = .sat →
        Formula.Greatest solver.formula solver.statistics.variableCount
          (final.model.complete true) ∧
        ∀ other, Formula.Greatest solver.formula solver.statistics.variableCount other →
          Assignment.AgreeBelow solver.statistics.variableCount other
            (final.model.complete true)) := by
  obtain ⟨status, final, done, answers⟩ := reached.resting.exists_solve clock
  have bound : status ≠ .unsat → ∀ assignment, Formula.Satisfied assignment solver.formula →
      Assignment.AtMost solver.statistics.variableCount assignment (final.model.complete true) :=
    fun found _ satisfied => (answers.searching found).atMost satisfied
  refine ⟨status, final, done, bound, ?_⟩
  rintro rfl
  have greatest : Formula.Greatest solver.formula solver.statistics.variableCount
      (final.model.complete true) :=
    ⟨Formula.satisfied_complete answers.satisfied true, bound (by simp)⟩
  exact ⟨greatest, fun other otherGreatest =>
    Assignment.agreeBelow_of_atMost (greatest.2 other otherGreatest.1)
      (otherGreatest.2 _ greatest.1)⟩

/-- Of two variables that must differ, the greatest model makes the first one true. -/
theorem solve_model_greatest_exclusive :
    ∃ solver final, Reachable solver ∧
      solver.formula = [[⟨0, by decide⟩, ⟨2, by decide⟩], [⟨1, by decide⟩, ⟨3, by decide⟩]] ∧
      solver.solve Clock.stopped = .ok (.sat, final) ∧ final.model = #[.holds, .fails] ∧
      Formula.Greatest solver.formula solver.statistics.variableCount
        (final.model.complete true) := by
  let commands : List Command :=
    [.addClause #[⟨0, by decide⟩, ⟨2, by decide⟩], .addClause #[⟨1, by decide⟩, ⟨3, by decide⟩]]
  have computed : ((run Clock.stopped {} commands).toOption.bind fun solver =>
      (solver.solve Clock.stopped).toOption.map fun result =>
        (solver.formula, result.1, result.2.model)) =
      some ([[⟨0, by decide⟩, ⟨2, by decide⟩], [⟨1, by decide⟩, ⟨3, by decide⟩]], .sat,
        #[.holds, .fails]) := by
    decide +kernel
  cases done : run Clock.stopped {} commands with
  | error fault => simp [done, Except.toOption] at computed
  | ok solver =>
      have reached := (Reachable.start {} {}).run done
      obtain ⟨status, final, solved, -, greatest⟩ := solve_model_greatest reached Clock.stopped
      simp only [done, solved, Except.toOption, Option.bind_some, Option.map_some,
        Option.some.injEq, Prod.mk.injEq] at computed
      obtain ⟨formula, rfl, model⟩ := computed
      exact ⟨solver, final, reached, formula, solved, model, (greatest rfl).1⟩

/-! ## Agreement with plain search -/

private theorem Ends.search_eq (ends : Ends problem solver status) (decided : status ≠ .unknown) :
    PlainSearch.search problem.formula problem.variableCount =
      { model := if status = .sat then some solver.model else none
        decisions := solver.statistics.decisions
        conflicts := solver.statistics.conflicts
        maxLevel := solver.statistics.maxLevel } := by
  cases status with
  | unknown => exact absurd rfl decided
  | unsat => exact (Refuted.spent ends).symm
  | sat =>
      obtain ⟨searching, satisfied⟩ := ends
      rw [← searching.balanced, PlainSearch.searchFrom_of_satisfied searching.stable satisfied,
        PlainSearch.resume_of_isSome rfl]
      simp [PlainSearch.both, PlainSearch.ended, Statistics.spent,
        Nat.max_eq_left searching.deep]

/-- Without limits and empty clauses, solving gives the verdict, the model and the counters of the
plain search on the stored clauses. -/
theorem solve_refines_plainSearch (reached : Reachable solver)
    (nonempty : solver.hasEmptyClause = false) (decisionLimit : solver.options.decisionLimit = none)
    (timeLimit : solver.options.timeLimit = none) (clock : Clock) :
    ∃ status final, solver.solve clock = .ok (status, final) ∧
      (status = .sat ∨ status = .unsat) ∧
      PlainSearch.search solver.formula solver.statistics.variableCount =
        { model := if status = .sat then some final.model else none
          decisions := final.statistics.decisions
          conflicts := final.statistics.conflicts
          maxLevel := final.statistics.maxLevel } := by
  obtain ⟨status, final, done, answers⟩ := reached.resting.exists_solve clock
  have known := answers.ne_unknown decisionLimit timeLimit
  refine ⟨status, final, done, ?_, (answers.ends nonempty).search_eq known⟩
  cases status with
  | sat => exact .inl rfl
  | unsat => exact .inr rfl
  | unknown => exact absurd rfl known

/-- Two variables with all four clauses: one decision and two conflicts, by watches as by scans. -/
theorem solve_refines_plainSearch_contradiction :
    ∃ solver final, Reachable solver ∧ solver.hasEmptyClause = false ∧
      solver.options.decisionLimit = none ∧ solver.options.timeLimit = none ∧
      solver.solve Clock.stopped = .ok (.unsat, final) ∧
      PlainSearch.search solver.formula solver.statistics.variableCount = ⟨none, 1, 2, 1⟩ ∧
      final.statistics.decisions = 1 ∧ final.statistics.conflicts = 2 ∧
      final.statistics.maxLevel = 1 := by
  let commands : List Command :=
    [.addClause #[⟨0, by decide⟩, ⟨2, by decide⟩], .addClause #[⟨0, by decide⟩, ⟨3, by decide⟩],
      .addClause #[⟨1, by decide⟩, ⟨2, by decide⟩], .addClause #[⟨1, by decide⟩, ⟨3, by decide⟩]]
  have computed : ((run Clock.stopped {} commands).toOption.map fun solver =>
      (solver.hasEmptyClause, solver.options,
        PlainSearch.search solver.formula solver.statistics.variableCount)) =
      some (false, {}, ⟨none, 1, 2, 1⟩) := by
    decide +kernel
  cases done : run Clock.stopped {} commands with
  | error fault => simp [done, Except.toOption] at computed
  | ok solver =>
      have reached := (Reachable.start {} {}).run done
      simp only [done, Except.toOption, Option.map_some, Option.some.injEq,
        Prod.mk.injEq] at computed
      obtain ⟨nonempty, options, plain⟩ := computed
      have decisionLimit : solver.options.decisionLimit = none := by rw [options]
      have timeLimit : solver.options.timeLimit = none := by rw [options]
      obtain ⟨status, final, solved, answer, same⟩ :=
        solve_refines_plainSearch reached nonempty decisionLimit timeLimit Clock.stopped
      rw [plain] at same
      obtain ⟨model, decisions, conflicts, maxLevel⟩ := PlainSearch.Result.mk.inj same
      rcases answer with rfl | rfl
      · cases model
      · exact ⟨solver, final, reached, nonempty, decisionLimit, timeLimit, solved, plain,
          decisions.symm, conflicts.symm, maxLevel.symm⟩

end Solver

end Dpll
