import Dpll.Proofs.Sessions

/-!
# The limit on decisions

Only the test at the head of a search step reads the limit, so every other part of the engine commutes
with changing it (`Solver.limitedTo`). Every step that goes on makes exactly one decision. Main
statement: a search under a limit is the search without one, cut off before the decision after the
last that the limit allows.
-/

set_option autoImplicit false

namespace Dpll.Solver

def limitedTo (solver : Solver) (limit : Option Nat) : Solver :=
  { solver with options := { solver.options with decisionLimit := limit } }

def relimit {α : Type} (limit : Option Nat) (result : α × Solver) : α × Solver :=
  (result.1, result.2.limitedTo limit)

def Sweep.limitedTo (swept : Sweep) (limit : Option Nat) : Sweep :=
  { swept with solver := swept.solver.limitedTo limit }

def Step.limitedTo (limit : Option Nat) : Step → Step
  | .finished status solver => .finished status (solver.limitedTo limit)
  | .continued solver => .continued (solver.limitedTo limit)

/-! ## What does not read the limit -/

section Commute

variable (solver : Solver) (limit : Option Nat)

@[simp] theorem trail_limitedTo : (solver.limitedTo limit).trail = solver.trail := rfl

@[simp] theorem clauses_limitedTo : (solver.limitedTo limit).clauses = solver.clauses := rfl

@[simp] theorem watches_limitedTo : (solver.limitedTo limit).watches = solver.watches := rfl

@[simp] theorem decisions_limitedTo : (solver.limitedTo limit).decisions = solver.decisions := rfl

@[simp] theorem statistics_limitedTo :
    (solver.limitedTo limit).statistics = solver.statistics := rfl

@[simp] theorem model_limitedTo : (solver.limitedTo limit).model = solver.model := rfl

@[simp] theorem hasEmptyClause_limitedTo :
    (solver.limitedTo limit).hasEmptyClause = solver.hasEmptyClause := rfl

@[simp] theorem limitedTo_limitedTo (other : Option Nat) :
    (solver.limitedTo other).limitedTo limit = solver.limitedTo limit := rfl

private theorem record_limitedTo (event : Event) :
    (solver.limitedTo limit).record event = (solver.record event).limitedTo limit := rfl

private theorem popTo_limitedTo (level : Nat) :
    (solver.limitedTo limit).popTo level = (solver.popTo level).limitedTo limit := by
  by_cases none_ : (Trail.above solver.trail.entries level).length = 0
  · simp only [popTo, trail_limitedTo, none_, ↓reduceIte]
    rfl
  · simp only [popTo, trail_limitedTo, none_, ↓reduceIte]
    rfl

private theorem ensureVariables_limitedTo (count : Nat) :
    (solver.limitedTo limit).ensureVariables count =
      (solver.ensureVariables count).map (·.limitedTo limit) := by
  by_cases held : count ≤ solver.statistics.variableCount
  · simp only [ensureVariables, statistics_limitedTo, held, ↓reduceIte]
    rfl
  · simp only [ensureVariables, statistics_limitedTo, held, ↓reduceIte]
    cases checkVariables count <;> rfl

private theorem push_limitedTo (literal : Literal) :
    (solver.limitedTo limit).push literal = (solver.push literal).map (relimit limit) := by
  simp only [push, trail_limitedTo]
  cases solver.trail.judge literal with
  | error fault => rfl
  | ok judgement => cases judgement <;> rfl

private theorem sweep_limitedTo (falsified : Literal) (refs : List ClauseRef)
    (kept : Array ClauseRef) :
    sweep falsified refs kept (solver.limitedTo limit) =
      (sweep falsified refs kept solver).map (·.limitedTo limit) := by
  induction refs generalizing kept solver with
  | nil => rfl
  | cons ref rest ih =>
      simp only [sweep, clauses_limitedTo, model_limitedTo, watches_limitedTo]
      cases solver.clauses.get? ref with
      | none => rfl
      | some clause =>
          dsimp only
          cases clause.visit falsified solver.model with
          | stray => exact ih (solver.record _) kept
          | satisfied => exact ih solver (kept.push ref)
          | refuted => rfl
          | movable slot position =>
              by_cases covered : solver.watches.Covers (clause.literalAt position)
              · simp only [covered, ↓reduceIte]
                exact ih (solver.rewatch ref clause slot position) kept
              · simp only [covered, ↓reduceIte]
                rfl
          | forcing literal =>
              dsimp only
              rw [record_limitedTo, push_limitedTo]
              cases (solver.record (.forced ref literal)).push literal with
              | error fault => rfl
              | ok result =>
                  obtain ⟨conflict, next⟩ := result
                  cases conflict with
                  | none => exact ih next (kept.push ref)
                  | some reason => rfl

private theorem propagateLiteral_limitedTo (literal : Literal) :
    (solver.limitedTo limit).propagateLiteral literal =
      (solver.propagateLiteral literal).map (relimit limit) := by
  have swept : (solver.limitedTo limit).sweepAll literal.negate =
      (solver.sweepAll literal.negate).map (·.limitedTo limit) :=
    sweep_limitedTo (solver.setWatchList literal.negate #[]) limit ..
  by_cases covered : solver.watches.Covers literal.negate
  · simp only [propagateLiteral, watches_limitedTo, covered, swept, ↓reduceIte]
    cases solver.sweepAll literal.negate with
    | error fault => rfl
    | ok result =>
        cases emptied : (result.solver.watches.watchedBy literal.negate).isEmpty with
        | true =>
            simp only [Except.map, Sweep.limitedTo, watches_limitedTo, emptied, ↓reduceIte]
            rfl
        | false =>
            simp only [Except.map, Sweep.limitedTo, watches_limitedTo, emptied, Bool.false_eq_true,
              ↓reduceIte]
  · simp only [propagateLiteral, watches_limitedTo, covered, ↓reduceIte]
    rfl

private theorem propagate_of_fault {solver : Solver} {literal : Literal} {fault : Fault}
    (waiting : solver.trail.next? = some literal)
    (broken : solver.dequeue.propagateLiteral literal = .error fault) :
    solver.propagate = .error fault := by
  rw [propagate]
  split
  · rename_i idle
    rw [idle] at waiting
    cases waiting
  · rename_i first here
    cases Option.some.inj (here.symm.trans waiting)
    split <;> rename_i swept <;> cases swept.symm.trans broken
    rfl

private theorem propagate_limitedTo :
    (solver.limitedTo limit).propagate = solver.propagate.map (relimit limit) := by
  induction load : solver.workload using Nat.strongRecOn generalizing solver with
  | ind bound ih =>
      cases waiting : solver.trail.next? with
      | none =>
          have idle : (solver.limitedTo limit).trail.next? = none := waiting
          rw [propagate_of_idle waiting, propagate_of_idle idle]
          rfl
      | some literal =>
          have queued : (solver.limitedTo limit).trail.next? = some literal := waiting
          have swept : (solver.limitedTo limit).dequeue.propagateLiteral literal = _ :=
            propagateLiteral_limitedTo solver.dequeue limit literal
          cases done : solver.dequeue.propagateLiteral literal with
          | error fault =>
              rw [done] at swept
              rw [propagate_of_fault waiting done, propagate_of_fault queued swept]
              rfl
          | ok result =>
              obtain ⟨conflict, next⟩ := result
              rw [done] at swept
              rw [propagate_of_swept waiting done, propagate_of_swept queued swept]
              cases conflict with
              | some reason => rfl
              | none =>
                  refine ih next.workload ?_ next rfl
                  rw [workload_propagateLiteral done, ← load]
                  exact workload_dequeue waiting

private theorem assign_limitedTo (literal : Literal) :
    (solver.limitedTo limit).assign literal = (solver.assign literal).map (relimit limit) := by
  simp only [assign, ensureVariables_limitedTo]
  cases solver.ensureVariables (literal.var + 1) with
  | error fault => rfl
  | ok wide =>
      simp only [Except.map, bind, Except.bind, push_limitedTo]
      cases wide.push literal with
      | error fault => rfl
      | ok result =>
          obtain ⟨conflict, next⟩ := result
          cases conflict with
          | some reason => rfl
          | none => exact propagate_limitedTo next limit

private theorem assignAll_limitedTo (literals : List Literal) :
    (solver.limitedTo limit).assignAll literals =
      (solver.assignAll literals).map (relimit limit) := by
  induction literals generalizing solver with
  | nil => rfl
  | cons literal rest ih =>
      simp only [assignAll, assign_limitedTo]
      cases solver.assign literal with
      | error fault => rfl
      | ok result =>
          obtain ⟨conflict, next⟩ := result
          cases conflict with
          | some reason => rfl
          | none => exact ih next

private theorem decide_limitedTo (literal : Literal) :
    (solver.limitedTo limit).decide literal = (solver.decide literal).map (relimit limit) :=
  assign_limitedTo (solver.deepened literal) limit literal

private theorem reportProgress_limitedTo :
    (solver.limitedTo limit).reportProgress = solver.reportProgress.limitedTo limit := by
  by_cases due : (solver.options.verbose && Decidable.decide (0 < solver.statistics.decisions) &&
      solver.statistics.decisions % progressInterval == 0) = true
  · unfold reportProgress
    rw [if_pos due]
    exact if_pos due
  · unfold reportProgress
    rw [if_neg due]
    exact if_neg due

private theorem branch_limitedTo (var : Var) :
    (solver.limitedTo limit).branch var = (solver.branch var).map (relimit limit) := by
  simp only [branch, bind, Except.bind]
  cases literalOf var true with
  | error fault => rfl
  | ok literal =>
      let chosen : Solver := { solver with
        decisions := { var, level := solver.level + 1, flipped := false } :: solver.decisions }
      change (chosen.limitedTo limit).reportProgress.decide literal =
        (chosen.reportProgress.decide literal).map (relimit limit)
      rw [reportProgress_limitedTo, decide_limitedTo]

private theorem abandon_limitedTo (decision : Decision) (outer : List Decision) :
    (solver.limitedTo limit).abandon decision outer =
      (solver.abandon decision outer).map (limitedTo · limit) := by
  simp only [abandon, popTo_limitedTo, trail_limitedTo, bind, Except.bind]
  cases solver.trail.checkUndo decision.level with
  | error fault => rfl
  | ok _ =>
      cases Trail.levelBelow decision.level with
      | error fault => rfl
      | ok level =>
          dsimp only
          cases (solver.popTo decision.level).trail.lowerLevel level <;> rfl

private theorem turn_limitedTo (decision : Decision) (outer : List Decision) :
    (solver.limitedTo limit).turn decision outer =
      (solver.turn decision outer).map (relimit limit) := by
  simp only [turn, popTo_limitedTo, trail_limitedTo, bind, Except.bind]
  cases literalOf decision.var false with
  | error fault => rfl
  | ok literal =>
      cases solver.trail.checkUndo decision.level with
      | error fault => rfl
      | ok _ => exact assign_limitedTo (solver.turned decision outer) limit literal

private theorem retreat_limitedTo (decisions : List Decision) :
    retreat decisions (solver.limitedTo limit) =
      (retreat decisions solver).map (relimit limit) := by
  induction decisions generalizing solver with
  | nil => rfl
  | cons decision outer ih =>
      cases flipped : decision.flipped with
      | true =>
          simp only [retreat, flipped, ↓reduceIte, abandon_limitedTo]
          cases solver.abandon decision outer with
          | error fault => rfl
          | ok closed => exact ih closed
      | false =>
          simp only [retreat, flipped, Bool.false_eq_true, ↓reduceIte, turn_limitedTo]
          cases solver.turn decision outer with
          | error fault => rfl
          | ok result =>
              obtain ⟨conflict, next⟩ := result
              cases conflict with
              | none => rfl
              | some reason =>
                  simp only [Except.map, relimit, abandon_limitedTo]
                  cases next.abandon decision outer with
                  | error fault => rfl
                  | ok closed => exact ih closed

private theorem retry_limitedTo :
    (solver.limitedTo limit).retry = solver.retry.map (Step.limitedTo limit) := by
  have flipped : (solver.limitedTo limit).flipLast = solver.flipLast.map (relimit limit) :=
    retreat_limitedTo solver.counted limit solver.decisions
  simp only [retry, flipped]
  cases solver.flipLast with
  | error fault => rfl
  | ok result =>
      obtain ⟨found, next⟩ := result
      cases found <;> rfl

private theorem advance_limitedTo :
    (solver.limitedTo limit).advance = solver.advance.map (Step.limitedTo limit) := by
  simp only [advance, model_limitedTo, branch_limitedTo, retry_limitedTo]
  cases solver.model.firstUnset? with
  | none => rfl
  | some var =>
      dsimp only
      cases solver.branch var with
      | error fault => rfl
      | ok result =>
          obtain ⟨conflict, next⟩ := result
          cases conflict with
          | none => rfl
          | some reason => exact retry_limitedTo next limit

private theorem restart_limitedTo :
    (solver.limitedTo limit).restart = solver.restart.limitedTo limit := by
  simp only [restart, reset, backtrackTo, popTo_limitedTo]
  rfl

private theorem begin_limitedTo :
    (solver.limitedTo limit).begin = solver.begin.map (Step.limitedTo limit) := by
  have assigned : (solver.limitedTo limit).assignAll (solver.limitedTo limit).units = _ :=
    assignAll_limitedTo solver limit solver.units
  cases empty : solver.hasEmptyClause with
  | true =>
      simp only [begin, hasEmptyClause_limitedTo, empty, ↓reduceIte]
      rfl
  | false =>
      simp only [begin, hasEmptyClause_limitedTo, empty, Bool.false_eq_true, ↓reduceIte, assigned]
      cases solver.assignAll solver.units with
      | error fault => rfl
      | ok result =>
          obtain ⟨conflict, next⟩ := result
          cases conflict <;> rfl

end Commute

/-! ## A search that is cut off -/

variable {problem : Problem} {solver : Solver}

/-- Under a limit a step is what it is without one, unless the limit is reached. -/
theorem step_limitedTo (limit elapsed other : Nat) (unlimited : solver.options.decisionLimit = none)
    (untimed : solver.options.timeLimit = none) :
    (solver.limitedTo (some limit)).step elapsed =
      if limit ≤ solver.statistics.decisions then
        .ok (.finished .unknown ((solver.record .limitReached).limitedTo (some limit)))
      else (solver.step other).map (Step.limitedTo (some limit)) := by
  have timed : (solver.limitedTo (some limit)).options.timeLimit = none := untimed
  have given : (solver.limitedTo (some limit)).options.decisionLimit = some limit := rfl
  by_cases reached : limit ≤ solver.statistics.decisions
  · simp only [step, limitReached, given, statistics_limitedTo, Option.any_some, reached,
      decide_true, Bool.true_or, ↓reduceIte, record_limitedTo]
  · simp only [step, limitReached, given, timed, unlimited, untimed, statistics_limitedTo,
      clauses_limitedTo, model_limitedTo, advance_limitedTo, Option.any_some, Option.any_none,
      reached, decide_false, Bool.or_false, Bool.false_eq_true, ↓reduceIte]
    cases solver.clauses.allSatisfied solver.model <;> rfl

/-- A search under a limit, given the end of the one without. A model is found before the decision
that would follow, and a refutation after the last one, so the former needs room for one more. -/
def CutOff (limit : Nat) (status : Status) (final : Solver)
    (result : Except Fault (Status × Solver)) : Prop :=
  if final.statistics.decisions + (if status = .unsat then 0 else 1) ≤ limit then
    result = .ok (status, final.limitedTo (some limit))
  else ∃ cut, result = .ok (.unknown, cut) ∧ cut.statistics.decisions = limit

/-- A step under the limit follows a step without one, as long as there is room for its decision. -/
theorem Searching.cutOff_steps (clock other : Clock) (limit more : Nat)
    (searching : Searching problem solver)
    (unlimited : problem.options.decisionLimit = none) (untimed : problem.options.timeLimit = none)
    (enough : (PlainSearch.search problem.formula problem.variableCount).decisions <
      more + solver.statistics.decisions)
    (room : solver.statistics.decisions ≤ limit) {status : Status} {final : Solver}
    (ended : steps clock more solver = .ok (status, final)) :
    CutOff limit status final (steps other more (solver.limitedTo (some limit))) := by
  induction more generalizing solver with
  | zero => cases ended
  | succ more ih =>
      have options : solver.options = problem.options := congrArg Problem.options searching.same
      have cut := step_limitedTo limit (other solver.statistics.decisions)
        (clock solver.statistics.decisions) (options ▸ unlimited) (options ▸ untimed)
      by_cases reached : limit ≤ solver.statistics.decisions
      · obtain ⟨_, _, same, -, further⟩ := searching.exists_steps clock (more + 1) enough
        rw [ended] at same
        cases same
        rw [if_pos reached] at cut
        rw [CutOff, if_neg (by omega)]
        exact ⟨(solver.record .limitReached).limitedTo (some limit),
          by simp only [steps, statistics_limitedTo, cut], Nat.le_antisymm room reached⟩
      · obtain ⟨step, done, leads⟩ := searching.exists_step (clock solver.statistics.decisions)
        rw [if_neg reached, done] at cut
        simp only [steps, done] at ended
        simp only [steps, statistics_limitedTo, cut, Except.map, Step.limitedTo]
        cases step with
        | finished found after =>
            cases ended
            rw [CutOff, if_pos (by have := leads.2; omega)]
        | continued next =>
            obtain ⟨still, count⟩ := leads
            exact ih still (by omega) (by omega) ended

theorem CutOff.conclude {limit : Nat} {status : Status} {final : Solver}
    {result : Except Fault (Status × Solver)} (cutOff : CutOff limit status final result) :
    CutOff limit status (final.conclude status)
      (result.map fun ended => (ended.1, ended.2.conclude ended.1)) := by
  have count : (final.conclude status).statistics = final.statistics := rfl
  unfold CutOff at cutOff ⊢
  by_cases room : final.statistics.decisions + (if status = .unsat then 0 else 1) ≤ limit
  · rw [if_pos room] at cutOff
    rw [count, if_pos room, cutOff]
    rfl
  · rw [if_neg room] at cutOff
    obtain ⟨cut, rfl, made⟩ := cutOff
    rw [count, if_neg room]
    exact ⟨cut.conclude .unknown, rfl, made⟩

private theorem solve_eq_map (clock : Clock) (sound : solver.trail.checkUndo 0 = .ok ()) :
    solver.solve clock =
      (search clock solver.restart).map fun ended => (ended.1, ended.2.conclude ended.1) := by
  simp only [solve, sound]
  cases search clock solver.restart <;> rfl

private theorem Rooting.cutOff_search (clock other : Clock) (limit : Nat)
    (rooting : Rooting problem solver)
    (unlimited : problem.options.decisionLimit = none) (untimed : problem.options.timeLimit = none)
    {status : Status} {final : Solver} (ended : search clock solver = .ok (status, final)) :
    CutOff limit status final (search other (solver.limitedTo (some limit))) := by
  have begun := begin_limitedTo solver (some limit)
  cases empty : problem.hasEmptyClause with
  | true =>
      have given : solver.hasEmptyClause = true :=
        (congrArg Problem.hasEmptyClause rooting.same).trans empty
      have first : solver.begin = .ok (.finished .unsat solver) := by
        simp only [begin, given, ↓reduceIte]
      rw [first] at begun
      simp only [search, first] at ended
      cases ended
      have count := rooting.decisions_eq
      rw [CutOff, if_pos (by simp [count])]
      simp only [search, begun, Except.map, Step.limitedTo]
  | false =>
      obtain ⟨step, first, begins⟩ := rooting.exists_begin empty
      have leads := begins.leadsTo
      rw [first] at begun
      simp only [search, first] at ended
      simp only [search, begun, Except.map]
      cases step with
      | finished found after =>
          cases ended
          have count := leads.2
          rw [CutOff, if_pos (by omega)]
          rfl
      | continued next =>
          obtain ⟨searching, count⟩ := leads
          refine searching.cutOff_steps clock other limit (Nat.pow 2 next.statistics.variableCount)
            unlimited untimed ?_ (by omega) ended
          rw [searching.variableCount, count]
          exact search_decisions_lt problem

/-- What a solver at rest answers under a limit is decided by what it answers without one. -/
theorem Resting.exists_solve_cutOff (resting : solver.Resting)
    (untimed : solver.options.timeLimit = none) (clock : Clock) :
    ∃ status final, (solver.limitedTo none).solve clock = .ok (status, final) ∧
      status ≠ .unknown ∧
      ∀ other limit, CutOff limit status final ((solver.limitedTo (some limit)).solve other) := by
  have kept : (solver.limitedTo none).Resting := resting.transfer rfl rfl rfl rfl
  have sound (limit : Option Nat) : (solver.limitedTo limit).trail.checkUndo 0 = .ok () :=
    resting.faithful.checkUndo 0
  obtain ⟨status, final, done, answers⟩ := kept.exists_solve clock
  refine ⟨status, final, done, answers.ne_unknown rfl untimed, fun other limit => ?_⟩
  rw [solve_eq_map clock (sound _)] at done
  cases found : search clock (solver.limitedTo none).restart with
  | error fault => simp [found, Except.map] at done
  | ok ended =>
      rw [found] at done
      cases done
      have cutOff := kept.rooting_restart.cutOff_search clock other limit rfl untimed found
      rw [restart_limitedTo, limitedTo_limitedTo, ← restart_limitedTo] at cutOff
      rw [solve_eq_map other (sound _)]
      exact cutOff.conclude

def InTime (limit : Nat) (status : Status) (final : Solver) : Prop :=
  status = .sat ∧ final.statistics.decisions < limit ∨
    status = .unsat ∧ final.statistics.decisions ≤ limit

theorem CutOff.answer {limit : Nat} {status : Status} {final : Solver}
    {result : Except Fault (Status × Solver)} (cutOff : CutOff limit status final result)
    (known : status ≠ .unknown) :
    (InTime limit status final → result = .ok (status, final.limitedTo (some limit))) ∧
      (¬ InTime limit status final →
        ∃ cut, result = .ok (.unknown, cut) ∧ cut.statistics.decisions = limit) := by
  have room : final.statistics.decisions + (if status = .unsat then 0 else 1) ≤ limit ↔
      InTime limit status final := by
    cases status with
    | sat =>
        simp only [InTime, reduceCtorEq, ↓reduceIte, true_and, false_and, or_false]
        exact Nat.succ_le_iff
    | unsat => simp [InTime]
    | unknown => exact absurd rfl known
  unfold CutOff at cutOff
  refine ⟨fun early => ?_, fun late => ?_⟩
  · rwa [if_pos (room.mpr early)] at cutOff
  · rwa [if_neg (mt room.mp late)] at cutOff

/-- Without a limit the search decides the formula. Under a limit it comes to the very same end if that
lies in time, and else it stops with exactly as many decisions as it may make. So it never makes more,
and an answer stays what it is when the limit is raised. -/
theorem solve_limitedTo (reached : Reachable solver) (untimed : solver.options.timeLimit = none)
    (clock : Clock) :
    ∃ status final, (solver.limitedTo none).solve clock = .ok (status, final) ∧
      (status = .sat ∨ status = .unsat) ∧
      ∀ other limit,
        (InTime limit status final →
          (solver.limitedTo (some limit)).solve other =
            .ok (status, final.limitedTo (some limit))) ∧
        (¬ InTime limit status final → ∃ cut,
          (solver.limitedTo (some limit)).solve other = .ok (.unknown, cut) ∧
            cut.statistics.decisions = limit) ∧
        ∀ answer last, (solver.limitedTo (some limit)).solve other = .ok (answer, last) →
          last.statistics.decisions ≤ limit ∧
          (answer ≠ .unknown → ∀ third higher, limit ≤ higher →
            (solver.limitedTo (some higher)).solve third =
              .ok (answer, last.limitedTo (some higher))) := by
  obtain ⟨status, final, done, known, cutOff⟩ :=
    reached.resting.exists_solve_cutOff untimed clock
  have outcome := fun other limit => (cutOff other limit).answer known
  refine ⟨status, final, done, ?_, fun other limit => ?_⟩
  · cases status with
    | sat => exact .inl rfl
    | unsat => exact .inr rfl
    | unknown => exact absurd rfl known
  · obtain ⟨early, late⟩ := outcome other limit
    refine ⟨early, late, fun answer last solved => ?_⟩
    by_cases inTime : InTime limit status final
    · obtain ⟨rfl, rfl⟩ := Prod.mk.inj (Except.ok.inj (solved.symm.trans (early inTime)))
      refine ⟨inTime.elim (fun found => Nat.le_of_lt found.2) (fun refuted => refuted.2), ?_⟩
      intro _ third higher raised
      refine (outcome third higher).1 (inTime.imp ?_ ?_)
      · exact And.imp_right fun few => Nat.lt_of_lt_of_le few raised
      · exact And.imp_right fun few => Nat.le_trans few raised
    · obtain ⟨cut, stopped, made⟩ := late inTime
      obtain ⟨rfl, rfl⟩ := Prod.mk.inj (Except.ok.inj (solved.symm.trans stopped))
      exact ⟨Nat.le_of_eq made, fun answered => absurd rfl answered⟩

/-- A model that takes one decision is found with room for two. With room for one the search stops. -/
theorem solve_limitedTo_one_decision :
    ∃ solver final cut, Reachable solver ∧ solver.options.timeLimit = none ∧
      (solver.limitedTo none).solve Clock.stopped = .ok (.sat, final) ∧
      final.statistics.decisions = 1 ∧
      (solver.limitedTo (some 2)).solve Clock.stopped = .ok (.sat, final.limitedTo (some 2)) ∧
      (solver.limitedTo (some 1)).solve Clock.stopped = .ok (.unknown, cut) ∧
      cut.statistics.decisions = 1 := by
  let commands : List Command :=
    [.addClause #[⟨0, by decide⟩, ⟨2, by decide⟩], .addClause #[⟨1, by decide⟩, ⟨3, by decide⟩]]
  have computed : ((run Clock.stopped {} commands).toOption.bind fun solver =>
      ((solver.limitedTo none).solve Clock.stopped).toOption.map fun result =>
        (solver.options, result.1, result.2.statistics.decisions)) = some ({}, .sat, 1) := by
    decide +kernel
  cases done : run Clock.stopped {} commands with
  | error fault => simp [done, Except.toOption] at computed
  | ok solver =>
      have reached := (Reachable.start {} {}).run done
      cases solved : (solver.limitedTo none).solve Clock.stopped with
      | error fault => simp [done, solved, Except.toOption] at computed
      | ok result =>
          simp only [done, solved, Except.toOption, Option.bind_some, Option.map_some,
            Option.some.injEq, Prod.mk.injEq] at computed
          obtain ⟨options, sat, decisions⟩ := computed
          have untimed : solver.options.timeLimit = none := by rw [options]
          obtain ⟨status, final, same, -, limits⟩ := solve_limitedTo reached untimed Clock.stopped
          obtain rfl := Except.ok.inj (solved.symm.trans same)
          obtain rfl : status = .sat := sat
          have made : final.statistics.decisions = 1 := decisions
          obtain ⟨cut, stopped, count⟩ := (limits Clock.stopped 1).2.1 (by simp [InTime, made])
          exact ⟨solver, final, cut, reached, untimed, same, made,
            (limits Clock.stopped 2).1 (by simp [InTime, made]), stopped, count⟩

end Dpll.Solver
