import Dpll.Proofs.Sessions

/-!
# Consistency of clauses and watch lists

Every state that a session can reach has tables of one size, keeps the clauses as they were given, and
lists each clause under a literal as often as the clause watches it. No request of a session breaks a
precondition, and no sweep ever meets a clause in the list of a literal that it does not watch: such
a visit would leave an event in the journal. `Solver.Tidy` is carried through every part of a search
to show it, whether or not the conflicts before were dealt with.
-/

set_option autoImplicit false

namespace Dpll

theorem exists_of_bind_eq_ok {ε α β : Type} {first : Except ε α} {next : α → Except ε β} {result : β}
    (done : first >>= next = .ok result) : ∃ value, first = .ok value ∧ next value = .ok result := by
  cases first with
  | error error => cases done
  | ok value => exact ⟨value, rfl, done⟩

theorem Trail.Faithful.of_lowerLevel {trail lowered : Trail} {level : Nat}
    (faithful : trail.Faithful) (done : trail.lowerLevel level = .ok lowered) :
    lowered = { trail with level := min trail.level level } ∧ lowered.Faithful := by
  have clear : ∀ entry ∈ trail.entries, entry.level ≤ level := by
    intro entry member
    unfold Trail.lowerLevel at done
    split at done
    · next tested =>
      have sorted := faithful.sorted
      cases shape : trail.entries with
      | nil => rw [shape] at member; cases member
      | cons head rest =>
          rw [shape] at member sorted tested
          have low : head.level ≤ level := by simpa using tested
          rcases List.mem_cons.mp member with rfl | older
          · exact low
          · exact Nat.le_trans ((List.pairwise_cons.mp sorted).1 entry older) low
    · cases done
  obtain ⟨computed, kept⟩ := faithful.lowerLevel clear
  cases done.symm.trans computed
  exact ⟨rfl, kept⟩

/-- The slots that stand for positions of their own: a clause of one literal has only one. -/
def Clause.slots (clause : Clause) : List Slot :=
  if clause.literals.size = 1 then [.first] else [.first, .second]

private theorem Clause.count_watchKeys_eq_countP (clause : Clause)
    (apart : clause.first = clause.second → clause.literals.size = 1) (literal : Literal) :
    clause.watchKeys.count literal = clause.slots.countP (clause.watched · = literal) := by
  by_cases same : clause.first = clause.second
  · by_cases watching : clause.watched .first = literal <;>
      simp [watchKeys, slots, same, apart same, watching]
  · have several : clause.literals.size ≠ 1 := by
      intro single
      have first := clause.first.isLt
      have second := clause.second.isLt
      exact same (Fin.ext (by omega))
    by_cases first : clause.watched .first = literal <;>
      by_cases second : clause.watched .second = literal <;>
        simp [watchKeys, slots, same, several, first, second]

namespace Solver

def Step.solver : Step → Solver
  | .finished _ solver => solver
  | .continued solver => solver

structure Tidy (solver : Solver) : Prop extends Resting solver where
  orderly : solver.journal.Orderly

variable {solver after : Solver} {literal : Literal} {conflict : Option Conflict}
  {decision : Decision} {outer : List Decision} {clock : Clock} {status : Status}

private theorem Resting.kept_assign (resting : solver.Resting)
    (done : solver.assign literal = .ok (conflict, after)) :
    after.Resting ∧ (solver.journal.Orderly → after.journal.Orderly) := by
  obtain ⟨wide, met, last, widened, same, assigned⟩ :=
    resting.exists_assign (.zero _ _ 0) (fits_of_assign resting.small done)
  cases done.symm.trans same
  refine ⟨assigned.resting (widened.resting resting.idle), fun orderly => ?_⟩
  exact assigned.continues.orderly (widened.journal ▸ orderly)

namespace Tidy

theorem record (tidy : solver.Tidy) (event : Event)
    (harmless : ∀ ref literal, Event.strayWatch ref literal ≠ event) :
    (solver.record event).Tidy :=
  ⟨tidy.toResting.transfer rfl rfl rfl rfl, tidy.orderly.record harmless⟩

theorem popTo (tidy : solver.Tidy) (level : Nat) : (solver.popTo level).Tidy := by
  refine ⟨tidy.toResting.popTo level, ?_⟩
  simp only [Solver.popTo]
  split
  · exact tidy.orderly
  · exact tidy.orderly.record (by simp)

/-- The decisions and the counters of a search have no part in it. -/
theorem adjust (tidy : solver.Tidy) (decisions : List Decision) {statistics : Statistics}
    (same : statistics.variableCount = solver.statistics.variableCount) :
    Tidy { solver with decisions, statistics } :=
  ⟨tidy.toResting.transfer rfl rfl rfl same, tidy.orderly⟩

theorem assign (tidy : solver.Tidy) (done : solver.assign literal = .ok (conflict, after)) :
    after.Tidy := by
  obtain ⟨resting, orderly⟩ := tidy.toResting.kept_assign done
  exact ⟨resting, orderly tidy.orderly⟩

theorem deepened (tidy : solver.Tidy) (literal : Literal) : (solver.deepened literal).Tidy :=
  ⟨tidy.toResting.deepened literal, tidy.orderly.record (by simp)⟩

theorem decide (tidy : solver.Tidy) (done : solver.decide literal = .ok (conflict, after)) :
    after.Tidy :=
  (tidy.deepened literal).assign done

theorem assignAll {literals : List Literal} (tidy : solver.Tidy)
    (done : solver.assignAll literals = .ok (conflict, after)) : after.Tidy := by
  induction literals generalizing solver with
  | nil => cases done; exact tidy
  | cons literal rest ih =>
      unfold Solver.assignAll at done
      split at done
      · cases done
      · next assigned => cases done; exact tidy.assign assigned
      · next assigned => exact ih (tidy.assign assigned) done

/-! ## The parts of a search -/

theorem reportProgress (tidy : solver.Tidy) : solver.reportProgress.Tidy := by
  unfold Solver.reportProgress
  split
  · exact ⟨tidy.toResting.transfer rfl rfl rfl rfl, tidy.orderly⟩
  · exact tidy

theorem branch {var : Var} (tidy : solver.Tidy) (done : solver.branch var = .ok (conflict, after)) :
    after.Tidy := by
  obtain ⟨literal, -, decided⟩ := exists_of_bind_eq_ok done
  exact (tidy.adjust _ rfl).reportProgress.decide decided

theorem abandon (tidy : solver.Tidy) (done : solver.abandon decision outer = .ok after) :
    after.Tidy := by
  obtain ⟨-, -, undone⟩ := exists_of_bind_eq_ok done
  obtain ⟨level, -, lowering⟩ := exists_of_bind_eq_ok undone
  obtain ⟨trail, lowered, finished⟩ := exists_of_bind_eq_ok lowering
  cases finished
  have popped := tidy.popTo decision.level
  obtain ⟨rfl, faithful⟩ := popped.faithful.of_lowerLevel lowered
  exact ⟨⟨⟨faithful, popped.tracks, popped.sized, popped.small⟩, popped.idle⟩, popped.orderly⟩

theorem turn (tidy : solver.Tidy) (done : solver.turn decision outer = .ok (conflict, after)) :
    after.Tidy := by
  obtain ⟨literal, -, checked⟩ := exists_of_bind_eq_ok done
  obtain ⟨-, -, assigned⟩ := exists_of_bind_eq_ok checked
  have turned := (tidy.popTo decision.level).adjust ({ decision with flipped := true } :: outer) rfl
  exact (turned.record (.flipped decision.var decision.level) (by simp)).assign assigned

theorem retreat {decisions : List Decision} {found : Bool} (tidy : solver.Tidy)
    (done : retreat decisions solver = .ok (found, after)) : after.Tidy := by
  induction decisions generalizing solver with
  | nil => cases done; exact tidy
  | cons decision outer ih =>
      unfold Solver.retreat at done
      split at done
      · split at done
        · cases done
        · next abandoned => exact ih (tidy.abandon abandoned) done
      · split at done
        · cases done
        · next turned => cases done; exact tidy.turn turned
        · next turned =>
          split at done
          · cases done
          · next abandoned => exact ih ((tidy.turn turned).abandon abandoned) done

theorem retry {step : Step} (tidy : solver.Tidy) (done : solver.retry = .ok step) :
    step.solver.Tidy := by
  unfold Solver.retry at done
  have counted : Tidy (solver.count fun statistics =>
      { statistics with backtracks := statistics.backtracks + 1 }) := tidy.adjust _ rfl
  split at done
  · cases done
  · next flipped => cases done; exact counted.retreat flipped
  · next flipped => cases done; exact counted.retreat flipped

theorem step {step : Step} {elapsed : Nat} (tidy : solver.Tidy)
    (done : solver.step elapsed = .ok step) : step.solver.Tidy := by
  unfold Solver.step at done
  split at done
  · cases done; exact tidy.record _ (by simp)
  · split at done
    · cases done; exact tidy
    · unfold Solver.advance at done
      split at done
      · exact tidy.retry done
      · split at done
        · cases done
        · next branched => cases done; exact tidy.branch branched
        · next branched => exact (tidy.branch branched).retry done

theorem steps {more : Nat} (tidy : solver.Tidy)
    (done : steps clock more solver = .ok (status, after)) : after.Tidy := by
  induction more generalizing solver with
  | zero => cases done
  | succ more ih =>
      unfold Solver.steps at done
      split at done
      · cases done
      · next stepped => cases done; exact tidy.step stepped
      · next stepped => exact ih (tidy.step stepped) done

theorem search (tidy : solver.Tidy) (done : search clock solver = .ok (status, after)) :
    after.Tidy := by
  have begun : ∀ {step}, solver.begin = .ok step → step.solver.Tidy := by
    intro step begun
    unfold Solver.begin at begun
    split at begun
    · cases begun; exact tidy
    · split at begun
      · cases begun
      · next assigned => cases begun; exact tidy.assignAll assigned
      · next assigned => cases begun; exact tidy.assignAll assigned
  unfold Solver.search at done
  split at done
  · cases done
  · next finished => cases done; exact begun finished
  · next continued => exact (begun continued).steps done

theorem solve (tidy : solver.Tidy) (done : solver.solve clock = .ok (status, after)) :
    after.Tidy := by
  have restarted : solver.restart.Tidy := ((tidy.popTo 0).adjust _ rfl).adjust _ rfl
  unfold Solver.solve at done
  split at done
  · cases done
  · split at done
    · cases done
    · next searched => cases done; exact (restarted.search searched).record _ (by simp)

/-! ## Requests -/

theorem ensureVariables {count : Nat} (tidy : solver.Tidy)
    (done : solver.ensureVariables count = .ok after) : after.Tidy := by
  obtain ⟨wide, grown, widened⟩ :=
    tidy.toIntact.exists_ensureVariables (lt_of_ensureVariables tidy.small done)
  cases done.symm.trans grown
  exact ⟨widened.resting tidy.idle, widened.journal ▸ tidy.orderly⟩

theorem addClause {literals : Array Literal} {answer : Except EmptyClause ClauseRef}
    (tidy : solver.Tidy) (resting : after.Resting)
    (done : solver.addClause literals = .ok (answer, after)) : after.Tidy := by
  refine ⟨resting, ?_⟩
  unfold Solver.addClause at done
  split at done
  · cases done; exact tidy.orderly.record (by simp)
  · split at done
    · split at done
      · cases done
      · next inserted =>
        cases done
        obtain ⟨-, -, cleared⟩ := exists_of_bind_eq_ok inserted
        obtain ⟨wide, grown, storing⟩ := exists_of_bind_eq_ok cleared
        have wideTidy := Tidy.ensureVariables ((tidy.popTo 0).adjust _ rfl) grown
        split at storing
        · cases storing
        · obtain ⟨watches, -, stored⟩ := exists_of_bind_eq_ok storing
          cases stored
          exact wideTidy.orderly.record (by simp)
    · cases done

theorem perform {command : Command} {reply : Reply} (tidy : solver.Tidy)
    (done : solver.perform clock command = .ok (reply, after)) : after.Tidy := by
  have resting := (tidy.toResting.performed done).resting
  cases command with
  | createVariables count =>
      simp only [Solver.perform] at done
      split at done
      · cases done
      · next grown => cases done; exact tidy.ensureVariables grown
  | addClause literals =>
      simp only [Solver.perform] at done
      split at done
      · cases done
      · next added => cases done; exact tidy.addClause resting added
      · next added => cases done; exact tidy.addClause resting added
  | decide literal =>
      simp only [Solver.perform] at done
      split at done
      · cases done
      · next decided => cases done; exact tidy.decide decided
  | assign literal =>
      simp only [Solver.perform] at done
      split at done
      · cases done
      · next assigned => cases done; exact tidy.assign assigned
  | backtrackTo level =>
      simp only [Solver.perform] at done
      split at done
      · cases done
      · cases done; exact (tidy.popTo level).adjust _ rfl
  | solve =>
      simp only [Solver.perform] at done
      split at done
      · cases done
      · next solved => cases done; exact tidy.solve solved

theorem runTimed {requests : List (Clock × Command)} (tidy : solver.Tidy)
    (done : solver.runTimed requests = .ok after) : after.Tidy := by
  induction requests generalizing solver with
  | nil => cases done; exact tidy
  | cons request rest ih =>
      unfold Solver.runTimed at done
      split at done
      · cases done
      · next performed => exact ih (tidy.perform performed) done

end Tidy

/-! ## Consistent states -/

/-- Clauses, watch lists and value table fit together. Two different positions are watched, unless
there is only one. A clause is listed under a literal once for each slot that watches it, and
nothing but stored clauses is listed. That a watched position is one of the clause is part of its
type. -/
structure Consistent (solver : Solver) : Prop where
  values : solver.trail.values.size = solver.statistics.variableCount
  lists : solver.watches.lists.size = 2 * solver.statistics.variableCount
  apart : ∀ clause ∈ solver.clauses, clause.first ≠ clause.second ∨ clause.literals.size = 1
  listed : ∀ ref clause, solver.clauses.get? ref = some clause → ∀ literal,
    (solver.watches.watchedBy literal).count ref =
      clause.slots.countP (clause.watched · = literal)
  stored : ∀ literal, ∀ ref ∈ solver.watches.watchedBy literal,
    ∃ clause, solver.clauses.get? ref = some clause

theorem Intact.consistent (intact : solver.Intact) : solver.Consistent where
  values := intact.sized
  lists := intact.tracks.size_eq
  apart clause member := by
    by_cases same : clause.first = clause.second
    · exact .inr (intact.tracks.apart clause member same)
    · exact .inl same
  listed ref clause found literal := by
    have apart := intact.tracks.apart clause (ClauseStore.mem_of_get? found)
    rw [intact.tracks.listed, ← clause.count_watchKeys_eq_countP apart]
    simp only [ClauseStore.keysAt, found]
  stored literal ref member := by
    obtain ⟨clause, found, -⟩ := intact.tracks.watches_of_listed member
    exact ⟨clause, found⟩

/-- Every session of admissible requests is carried out without a fault. It leaves the clauses that
were given, in order and literal by literal, a consistent state, and a journal in which no clause was
found in the list of a literal that it does not watch. -/
theorem runTimed_consistent (options : Options) (recording : Bool)
    (requests : List (Clock × Command))
    (admissible : ∀ request ∈ requests, request.2.Admissible) :
    ∃ solver, runTimed { options, journal := { recording } } requests = .ok solver ∧
      solver.formula = (addedClauses (requests.map Prod.snd)).filter (· ≠ []) ∧
      solver.Consistent ∧
      ∀ ref literal, Event.strayWatch ref literal ∉ solver.journal.events := by
  have start := (cleared_start options { recording }).toResting
  obtain ⟨solver, done, resting, -, formula, -⟩ := start.exists_runTimed admissible
  have tidy : Tidy { options, journal := { recording } } := ⟨start, nofun⟩
  exact ⟨solver, done, formula, resting.toIntact.consistent, (tidy.runTimed done).orderly⟩

/-- A session with a conflict that nobody undoes, a clause that repeats a literal and two searches with
different clocks. -/
theorem runTimed_consistent_after_conflict :
    let requests : List (Clock × Command) :=
      [(Clock.stopped, .addClause #[⟨0, by decide⟩, ⟨2, by decide⟩, ⟨0, by decide⟩]),
        (Clock.stopped, .addClause #[⟨0, by decide⟩, ⟨3, by decide⟩]),
        (Clock.stopped, .decide ⟨1, by decide⟩), (Clock.stopped, .decide ⟨4, by decide⟩),
        (fun _ => 5, .solve), (fun _ => 0, .solve)]
    (∀ request ∈ requests, request.2.Admissible) ∧
      ∃ solver, runTimed { options := { timeLimit := some 1 }, journal := { recording := true } }
          requests = .ok solver ∧
        solver.formula = [[⟨0, by decide⟩, ⟨2, by decide⟩, ⟨0, by decide⟩],
          [⟨0, by decide⟩, ⟨3, by decide⟩]] ∧
        solver.Consistent ∧
        ∀ ref literal, Event.strayWatch ref literal ∉ solver.journal.events := by
  intro requests
  have admissible : ∀ request ∈ requests, request.2.Admissible := by
    simp [requests, Command.Admissible, Literal.var, variableLimit_eq]
  obtain ⟨solver, done, formula, consistent, orderly⟩ :=
    runTimed_consistent { timeLimit := some 1 } true requests admissible
  exact ⟨admissible, solver, done, formula, consistent, orderly⟩

end Solver

end Dpll
