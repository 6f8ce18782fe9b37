import Dpll.Proofs.Replay
import Dpll.Proofs.Retreats

/-!
# Every loop ends

Three loops make up a search. Propagation takes literals off the queue one after the other, in the
order of the trail and never going back (`Solver.Drains`). The undoing of decisions meets each decision
at most twice. The search itself opens a decision in every round and spends no more of them than the
tree of its decisions has inner nodes, so `Nat.pow 2 n - 1` is a bound for `n` variables. Main
statement: `Solver.solve_terminates`.
-/

set_option autoImplicit false

namespace Dpll.Solver

variable {problem : Problem} {origin solver state current stopped next after : Solver}
  {clock : Clock} {status : Status} {literal falsified : Literal} {taken : List Literal}
  {conflict : Option Conflict} {refs stay : List ClauseRef}

/-! ## The queue of propagation -/

/-- A run of propagation, with the literals that it takes off the queue. -/
inductive Drains : Solver → List Literal → Option Conflict → Solver → Prop where
  | idle {solver : Solver} : solver.trail.next? = none → Drains solver [] none solver
  | conflict {solver next : Solver} {literal : Literal} {reason : Conflict} :
      solver.trail.next? = some literal →
      solver.dequeue.propagateLiteral literal = .ok (some reason, next) →
      Drains solver [literal] (some reason) (next.concede literal reason)
  | proceed {solver next after : Solver} {literal : Literal} {taken : List Literal}
      {conflict : Option Conflict} :
      solver.trail.next? = some literal →
      solver.dequeue.propagateLiteral literal = .ok (none, next) →
      Drains next taken conflict after → Drains solver (literal :: taken) conflict after

theorem exists_drains (done : solver.propagate = .ok (conflict, after)) :
    ∃ taken, Drains solver taken conflict after := by
  induction load : solver.workload using Nat.strongRecOn generalizing solver with
  | ind bounded ih =>
      rw [propagate] at done
      split at done
      · next waiting =>
        cases done
        exact ⟨[], .idle waiting⟩
      · next literal waiting =>
        split at done
        · cases done
        · next swept =>
          cases done
          exact ⟨[literal], .conflict waiting swept⟩
        · next next swept =>
          have less : next.workload < bounded := by
            rw [← load, workload_propagateLiteral swept]
            exact workload_dequeue waiting
          obtain ⟨taken, run⟩ := ih next.workload less done rfl
          exact ⟨literal :: taken, .proceed waiting swept run⟩

def Enqueues (before after : Solver) : Prop :=
  ∃ added, after.trail.entries = added ++ before.trail.entries ∧
    after.trail.pending = before.trail.pending + added.length ∧
    after.statistics = before.statistics

theorem Enqueues.refl (solver : Solver) : Enqueues solver solver := ⟨[], rfl, rfl, rfl⟩

private theorem Enqueues.pushed_trans (enqueues : Enqueues (solver.pushed literal) after) :
    Enqueues solver after := by
  obtain ⟨added, entries, pending, statistics⟩ := enqueues
  refine ⟨added ++ [⟨literal, solver.level⟩], ?_, ?_, statistics⟩
  · rw [entries, List.append_assoc]
    rfl
  · rw [pending, List.length_append, List.length_singleton]
    change solver.trail.pending + 1 + added.length = _
    omega

private theorem Swept.enqueues (run : Swept falsified refs solver stay after conflict) :
    Enqueues solver after := by
  induction run with
  | done solver => exact .refl solver
  | stray _ ih => exact ih
  | satisfied _ _ _ ih => exact ih
  | moved _ _ _ ih => exact ih
  | forced _ _ _ _ ih => exact Enqueues.pushed_trans ih
  | refuted => exact .refl _

private theorem enqueues_of_propagateLiteral
    (done : solver.propagateLiteral literal = .ok (conflict, next)) : Enqueues solver next := by
  obtain ⟨-, stay, after, run, rfl⟩ := exists_swept_of_propagateLiteral done
  exact run.enqueues

def propagated (solver : Solver) : List Literal :=
  (solver.trail.entries.drop solver.trail.pending).map (·.literal)

/-- A literal taken off the queue comes next after those propagated before it, whatever its sweep puts
behind those that still wait. -/
theorem propagated_of_enqueues (waiting : solver.trail.next? = some literal)
    (enqueues : Enqueues solver.dequeue next) : next.propagated = literal :: solver.propagated := by
  obtain ⟨added, entries, pending, -⟩ := enqueues
  obtain ⟨level, newer, count, here⟩ := Trail.next?_eq_some_iff.mp waiting
  obtain ⟨inside, found⟩ := List.getElem?_eq_some_iff.mp here
  have taken : solver.dequeue.trail.pending = newer := by
    change solver.trail.pending - 1 = newer
    omega
  unfold propagated
  rw [entries, pending, taken, Nat.add_comm, List.drop_length_add_append, count]
  change (solver.trail.entries.drop newer).map _ = _
  rw [List.drop_eq_getElem_cons inside, found]
  rfl

private theorem Drains.propagated_eq (run : Drains solver taken conflict after) :
    ∃ skipped, after.trail.entries.map (·.literal) =
      skipped ++ taken.reverse ++ solver.propagated := by
  induction run with
  | @idle solver waiting =>
      refine ⟨(solver.trail.entries.take solver.trail.pending).map (·.literal), ?_⟩
      rw [propagated, List.reverse_nil, List.append_nil, ← List.map_append, List.take_append_drop]
  | @conflict solver next literal reason waiting swept =>
      have taken := propagated_of_enqueues waiting (enqueues_of_propagateLiteral swept)
      refine ⟨(next.trail.entries.take next.trail.pending).map (·.literal), ?_⟩
      rw [List.reverse_singleton, List.append_assoc, List.singleton_append, ← taken, propagated,
        ← List.map_append, List.take_append_drop]
      rfl
  | proceed waiting swept _ ih =>
      have taken := propagated_of_enqueues waiting (enqueues_of_propagateLiteral swept)
      obtain ⟨skipped, split⟩ := ih
      refine ⟨skipped, ?_⟩
      rw [split, taken, List.reverse_cons, List.append_assoc, List.append_assoc, List.append_assoc,
        List.singleton_append]

private theorem Drains.propagations_eq (run : Drains solver taken conflict after) :
    after.statistics.propagations = solver.statistics.propagations + taken.length := by
  induction run with
  | idle => rfl
  | conflict waiting swept =>
      obtain ⟨-, -, -, statistics⟩ := enqueues_of_propagateLiteral swept
      exact congrArg Statistics.propagations statistics
  | proceed waiting swept _ ih =>
      obtain ⟨-, -, -, statistics⟩ := enqueues_of_propagateLiteral swept
      have once := congrArg Statistics.propagations statistics
      change _ = _ + 1 at once
      rw [ih, once, List.length_cons]
      omega

private theorem Drains.nodup (run : Drains solver taken conflict after)
    (faithful : after.trail.Faithful) :
    taken.Nodup := by
  obtain ⟨skipped, split⟩ := run.propagated_eq
  have distinct : (after.trail.entries.map (·.literal)).Nodup := by
    apply List.pairwise_map.mpr
    apply faithful.distinct.imp
    intro newer older other same
    exact other (congrArg Literal.var same)
  rw [split] at distinct
  have backwards : taken.reverse.Nodup := (List.nodup_append.mp (List.nodup_append.mp distinct).1).2.1
  exact (List.pairwise_reverse.mp backwards).imp Ne.symm

/-! ## The bound on decisions -/

theorem Searching.decisions_lt (searching : Searching problem solver) :
    solver.statistics.decisions < Nat.pow 2 problem.variableCount :=
  Nat.lt_of_le_of_lt searching.balanced.decisions_le (search_decisions_lt problem)

theorem Ends.decisions_lt (ends : Ends problem solver status) :
    solver.statistics.decisions < Nat.pow 2 problem.variableCount := by
  cases status with
  | unsat =>
      have spent := congrArg PlainSearch.Result.decisions (Refuted.spent ends)
      exact Nat.lt_of_le_of_lt (Nat.le_of_eq spent) (search_decisions_lt problem)
  | sat => exact ends.1.decisions_lt
  | unknown => exact ends.1.decisions_lt

theorem Halts.decisions_lt (halts : Halts clock origin status stopped) (resting : origin.Resting) :
    stopped.statistics.decisions < Nat.pow 2 origin.statistics.variableCount := by
  rcases halts.outcome resting with ⟨-, -, rfl⟩ | ⟨-, ends⟩
  · exact Nat.pow_pos (by decide)
  · exact ends.decisions_lt

/-- From every solver that a session comes to, the search ends, and each of its loops with it. Every
round returns and opens a decision if the search goes on after it. Undoing decisions from a dead end
takes at most two turns for each. A call of propagation takes each literal of the trail off the queue at
most once: what it takes are literals that follow on those propagated before, in their order. -/
theorem solve_terminates (reached : Reachable solver) (clock : Clock) :
    (∃ status stopped, solver.solve clock = .ok (status, stopped.conclude status) ∧
      Halts clock solver status stopped ∧
      (stopped.conclude status).statistics.decisions ≤ Nat.pow 2 solver.statistics.variableCount - 1) ∧
    (∀ current, Round clock solver current →
      current.statistics.decisions ≤ Nat.pow 2 solver.statistics.variableCount - 1 ∧
      ∃ step, current.step (clock current.statistics.decisions) = .ok step ∧
        ∀ after, step = .continued after →
          after.statistics.decisions = current.statistics.decisions + 1) ∧
    (∀ current failed, Round clock solver current →
      DeadEnd current (clock current.statistics.decisions) failed →
      ∃ turns found after, failed.flipLast = .ok (found, after) ∧
        Retreats turns failed.decisions failed.counted found after ∧
        turns ≤ 2 * failed.decisions.length) ∧
    (∀ state conflict after, state.propagate = .ok (conflict, after) →
      ∃ taken skipped, Drains state taken conflict after ∧
        after.trail.entries.map (·.literal) = skipped ++ taken.reverse ++ state.propagated ∧
        after.statistics.propagations = state.statistics.propagations + taken.length) ∧
    ∀ state bound, Propagating bound state →
      ∃ conflict after taken, state.propagate = .ok (conflict, after) ∧
        Drains state taken conflict after ∧ taken.Nodup := by
  have resting := reached.resting
  refine ⟨?_, ?_, ?_, ?_, ?_⟩
  · obtain ⟨status, stopped, done, halts, -⟩ := resting.exists_halts clock
    exact ⟨status, stopped, done, halts, Nat.le_sub_one_of_lt (halts.decisions_lt resting)⟩
  · intro current round
    have searching := round.searching resting
    refine ⟨Nat.le_sub_one_of_lt searching.decisions_lt, ?_⟩
    obtain ⟨step, done, leads⟩ := searching.exists_step (clock current.statistics.decisions)
    refine ⟨step, done, ?_⟩
    rintro after rfl
    exact leads.2
  · intro current failed round deadEnd
    have stranded := (round.searching resting).stranded deadEnd
    obtain ⟨turns, found, after, done, run⟩ := stranded.exists_flipLast
    refine ⟨turns, found, after, done, run, ?_⟩
    have few := run.turns_le
    have open_ := @List.countP_le_length _ (!·.flipped) failed.decisions
    omega
  · intro state conflict after done
    obtain ⟨taken, run⟩ := exists_drains done
    obtain ⟨skipped, split⟩ := run.propagated_eq
    exact ⟨taken, skipped, run, split, run.propagations_eq⟩
  · intro state bound propagating
    obtain ⟨conflict, after, done, ended⟩ := propagating.exists_propagate
    obtain ⟨taken, run⟩ := exists_drains done
    exact ⟨conflict, after, taken, done, run, run.nodup ended.resting.faithful⟩

/-- Two variables and the bound of three decisions: a clause that repeats its second literal is not unit
when only its first one is false, so nothing is propagated. -/
theorem solve_terminates_at_bound :
    ∃ solver final : Solver, Reachable solver ∧ solver.statistics.variableCount = 2 ∧
      solver.solve Clock.stopped = .ok (.unsat, final) ∧
      final.statistics.decisions = 3 ∧
      final.statistics.decisions ≤ Nat.pow 2 solver.statistics.variableCount - 1 := by
  let commands : List Command :=
    [.addClause #[⟨0, by decide⟩, ⟨2, by decide⟩, ⟨2, by decide⟩],
      .addClause #[⟨0, by decide⟩, ⟨3, by decide⟩, ⟨3, by decide⟩],
      .addClause #[⟨1, by decide⟩, ⟨2, by decide⟩, ⟨2, by decide⟩],
      .addClause #[⟨1, by decide⟩, ⟨3, by decide⟩, ⟨3, by decide⟩]]
  have computed : ((run Clock.stopped {} commands).toOption.bind fun solver =>
      (solver.solve Clock.stopped).toOption.map fun result =>
        (solver.statistics.variableCount, result.1, result.2.statistics.decisions)) =
      some (2, .unsat, 3) := by
    decide +kernel
  obtain ⟨solver, reached, shape⟩ := exists_reachable computed
  obtain ⟨⟨status, stopped, solved, -, bound⟩, -⟩ := solve_terminates reached Clock.stopped
  simp only [solved, Except.toOption, Option.map_some, Option.some.injEq, Prod.mk.injEq] at shape
  obtain ⟨count, rfl, spent⟩ := shape
  exact ⟨solver, _, reached, count, solved, spent, bound⟩

end Dpll.Solver
