import Dpll.Proofs.Levels

/-!
# The rounds of a search

`Solver.Round` holds of the states in which a search stands at the head of its loop. It has no bound on
the number of rounds, and `Solver.Halts` says how such a loop comes to its end; what solving returns is
an end of this kind. Main statement: at the head of every round the stack of decisions, the levels of
the trail and the current level say the same, however many levels the last round has undone.
-/

set_option autoImplicit false

namespace Dpll

/-! ## Decided variables -/

private theorem Valuation.countP_ne_unset (values : Valuation) :
    values.count .unset + values.countP (· ≠ .unset) = values.size := by
  rw [@Array.size_eq_countP_add_countP _ (· == Truth.unset) values, Array.count_eq_countP]
  congr 1
  exact Array.countP_congr fun truth _ => by simp

private theorem Valuation.count_unset_ofEntries {count : Nat} {entries : List Entry}
    (distinct : entries.Pairwise fun newer older => newer.literal.var ≠ older.literal.var)
    (inside : ∀ entry ∈ entries, entry.literal.var < count) :
    (Valuation.ofEntries count entries).count .unset + entries.length = count := by
  induction entries with
  | nil => simp [Valuation.ofEntries]
  | cons head rest ih =>
      obtain ⟨fresh, restDistinct⟩ := List.pairwise_cons.mp distinct
      have restInside : ∀ entry ∈ rest, entry.literal.var < count :=
        fun entry member => inside entry (.tail _ member)
      have free : head.literal.value (Valuation.ofEntries count rest) = .unset :=
        Valuation.value_eq_unset_of_fresh (Valuation.holds_ofEntries_iff restDistinct restInside)
          fun entry member => (fresh entry member).symm
      have covered : head.literal.var < (Valuation.ofEntries count rest).size := by
        rw [Valuation.size_ofEntries]
        exact inside head (.head _)
      have fewer := Formula.count_unset_setTrue covered free
      have counted := ih restDistinct restInside
      change (Formula.setTrue (Valuation.ofEntries count rest) head.literal).count .unset +
        (rest.length + 1) = count
      omega

namespace Solver

variable {problem : Problem} {origin solver current after stopped final : Solver} {clock : Clock}
  {status : Status} {step : Step}

/-- As many variables are decided as the trail has entries. -/
theorem Intact.countP_model (intact : solver.Intact) :
    solver.model.countP (· ≠ .unset) = solver.trail.entries.length := by
  have inside : ∀ entry ∈ solver.trail.entries,
      entry.literal.var < solver.statistics.variableCount := by
    intro entry member
    rw [← intact.sized]
    exact intact.faithful.covers member
  have counted := Valuation.count_unset_ofEntries intact.faithful.distinct inside
  rw [← intact.model_eq, ← intact.sized] at counted
  have split := solver.model.countP_ne_unset
  change solver.model.count .unset + solver.trail.entries.length = solver.model.size at counted
  omega

/-! ## The loop of a search -/

inductive Round (clock : Clock) (origin : Solver) : Solver → Prop where
  | first {solver : Solver} :
      origin.restart.begin = .ok (.continued solver) → Round clock origin solver
  | next {solver after : Solver} :
      Round clock origin solver →
      solver.step (clock solver.statistics.decisions) = .ok (.continued after) →
      Round clock origin after

inductive Halts (clock : Clock) (origin : Solver) : Status → Solver → Prop where
  | atStart {status : Status} {stopped : Solver} :
      origin.restart.begin = .ok (.finished status stopped) → Halts clock origin status stopped
  | inRound {solver stopped : Solver} {status : Status} :
      Round clock origin solver →
      solver.step (clock solver.statistics.decisions) = .ok (.finished status stopped) →
      Halts clock origin status stopped

def Step.next? : Step → Option Solver
  | .continued solver => some solver
  | .finished _ _ => none

def round? (clock : Clock) (origin : Solver) : Nat → Option Solver
  | 0 => origin.restart.begin.toOption.bind Step.next?
  | index + 1 => (origin.round? clock index).bind fun solver =>
      (solver.step (clock solver.statistics.decisions)).toOption.bind Step.next?

private theorem eq_continued_of_next? {result : Except Fault Step}
    (found : result.toOption.bind Step.next? = some solver) : result = .ok (.continued solver) := by
  obtain ⟨step, done, next⟩ := Option.bind_eq_some_iff.mp found
  cases result with
  | error fault => cases done
  | ok outcome =>
      cases done
      cases step with
      | finished status stopped => cases next
      | continued after =>
          cases next
          rfl

theorem Round.of_round? {index : Nat} (found : origin.round? clock index = some solver) :
    Round clock origin solver := by
  induction index generalizing solver with
  | zero => exact .first (eq_continued_of_next? found)
  | succ index ih =>
      obtain ⟨before, earlier, done⟩ := Option.bind_eq_some_iff.mp found
      exact .next (ih earlier) (eq_continued_of_next? done)

private theorem Round.halts_of_steps (round : Round clock origin solver) {more : Nat}
    (done : steps clock more solver = .ok (status, stopped)) : Halts clock origin status stopped := by
  induction more generalizing solver with
  | zero => cases done
  | succ more ih =>
      unfold steps at done
      split at done
      · cases done
      · next finished =>
        cases done
        exact .inRound round finished
      · next continued => exact ih (.next round continued) done

/-- What solving returns is where the loop ends. -/
theorem exists_halts_of_solve (done : solver.solve clock = .ok (status, final)) :
    ∃ stopped, Halts clock solver status stopped ∧ final = stopped.conclude status := by
  unfold solve at done
  split at done
  · cases done
  · split at done
    · cases done
    · next found stopped searched =>
      cases done
      refine ⟨stopped, ?_, rfl⟩
      unfold search at searched
      split at searched
      · cases searched
      · next begun =>
        cases searched
        exact .atStart begun
      · next begun => exact Round.halts_of_steps (.first begun) searched

theorem Resting.exists_halts (resting : origin.Resting) (clock : Clock) :
    ∃ status stopped, origin.solve clock = .ok (status, stopped.conclude status) ∧
      Halts clock origin status stopped ∧
      Answers origin.problem (stopped.conclude status) status := by
  obtain ⟨status, final, done, answers⟩ := resting.exists_solve clock
  obtain ⟨stopped, halts, rfl⟩ := exists_halts_of_solve done
  exact ⟨status, stopped, done, halts, answers⟩

theorem Resting.begins (resting : origin.Resting) (begun : origin.restart.begin = .ok step)
    (nonempty : origin.hasEmptyClause = false) : Begins origin.problem step := by
  obtain ⟨other, same, begins⟩ := resting.rooting_restart.exists_begin nonempty
  cases begun.symm.trans same
  exact begins

theorem Resting.begin_of_empty (resting : origin.Resting) (empty : origin.hasEmptyClause = true) :
    origin.restart.begin = .ok (.finished .unsat origin.restart) := by
  have given : origin.restart.hasEmptyClause = true :=
    (congrArg Problem.hasEmptyClause resting.rooting_restart.same).trans empty
  simp only [begin, given, ↓reduceIte]

theorem Resting.begins_continued (resting : origin.Resting)
    (begun : origin.restart.begin = .ok (.continued current)) :
    origin.hasEmptyClause = false ∧ Begins origin.problem (.continued current) := by
  have nonempty : origin.hasEmptyClause = false := by
    apply Bool.eq_false_iff.mpr
    intro empty
    rw [resting.begin_of_empty empty] at begun
    cases begun
  exact ⟨nonempty, resting.begins begun nonempty⟩

theorem Round.hasEmptyClause_eq_false (round : Round clock origin current)
    (resting : origin.Resting) : origin.hasEmptyClause = false := by
  induction round with
  | first begun => exact (resting.begins_continued begun).1
  | next _ _ ih => exact ih

theorem Searching.leadsTo (searching : Searching problem solver) {elapsed : Nat}
    (done : solver.step elapsed = .ok step) :
    LeadsTo problem (solver.statistics.decisions + 1) step := by
  obtain ⟨other, same, leads⟩ := searching.exists_step elapsed
  cases done.symm.trans same
  exact leads

/-- The invariant of the search holds at the head of every round. -/
theorem Round.searching (round : Round clock origin current) (resting : origin.Resting) :
    Searching origin.problem current := by
  induction round with
  | first begun => exact (resting.begins_continued begun).2.1
  | next _ done ih => exact (ih.leadsTo done).1

/-! ## The stack of decisions -/

/-- The open decisions, the levels of the trail and the current level fit together. Counted from the
outermost, the decisions have opened the levels from one on. -/
structure Stacked (solver : Solver) : Prop where
  length_eq : solver.decisions.length = solver.level
  level_eq : ∀ (index : Nat) (decision : Decision),
    solver.decisions.reverse[index]? = some decision → decision.level = index + 1
  opening : ∀ decision ∈ solver.decisions, ∃ literal,
    Trail.opening? solver.trail.entries decision.level = some literal ∧
      literal.var = decision.var ∧ (literal.positive = false ↔ decision.flipped = true)
  used_iff : ∀ level, 0 < level →
    ((∃ entry ∈ solver.trail.entries, entry.level = level) ↔ level ≤ solver.level)
  increasing : ∀ inner ∈ solver.decisions, ∀ outer ∈ solver.decisions,
    outer.level < inner.level → outer.var < inner.var
  lower : ∀ decision ∈ solver.decisions, ∀ var < decision.var,
    ∃ entry ∈ solver.trail.entries, entry.literal.var = var ∧ entry.level < decision.level
  level_le : solver.level ≤ solver.model.countP (· ≠ .unset)
  maxLevel_le : solver.statistics.maxLevel ≤ solver.statistics.variableCount

theorem Searching.level_le (searching : Searching problem solver) :
    solver.level ≤ solver.model.countP (· ≠ .unset) := by
  rw [searching.toIntact.countP_model, searching.depth]
  exact searching.layered.length_le

theorem Searching.maxLevel_le (searching : Searching problem solver) :
    solver.statistics.maxLevel ≤ solver.statistics.variableCount := by
  rw [searching.variableCount]
  exact Nat.le_trans searching.balanced.maxLevel_le (search_maxLevel_le problem)

private theorem Searching.stacked (searching : Searching problem solver) : solver.Stacked where
  length_eq := searching.depth.symm
  level_eq := by
    intro index decision found
    have inside : index < solver.decisions.length := by
      simpa using (List.getElem?_eq_some_iff.mp found).1
    have level := congrArg (·[index]?) searching.layered.levels_eq
    simp only [List.getElem?_map, found, List.getElem?_range' inside, Option.map_some,
      Option.some.injEq] at level
    omega
  opening := by
    intro decision member
    obtain ⟨literal, opened, same, sign⟩ := searching.layered.exists_opening? member
    exact ⟨literal, opened, same, by simp [sign]⟩
  used_iff := by
    intro level positive
    rw [searching.depth]
    exact searching.layered.level_used_iff positive
  increasing := by
    intro inner innerMember outer outerMember less
    exact searching.layered.var_lt innerMember outerMember less
  lower := fun _ member _ less => searching.layered.exists_lower member less
  level_le := searching.level_le
  maxLevel_le := searching.maxLevel_le

/-- An empty clause ends the search before it begins, and any other end says what it stands for. -/
theorem Halts.outcome (halts : Halts clock origin status stopped) (resting : origin.Resting) :
    (origin.hasEmptyClause = true ∧ status = .unsat ∧ stopped = origin.restart) ∨
      (origin.hasEmptyClause = false ∧ Ends origin.problem stopped status) := by
  cases halts with
  | atStart begun =>
      cases empty : origin.hasEmptyClause with
      | true =>
          have same := begun.symm.trans (resting.begin_of_empty empty)
          cases same
          exact .inl ⟨rfl, rfl, rfl⟩
      | false => exact .inr ⟨rfl, (resting.begins begun empty).leadsTo.1⟩
  | inRound round done =>
      exact .inr ⟨round.hasEmptyClause_eq_false resting,
        ((round.searching resting).leadsTo done).1⟩

theorem Ends.level_le (ends : Ends problem solver status) :
    solver.level ≤ solver.model.countP (· ≠ .unset) := by
  cases status with
  | unsat =>
      rw [Refuted.level ends]
      exact Nat.zero_le _
  | sat => exact ends.1.level_le
  | unknown => exact ends.1.level_le

theorem Ends.maxLevel_le (ends : Ends problem solver status) :
    solver.statistics.maxLevel ≤ solver.statistics.variableCount := by
  cases status with
  | unsat =>
      have refuted : Refuted problem solver := ends
      have spent := congrArg PlainSearch.Result.maxLevel refuted.spent
      have count : solver.statistics.variableCount = problem.variableCount :=
        congrArg Problem.variableCount refuted.same
      rw [count]
      exact Nat.le_trans (Nat.le_of_eq spent) (search_maxLevel_le problem)
  | sat => exact ends.1.maxLevel_le
  | unknown => exact ends.1.maxLevel_le

/-- Wherever a search ends, no more levels are open than variables are decided, and there never were
more than variables. -/
theorem Halts.bounds (halts : Halts clock origin status stopped) (resting : origin.Resting) :
    stopped.level ≤ stopped.model.countP (· ≠ .unset) ∧
      stopped.statistics.maxLevel ≤ stopped.statistics.variableCount := by
  rcases halts.outcome resting with ⟨-, -, rfl⟩ | ⟨-, ends⟩
  · constructor
    · rw [resting.rooting_restart.level]
      exact Nat.zero_le _
    · exact Nat.zero_le _
  · exact ⟨ends.level_le, ends.maxLevel_le⟩

/-- At the head of every round of a search the decisions, the trail and the current level fit together.
The search comes to its end in such a round, or before the first. -/
theorem round_stacked (reached : Reachable solver) (clock : Clock) :
    (∀ current, Round clock solver current → current.Stacked) ∧
      ∃ status stopped, solver.solve clock = .ok (status, stopped.conclude status) ∧
        Halts clock solver status stopped ∧
        stopped.level ≤ stopped.model.countP (· ≠ .unset) ∧
        stopped.statistics.maxLevel ≤ stopped.statistics.variableCount := by
  constructor
  · intro current round
    exact (round.searching reached.resting).stacked
  · obtain ⟨status, stopped, done, halts, -⟩ := reached.resting.exists_halts clock
    exact ⟨status, stopped, done, halts, halts.bounds reached.resting⟩

/-- The second round undoes two levels and turns the first decision; the third opens level two anew. -/
theorem round_stacked_after_turn :
    ∃ solver current, Reachable solver ∧ Round Clock.stopped solver current ∧
      current.decisions = [⟨1, 2, false⟩, ⟨0, 1, true⟩] ∧
      current.trail.entries = [⟨⟨2, by decide⟩, 2⟩, ⟨⟨1, by decide⟩, 1⟩] ∧ current.Stacked := by
  let commands : List Command :=
    [.addClause #[⟨1, by decide⟩, ⟨2, by decide⟩, ⟨4, by decide⟩],
      .addClause #[⟨1, by decide⟩, ⟨2, by decide⟩, ⟨5, by decide⟩],
      .addClause #[⟨1, by decide⟩, ⟨3, by decide⟩, ⟨4, by decide⟩],
      .addClause #[⟨1, by decide⟩, ⟨3, by decide⟩, ⟨5, by decide⟩],
      .addClause #[⟨6, by decide⟩, ⟨8, by decide⟩]]
  have computed : ((run Clock.stopped {} commands).toOption.bind fun solver =>
      (solver.round? Clock.stopped 3).map fun current =>
        (current.decisions, current.trail.entries)) =
      some ([⟨1, 2, false⟩, ⟨0, 1, true⟩],
        [⟨⟨2, by decide⟩, 2⟩, ⟨⟨1, by decide⟩, 1⟩]) := by
    decide +kernel
  obtain ⟨solver, reached, shape⟩ := exists_reachable computed
  obtain ⟨current, found, same⟩ := Option.map_eq_some_iff.mp shape
  obtain ⟨decisions, entries⟩ := Prod.mk.inj same
  have round := Round.of_round? found
  exact ⟨solver, current, reached, round, decisions, entries,
    (round_stacked reached Clock.stopped).1 current round⟩

end Solver

end Dpll
