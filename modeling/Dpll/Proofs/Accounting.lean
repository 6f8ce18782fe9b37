import Dpll.Proofs.Lockstep
import Dpll.Proofs.Retreats

/-!
# The counters of a search

Every conflict closes a literal of some decision: the positive one when it is turned, the negative one
when the decision is closed. Hence a search has made one decision for each conflict and one for each
open decision that was not turned. Where a conflict is still to be paid for, the books are off by one
(`Tally.Owes`), and so they stay if all branches have been refuted. A backtrack turns at most one
decision that stays open. Main statement: `Solver.solve_accounts`.
-/

set_option autoImplicit false

namespace Dpll

namespace Tally

variable {tally : Tally} {decision : Decision} {decisions outer : List Decision}

/-- The counters at the head of a round, against the open decisions. -/
structure Settles (tally : Tally) (decisions : List Decision) : Prop where
  decisions_eq : tally.decisions = tally.conflicts + decisions.countP (!·.flipped)
  turned_le : decisions.countP (·.flipped) ≤ tally.backtracks
  backtracks_le : tally.backtracks ≤ tally.conflicts

/-- The counters while decisions are undone. The innermost decision may have been turned in this very
backtrack, and will be closed. -/
structure Owes (tally : Tally) (decisions : List Decision) : Prop where
  decisions_eq : tally.decisions + 1 = tally.conflicts + decisions.countP (!·.flipped)
  turned_lt : decisions.tail.countP (·.flipped) < tally.backtracks
  backtracks_le : tally.backtracks ≤ tally.conflicts
  backtracks_le_decisions : tally.backtracks ≤ tally.decisions

theorem Settles.decided (settles : tally.Settles decisions) (fresh : decision.flipped = false)
    (level : Nat) : ((tally.decided level).propagated false).Settles (decision :: decisions) where
  decisions_eq := by
    have balance := settles.decisions_eq
    simp only [Tally.decided, Tally.propagated, List.countP_cons, fresh, Bool.not_false,
      Bool.false_eq_true, ↓reduceIte]
    omega
  turned_le := by
    rw [List.countP_cons_of_neg (by simp [fresh])]
    exact settles.turned_le
  backtracks_le := settles.backtracks_le

theorem Settles.stranded (settles : tally.Settles decisions) (fresh : decision.flipped = false)
    (level : Nat) {after : Tally} (met : after = (tally.decided level).propagated true) :
    { after with backtracks := after.backtracks + 1 }.Owes (decision :: decisions) := by
  subst met
  have balance := settles.decisions_eq
  have paid := settles.backtracks_le
  constructor
  · simp only [Tally.decided, Tally.propagated, List.countP_cons, fresh, Bool.not_false,
      ↓reduceIte]
    omega
  · exact Nat.lt_succ_of_le settles.turned_le
  · exact Nat.succ_le_succ paid
  · simp only [Tally.decided, Tally.propagated]
    omega

theorem Owes.closed (owes : tally.Owes (decision :: outer)) (flipped : decision.flipped = true) :
    tally.Owes outer where
  decisions_eq := by
    have balance := owes.decisions_eq
    rwa [List.countP_cons_of_neg (by simp [flipped])] at balance
  turned_lt :=
    Nat.lt_of_le_of_lt (List.tail_sublist outer).countP_le owes.turned_lt
  backtracks_le := owes.backtracks_le
  backtracks_le_decisions := owes.backtracks_le_decisions

/-- The negative literal fails as well: a second conflict, and one decision less that is not turned. -/
theorem Owes.failed (owes : tally.Owes (decision :: outer)) (fresh : decision.flipped = false) :
    (tally.propagated true).Owes ({ decision with flipped := true } :: outer) where
  decisions_eq := by
    have balance := owes.decisions_eq
    simp only [List.countP_cons, fresh, Bool.not_false, ↓reduceIte] at balance
    simp only [Tally.propagated, List.countP_cons, Bool.not_true, Bool.false_eq_true, ↓reduceIte]
    omega
  turned_lt := owes.turned_lt
  backtracks_le := Nat.le_succ_of_le owes.backtracks_le
  backtracks_le_decisions := owes.backtracks_le_decisions

theorem Owes.turned (owes : tally.Owes (decision :: outer)) (fresh : decision.flipped = false) :
    (tally.propagated false).Settles ({ decision with flipped := true } :: outer) where
  decisions_eq := by
    have balance := owes.decisions_eq
    simp only [List.countP_cons, fresh, Bool.not_false, ↓reduceIte] at balance
    simp only [Tally.propagated, List.countP_cons, Bool.not_true, Bool.false_eq_true, ↓reduceIte]
    omega
  turned_le := by
    rw [List.countP_cons_of_pos rfl]
    exact owes.turned_lt
  backtracks_le := owes.backtracks_le

end Tally

namespace Solver

variable {problem : Problem} {origin solver current failed stopped after : Solver} {clock : Clock}
  {status : Status} {elapsed turns : Nat} {decisions : List Decision} {found : Bool}

/-! ## What a round does to the counters -/

private theorem Propagated.tally_of_turned {decision : Decision} {literal : Literal} {bound : Nat}
    {conflict : Option Conflict}
    (propagated : Propagated ((solver.turned decision decisions).pushed literal) bound conflict
      after) :
    after.statistics.tally = solver.statistics.tally.propagated conflict.isSome := by
  rw [propagated.tally, ← statistics_turned solver decision decisions]
  rfl

theorem Retreats.tally (run : Retreats turns decisions solver found after)
    (stranded : Stranded problem decisions solver) (owes : solver.statistics.tally.Owes decisions) :
    if found then after.statistics.tally.Settles after.decisions
    else after.statistics.tally.Owes [] := by
  induction run with
  | exhausted => exact owes
  | turned fresh done =>
      obtain ⟨literal, conflict, next, again, trying, propagated⟩ := stranded.exists_turn fresh
      cases done.symm.trans again
      have kept := propagated.continues.decisions.trans trying.decisions
      rw [if_pos rfl, kept, propagated.tally_of_turned]
      exact owes.turned fresh
  | failed fresh done _ ih =>
      obtain ⟨literal, conflict, next, again, trying, propagated⟩ := stranded.exists_turn fresh
      cases done.symm.trans again
      apply ih (trying.stranded propagated)
      rw [propagated.tally_of_turned]
      exact owes.failed fresh
  | closed flipped done _ ih =>
      obtain ⟨again, outside⟩ := stranded.exists_abandon flipped
      cases done.symm.trans again
      apply ih outside
      rw [statistics_closed]
      exact owes.closed flipped

private theorem Searching.tally_of_branch (searching : Searching problem solver)
    (open_ : solver.clauses.allSatisfied solver.model = false) {var : Var}
    (choice : solver.model.firstUnset? = some var)
    (branched : solver.branch var = .ok (none, after))
    (settles : solver.statistics.tally.Settles solver.decisions) :
    after.statistics.tally.Settles after.decisions := by
  obtain ⟨literal, journal, trying, propagated⟩ := searching.of_branch open_ choice branched
  rw [propagated.continues.decisions.trans trying.decisions, propagated.tally]
  exact settles.decided rfl (solver.level + 1)

private theorem Searching.tally_of_flipLast (searching : Searching problem solver)
    (deadEnd : DeadEnd solver elapsed failed)
    (settles : solver.statistics.tally.Settles solver.decisions)
    (flipped : failed.flipLast = .ok (found, after)) :
    if found then after.statistics.tally.Settles after.decisions
    else after.statistics.tally.Owes [] := by
  obtain ⟨var, literal, journal, reason, trying, propagated⟩ := searching.of_deadEnd deadEnd
  have kept := propagated.continues.decisions.trans trying.decisions
  obtain ⟨turns, run⟩ := exists_retreats flipped
  apply run.tally (searching.stranded deadEnd).counted
  change Tally.Owes _ failed.decisions
  rw [kept]
  exact settles.stranded rfl (solver.level + 1) propagated.tally

private theorem Round.settles (round : Round clock origin current) (resting : origin.Resting) :
    current.statistics.tally.Settles current.decisions := by
  induction round with
  | first begun =>
      have rooting := (resting.begins_continued begun).2.2
      rw [rooting.tally_eq, rooting.decisions]
      exact ⟨rfl, Nat.le_refl 0, Nat.le_refl 0⟩
  | next round done ih =>
      have searching := round.searching resting
      cases takes_of_step done with
      | branch _ open_ choice branched => exact searching.tally_of_branch open_ choice branched ih
      | turn deadEnd flipped => exact searching.tally_of_flipLast deadEnd ih flipped

/-! ## The counters at the end -/

private theorem Halts.settles (halts : Halts clock origin status stopped) (resting : origin.Resting)
    (undecided : status ≠ .unsat) : stopped.statistics.tally.Settles stopped.decisions := by
  cases halts with
  | atStart begun =>
      cases empty : origin.hasEmptyClause with
      | true =>
          cases begun.symm.trans (resting.begin_of_empty empty)
          exact absurd rfl undecided
      | false => exact absurd (resting.begins begun empty).1 undecided
  | inRound round done =>
      have settles := round.settles resting
      cases takes_of_step done with
      | limit => exact settles
      | model => exact settles
      | refute => exact absurd rfl undecided

private theorem Halts.conflicts_eq (halts : Halts clock origin .unsat stopped)
    (resting : origin.Resting)
    (nonempty : origin.hasEmptyClause = false) :
    stopped.statistics.conflicts = stopped.statistics.decisions + 1 ∧
      stopped.statistics.backtracks ≤ stopped.statistics.decisions := by
  cases halts with
  | atStart begun =>
      have tally := (resting.begins begun nonempty).2.tally_eq
      obtain ⟨decisions, conflicts, backtracks, -⟩ := Tally.mk.inj tally
      rw [decisions, conflicts, backtracks]
      exact ⟨rfl, Nat.le_refl 0⟩
  | inRound round done =>
      cases takes_of_step done with
      | refute deadEnd flipped =>
          have owes := (round.searching resting).tally_of_flipLast deadEnd (round.settles resting)
            flipped
          exact ⟨owes.decisions_eq.symm, owes.backtracks_le_decisions⟩

private theorem Halts.backtracks_le (halts : Halts clock origin status stopped)
    (resting : origin.Resting) :
    stopped.statistics.backtracks ≤ stopped.statistics.decisions ∧
      stopped.statistics.backtracks ≤ stopped.statistics.conflicts := by
  by_cases refuted : status = .unsat
  · subst refuted
    rcases halts.outcome resting with ⟨-, -, rfl⟩ | ⟨nonempty, -⟩
    · exact ⟨Nat.le_refl 0, Nat.le_refl 0⟩
    · obtain ⟨balance, less⟩ := halts.conflicts_eq resting nonempty
      exact ⟨less, by omega⟩
  · obtain ⟨balance, -, less⟩ := halts.settles resting refuted
    have paid : stopped.statistics.decisions = stopped.statistics.conflicts + _ := balance
    change stopped.statistics.backtracks ≤ stopped.statistics.conflicts at less
    exact ⟨by omega, less⟩

private theorem Searching.countP_openings (searching : Searching problem solver)
    (sign : Bool → Bool) :
    (Trail.openings solver.trail.entries solver.level).countP (sign ·.positive) =
      solver.decisions.countP fun decision => sign (!decision.flipped) := by
  have signs := congrArg (List.countP fun opening => sign opening.2) searching.layered.openings_eq
  rw [List.countP_map, List.countP_map, List.countP_reverse] at signs
  rw [searching.depth]
  exact signs

/-- The counters at the end of a search, against its answer and the trail that it leaves. -/
theorem solve_accounts (reached : Reachable solver) (clock : Clock) :
    ∃ status final, solver.solve clock = .ok (status, final) ∧
      (status = .unsat → solver.hasEmptyClause = false →
        final.statistics.conflicts = final.statistics.decisions + 1) ∧
      (status ≠ .unsat →
        final.statistics.decisions = final.statistics.conflicts +
          (Trail.openings final.trail.entries final.level).countP (·.positive) ∧
        (Trail.openings final.trail.entries final.level).countP (!·.positive) ≤
          final.statistics.backtracks) ∧
      final.statistics.backtracks ≤ final.statistics.decisions ∧
      final.statistics.backtracks ≤ final.statistics.conflicts := by
  have resting := reached.resting
  obtain ⟨status, stopped, done, halts, answers⟩ := resting.exists_halts clock
  refine ⟨status, _, done, ?_, ?_, halts.backtracks_le resting⟩
  · rintro rfl nonempty
    exact (halts.conflicts_eq resting nonempty).1
  · intro undecided
    have searching := answers.searching undecided
    have settles := halts.settles resting undecided
    have positive := searching.countP_openings id
    have negative := searching.countP_openings not
    simp only [id_eq, Bool.not_not] at positive negative
    rw [positive, negative]
    exact ⟨settles.decisions_eq, settles.turned_le⟩

/-- Two decisions against one conflict and one level that begins with a positive literal. The other
level begins with a turned decision, and one backtrack brought that about. -/
theorem solve_accounts_turned :
    ∃ solver final : Solver, Reachable solver ∧ solver.solve Clock.stopped = .ok (.sat, final) ∧
      final.statistics.tally = ⟨2, 1, 1, 2⟩ ∧
      (Trail.openings final.trail.entries final.level).map (·.positive) = [false, true] ∧
      final.statistics.decisions = final.statistics.conflicts +
        (Trail.openings final.trail.entries final.level).countP (·.positive) ∧
      (Trail.openings final.trail.entries final.level).countP (!·.positive) ≤
        final.statistics.backtracks := by
  let commands : List Command :=
    [.addClause #[⟨1, by decide⟩, ⟨2, by decide⟩], .addClause #[⟨1, by decide⟩, ⟨3, by decide⟩],
      .addClause #[⟨2, by decide⟩, ⟨4, by decide⟩]]
  have computed : ((run Clock.stopped {} commands).toOption.bind fun solver =>
      (solver.solve Clock.stopped).toOption.map fun result =>
        (result.1, result.2.statistics.tally,
          (Trail.openings result.2.trail.entries result.2.level).map (·.positive))) =
      some (.sat, ⟨2, 1, 1, 2⟩, [false, true]) := by
    decide +kernel
  obtain ⟨solver, reached, shape⟩ := exists_reachable computed
  obtain ⟨status, final, solved, -, balance, -⟩ := solve_accounts reached Clock.stopped
  simp only [solved, Except.toOption, Option.map_some, Option.some.injEq, Prod.mk.injEq] at shape
  obtain ⟨rfl, tally, signs⟩ := shape
  exact ⟨solver, final, reached, solved, tally, signs, balance (by simp)⟩

end Solver

end Dpll
