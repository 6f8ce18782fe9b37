import Dpll.Proofs.Rounds

/-!
# What a round does

A round stops, opens a decision that meets no conflict, or comes to a dead end and undoes decisions
until one can be turned. `Solver.Takes` lists these cases once. The undoing is a loop of its own, and
`Solver.Retreats` is a run of it with the number of its turns: a decision of which both literals have
failed is closed, and the negative literal of any other is tried.
-/

set_option autoImplicit false

namespace Dpll.Solver

variable {problem : Problem} {origin solver failed next after : Solver} {elapsed turns : Nat}
  {decision : Decision} {decisions outer : List Decision} {found : Bool} {step : Step}

/-! ## The cases of a step -/

/-- The states that a round leaves by undoing decisions: its branch met a conflict, or it found no
variable to branch on. -/
inductive DeadEnd (solver : Solver) (elapsed : Nat) : Solver → Prop where
  | conflict {var : Var} {reason : Conflict} {failed : Solver} :
      solver.limitReached elapsed = false → solver.clauses.allSatisfied solver.model = false →
      solver.model.firstUnset? = some var → solver.branch var = .ok (some reason, failed) →
      DeadEnd solver elapsed failed
  | complete :
      solver.limitReached elapsed = false → solver.clauses.allSatisfied solver.model = false →
      solver.model.firstUnset? = none → DeadEnd solver elapsed solver

inductive Takes (solver : Solver) (elapsed : Nat) : Step → Prop where
  | limit : solver.limitReached elapsed = true →
      Takes solver elapsed (.finished .unknown (solver.record .limitReached))
  | model : solver.limitReached elapsed = false →
      solver.clauses.allSatisfied solver.model = true →
      Takes solver elapsed (.finished .sat solver)
  | branch {var : Var} {after : Solver} : solver.limitReached elapsed = false →
      solver.clauses.allSatisfied solver.model = false → solver.model.firstUnset? = some var →
      solver.branch var = .ok (none, after) → Takes solver elapsed (.continued after)
  | turn {failed after : Solver} : DeadEnd solver elapsed failed →
      failed.flipLast = .ok (true, after) → Takes solver elapsed (.continued after)
  | refute {failed after : Solver} : DeadEnd solver elapsed failed →
      failed.flipLast = .ok (false, after) → Takes solver elapsed (.finished .unsat after)

private theorem DeadEnd.takes (deadEnd : DeadEnd solver elapsed failed)
    (done : failed.retry = .ok step) :
    Takes solver elapsed step := by
  unfold retry at done
  split at done
  · cases done
  · next flipped =>
    cases done
    exact .turn deadEnd flipped
  · next flipped =>
    cases done
    exact .refute deadEnd flipped

theorem takes_of_step (done : solver.step elapsed = .ok step) : Takes solver elapsed step := by
  unfold Solver.step at done
  split at done
  · next limit =>
    cases done
    exact .limit limit
  · next early =>
    have unlimited : solver.limitReached elapsed = false := Bool.eq_false_iff.mpr early
    split at done
    · next satisfied =>
      cases done
      exact .model unlimited satisfied
    · next open_ =>
      have unsatisfied : solver.clauses.allSatisfied solver.model = false :=
        Bool.eq_false_iff.mpr open_
      unfold advance at done
      split at done
      · next none_ => exact DeadEnd.takes (.complete unlimited unsatisfied none_) done
      · next var choice =>
        split at done
        · cases done
        · next branched =>
          cases done
          exact .branch unlimited unsatisfied choice branched
        · next branched =>
          exact DeadEnd.takes (.conflict unlimited unsatisfied choice branched) done

theorem Searching.unsatisfied (searching : Searching problem solver)
    (open_ : solver.clauses.allSatisfied solver.model = false) :
    PlainSearch.allSatisfied problem.formula solver.model = false := by
  rw [← searching.formula, ← allSatisfied_eq]
  exact open_

/-- A branch on the lowest undecided variable tries the positive literal of a new decision. -/
theorem Searching.of_branch (searching : Searching problem solver)
    (open_ : solver.clauses.allSatisfied solver.model = false) {var : Var}
    (choice : solver.model.firstUnset? = some var) {conflict : Option Conflict}
    (branched : solver.branch var = .ok (conflict, after)) :
    ∃ literal journal,
      Trying problem { var, level := solver.level + 1, flipped := false } solver.decisions literal
        (solver.opened var journal) ∧
      Propagated ((solver.opened var journal).pushed literal)
        ((solver.opened var journal).level + 1) conflict after := by
  obtain ⟨other, literal, journal, met, next, lowest, done, trying, propagated⟩ :=
    searching.exists_branch (searching.unsatisfied open_)
  cases choice.symm.trans lowest
  cases branched.symm.trans done
  exact ⟨literal, journal, trying, propagated⟩

/-- Only a conflict of the branch leads to a dead end, since an open clause leaves a variable
undecided. -/
theorem Searching.of_deadEnd (searching : Searching problem solver)
    (deadEnd : DeadEnd solver elapsed failed) :
    ∃ var literal journal reason,
      Trying problem { var, level := solver.level + 1, flipped := false } solver.decisions literal
        (solver.opened var journal) ∧
      Propagated ((solver.opened var journal).pushed literal)
        ((solver.opened var journal).level + 1) (some reason) failed := by
  cases deadEnd with
  | @conflict var reason _ _ open_ choice branched =>
      obtain ⟨literal, journal, trying, propagated⟩ := searching.of_branch open_ choice branched
      exact ⟨var, literal, journal, reason, trying, propagated⟩
  | complete _ open_ none_ =>
      obtain ⟨var, choice⟩ := PlainSearch.exists_firstUnset? searching.fits searching.stable
        (searching.unsatisfied open_)
      rw [none_] at choice
      cases choice

theorem Searching.stranded (searching : Searching problem solver)
    (deadEnd : DeadEnd solver elapsed failed) : Stranded problem failed.decisions failed := by
  obtain ⟨var, literal, journal, reason, trying, propagated⟩ := searching.of_deadEnd deadEnd
  have kept := propagated.continues.decisions.trans trying.decisions
  rw [kept]
  exact trying.stranded propagated

/-! ## Undoing decisions, turn by turn -/

/-- A run of the loop that undoes decisions. It ends when a literal is tried without conflict, or
when no decision is left. A decision whose negative literal fails stays to be closed. -/
inductive Retreats : Nat → List Decision → Solver → Bool → Solver → Prop where
  | exhausted (solver : Solver) : Retreats 0 [] solver false solver
  | turned {decision : Decision} {outer : List Decision} {solver after : Solver} :
      decision.flipped = false → solver.turn decision outer = .ok (none, after) →
      Retreats 1 (decision :: outer) solver true after
  | failed {turns : Nat} {decision : Decision} {outer : List Decision} {reason : Conflict}
      {found : Bool} {solver next after : Solver} :
      decision.flipped = false → solver.turn decision outer = .ok (some reason, next) →
      Retreats turns ({ decision with flipped := true } :: outer) next found after →
      Retreats (turns + 1) (decision :: outer) solver found after
  | closed {turns : Nat} {decision : Decision} {outer : List Decision} {found : Bool}
      {solver next after : Solver} :
      decision.flipped = true → solver.abandon decision outer = .ok next →
      Retreats turns outer next found after →
      Retreats (turns + 1) (decision :: outer) solver found after

theorem exists_retreats (done : retreat decisions solver = .ok (found, after)) :
    ∃ turns, Retreats turns decisions solver found after := by
  induction decisions generalizing solver with
  | nil =>
      cases done
      exact ⟨0, .exhausted _⟩
  | cons decision outer ih =>
      unfold retreat at done
      split at done
      · next flipped =>
        split at done
        · cases done
        · next abandoned =>
          obtain ⟨turns, run⟩ := ih done
          exact ⟨turns + 1, .closed flipped abandoned run⟩
      · next open_ =>
        have fresh : decision.flipped = false := Bool.eq_false_iff.mpr open_
        split at done
        · cases done
        · next turned =>
          cases done
          exact ⟨1, .turned fresh turned⟩
        · next turned =>
          split at done
          · cases done
          · next abandoned =>
            obtain ⟨turns, run⟩ := ih done
            exact ⟨turns + 1 + 1, .failed fresh turned (.closed rfl abandoned run)⟩

/-- Each decision is closed at most once, and turned at most once before if it was not yet. -/
theorem Retreats.turns_le (run : Retreats turns decisions solver found after) :
    turns ≤ decisions.length + decisions.countP (!·.flipped) := by
  induction run with
  | exhausted => exact Nat.le_refl 0
  | turned fresh =>
      simp only [List.length_cons]
      omega
  | failed fresh _ _ ih =>
      simp only [List.length_cons, Bool.not_true, Bool.false_eq_true, not_false_eq_true,
        List.countP_cons_of_neg] at ih
      simp only [List.length_cons, fresh, Bool.not_false, List.countP_cons_of_pos]
      omega
  | closed flipped _ _ ih =>
      simp only [List.length_cons, flipped, Bool.not_true, Bool.false_eq_true, not_false_eq_true,
        List.countP_cons_of_neg]
      omega

theorem Stranded.exists_flipLast (stranded : Stranded problem solver.decisions solver) :
    ∃ turns found after, solver.flipLast = .ok (found, after) ∧
      Retreats turns solver.decisions solver.counted found after := by
  obtain ⟨found, after, done, -⟩ := stranded.counted.exists_retreat
  obtain ⟨turns, run⟩ := exists_retreats done
  exact ⟨turns, found, after, done, run⟩

end Dpll.Solver
