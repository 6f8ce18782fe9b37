import Dpll.Proofs.Consequences

/-!
# Undoing restores

Requests that keep to levels above the one of a solver do nothing to what was made true at that level
or below it. They may move watches, leave conflicts behind and clauses false in all literals, but all of
this concerns entries of higher levels (`Solver.Raised`). Undoing these levels therefore gives back the
entries and the values of the solver, and the watch invariant with them although no watch moves back.
-/

set_option autoImplicit false

namespace Dpll

/-- The request undoes nothing of the level or below it, and leaves the formula as it is. -/
def Command.StaysAbove (level : Nat) : Command → Prop
  | .createVariables _ => True
  | .decide _ => True
  | .assign _ => True
  | .backtrackTo target => level < target
  | .addClause _ => False
  | .solve => False

namespace Solver

variable {base solver wide after : Solver} {literal : Literal} {command : Command} {clock : Clock}

/-- A solver that has opened levels over those of another one. Below them the entries are the same and
the guard holds, whatever became of the levels above. -/
structure Raised (base solver : Solver) : Prop extends Resting solver where
  formula : solver.formula = base.formula
  deeper : base.level < solver.level
  entries : solver.trail.entries.filter (·.level < base.level + 1) = base.trail.entries
  guarded : solver.clauses.Guarded solver.trail.entries (base.level + 1) 0
  room : base.statistics.variableCount ≤ solver.statistics.variableCount

namespace Raised

theorem record (raised : Raised base solver) (event : Event) : Raised base (solver.record event) :=
  { raised with toResting := raised.toResting.transfer rfl rfl rfl rfl }

theorem widened {count : Nat} (raised : Raised base solver) (widened : Widened solver count wide) :
    Raised base wide where
  toResting := widened.resting raised.idle
  formula := widened.formula.trans raised.formula
  deeper := by
    change base.level < wide.trail.level
    rw [widened.level]
    exact raised.deeper
  entries := by
    rw [widened.entries]
    exact raised.entries
  guarded := widened.guarded raised.guarded
  room := by
    rw [widened.statistics]
    exact Nat.le_trans raised.room (Nat.le_max_left ..)

/-- Propagation adds entries of the current level only, and a conflict spoils the guard of no other. -/
theorem propagated {conflict : Option Conflict} (raised : Raised base solver)
    (propagated : Propagated (solver.pushed literal) (base.level + 1) conflict after) :
    Raised base after := by
  have high : base.level + 1 ≤ solver.level := raised.deeper
  exact {
    toResting := propagated.resting
    formula := propagated.continues.formula.trans raised.formula
    deeper := by
      change base.level < after.trail.level
      rw [propagated.continues.level]
      exact raised.deeper
    entries := by
      rw [propagated.growth.filter_of_le high]
      change (⟨literal, solver.level⟩ :: solver.trail.entries).filter _ = _
      rw [List.filter_cons_of_neg]
      · exact raised.entries
      · simpa using high
    guarded := propagated.guardedBelow.mono (Nat.le_min.mpr ⟨Nat.le_refl _, high⟩)
    room := by
      rw [propagated.continues.variableCount]
      exact raised.room }

theorem exists_assign (raised : Raised base solver) (fits : literal.var + 1 < variableLimit) :
    ∃ conflict after, solver.assign literal = .ok (conflict, after) ∧ Raised base after := by
  obtain ⟨wide, conflict, after, widened, done, assigned⟩ :=
    raised.toResting.exists_assign raised.guarded fits
  have wideRaised := raised.widened widened
  refine ⟨conflict, after, done, ?_⟩
  unfold Assigned at assigned
  split at assigned
  · exact assigned.2 ▸ wideRaised
  · rw [assigned.2]
    exact wideRaised.record _
  · exact wideRaised.propagated assigned

theorem deepened (raised : Raised base solver) (literal : Literal) :
    Raised base (solver.deepened literal) :=
  { raised with
    toResting := raised.toResting.deepened literal
    deeper := Nat.lt_succ_of_lt raised.deeper }

theorem backtrackTo (raised : Raised base solver) {target : Nat} (above : base.level < target) :
    Raised base (solver.backtrackTo target) := by
  have entries : (solver.backtrackTo target).trail.entries =
      solver.trail.entries.filter (·.level < target) := by
    change (solver.popTo target).trail.entries = _
    rw [trail_popTo, Trail.entries_popTo raised.faithful]
  exact {
    toResting := raised.toResting.backtrackTo target
    formula := (formula_popTo solver target).trans raised.formula
    deeper := by
      change base.level < (solver.popTo target).trail.level
      rw [trail_popTo]
      exact Nat.lt_min.mpr ⟨raised.deeper, above⟩
    entries := by
      rw [entries, List.filter_filter, ← raised.entries]
      apply List.filter_congr
      intro entry _
      rw [← Bool.decide_and]
      have lower : entry.level < base.level + 1 ∧ entry.level < target ↔
          entry.level < base.level + 1 := by omega
      simp only [lower]
    guarded := by
      rw [entries]
      change (solver.popTo target).clauses.Guarded _ _ 0
      rw [clauses_popTo]
      exact raised.guarded.undo target
    room := by
      change _ ≤ (solver.popTo target).statistics.variableCount
      rw [statistics_popTo]
      exact raised.room }

/-! ## Requests above a level -/

theorem exists_perform (raised : Raised base solver) (admissible : command.Admissible)
    (above : command.StaysAbove base.level) (clock : Clock) :
    ∃ reply after, solver.perform clock command = .ok (reply, after) ∧ Raised base after := by
  cases command with
  | createVariables count =>
      obtain ⟨after, done, widened⟩ := raised.toIntact.exists_ensureVariables admissible
      exact ⟨.done, after, by simp only [perform, done], raised.widened widened⟩
  | decide literal =>
      obtain ⟨conflict, after, done, kept⟩ := (raised.deepened literal).exists_assign admissible
      have decided : solver.decide literal = .ok (conflict, after) := done
      exact ⟨.propagated conflict, after, by simp only [perform, decided], kept⟩
  | assign literal =>
      obtain ⟨conflict, after, done, kept⟩ := raised.exists_assign admissible
      exact ⟨.propagated conflict, after, by simp only [perform, done], kept⟩
  | backtrackTo target =>
      refine ⟨.done, solver.backtrackTo target, ?_, raised.backtrackTo above⟩
      simp only [perform, raised.faithful.checkUndo]
  | addClause literals => exact above.elim
  | solve => exact above.elim

theorem exists_run {commands : List Command} (raised : Raised base solver)
    (admissible : ∀ command ∈ commands, command.Admissible)
    (above : ∀ command ∈ commands, command.StaysAbove base.level) (clock : Clock) :
    ∃ after, solver.run clock commands = .ok after ∧ Raised base after := by
  induction commands generalizing solver with
  | nil => exact ⟨solver, rfl, raised⟩
  | cons command rest ih =>
      obtain ⟨fits, restFit⟩ := List.forall_mem_cons.mp admissible
      obtain ⟨high, restHigh⟩ := List.forall_mem_cons.mp above
      obtain ⟨reply, next, done, kept⟩ := raised.exists_perform fits high clock
      obtain ⟨after, finished, final⟩ := ih kept restFit restHigh
      exact ⟨after, by simp only [run, done, finished], final⟩

end Raised

/-- The first decision opens the level above. -/
theorem Settled.raised_deepened (settled : solver.Settled) (literal : Literal) :
    Raised solver (solver.deepened literal) where
  toResting := settled.toResting.deepened literal
  formula := rfl
  deeper := Nat.lt_succ_self _
  entries := by
    change solver.trail.entries.filter _ = solver.trail.entries
    apply List.filter_eq_self.mpr
    intro entry member
    exact decide_eq_true (Nat.lt_succ_of_le (settled.faithful.bounded entry member))
  guarded := settled.guarded _
  room := Nat.le_refl _

/-! ## Going back -/

/-- A solver at rest that has opened a level over another one and made nothing true there. It may have
more variables and watch other positions. -/
structure Restores (base solver : Solver) : Prop extends Resting solver where
  entries : solver.trail.entries = base.trail.entries
  values : solver.model = base.model ++ Array.replicate
    (solver.statistics.variableCount - base.statistics.variableCount) .unset
  formula : solver.formula = base.formula
  level : solver.level = base.level + 1
  invariant : solver.WatchInvariant

private theorem model_eq_append (intact : base.Intact) (grown : solver.Intact)
    (entries : solver.trail.entries = base.trail.entries)
    (room : base.statistics.variableCount ≤ solver.statistics.variableCount) :
    solver.model = base.model ++ Array.replicate
      (solver.statistics.variableCount - base.statistics.variableCount) .unset := by
  have size : base.model.size = base.statistics.variableCount := intact.sized
  have grownSize : solver.model.size = solver.statistics.variableCount := grown.sized
  have padded (literal : Literal) : literal.value (base.model ++ Array.replicate
      (solver.statistics.variableCount - base.statistics.variableCount) .unset) =
        literal.value base.model := by
    simp only [Literal.value, Valuation.value_append_unset]
  have known (literal : Literal) :
      literal.value solver.model = .holds ↔ literal.value base.model = .holds := by
    rw [show solver.model = solver.trail.values from rfl, grown.faithful.holds_iff, entries]
    exact (intact.faithful.holds_iff literal).symm
  apply Valuation.Within.antisymm
  · simp only [Array.size_append, Array.size_replicate]
    omega
  · rw [grownSize]
    exact grown.small
  · intro literal true_
    rw [padded]
    exact (known literal).mp true_
  · intro literal true_
    rw [padded] at true_
    exact (known literal).mpr true_

private theorem Raised.restores (raised : Raised base solver) (intact : base.Intact) :
    Restores base (solver.backtrackTo (base.level + 1)) := by
  have undone := raised.backtrackTo (Nat.lt_succ_self base.level)
  have entries : (solver.backtrackTo (base.level + 1)).trail.entries = base.trail.entries := by
    change (solver.popTo (base.level + 1)).trail.entries = _
    rw [trail_popTo, Trail.entries_popTo raised.faithful]
    exact raised.entries
  exact {
    toResting := undone.toResting
    entries := entries
    values := model_eq_append intact undone.toIntact entries undone.room
    formula := undone.formula
    level := by
      change (solver.popTo (base.level + 1)).trail.level = _
      rw [trail_popTo]
      exact Nat.min_eq_right raised.deeper
    invariant := undone.toResting.settled_iff.mp
      (raised.toResting.settled_backtrackTo raised.guarded (Nat.le_refl _)) }

/-- From a solver that keeps the watch invariant, a decision and any requests above its level are carried
out, with or without conflicts. Undoing the level of the decision restores the solver. -/
theorem backtrackTo_restores (resting : solver.Resting) (invariant : solver.WatchInvariant)
    (literal : Literal) (commands : List Command)
    (admissible : ∀ command ∈ .decide literal :: commands, command.Admissible)
    (above : ∀ command ∈ commands, command.StaysAbove solver.level) (clock : Clock) :
    ∃ raised restored, solver.run clock (.decide literal :: commands) = .ok raised ∧
      raised.perform clock (.backtrackTo (solver.level + 1)) = .ok (.done, restored) ∧
      Restores solver restored := by
  have settled := resting.settled_iff.mpr invariant
  obtain ⟨fits, restFit⟩ := List.forall_mem_cons.mp admissible
  obtain ⟨conflict, decided, done, kept⟩ :=
    (settled.raised_deepened literal).exists_assign fits
  have first : solver.decide literal = .ok (conflict, decided) := done
  obtain ⟨raised, finished, final⟩ := kept.exists_run restFit above clock
  refine ⟨raised, raised.backtrackTo (solver.level + 1), ?_, ?_, final.restores resting.toIntact⟩
  · simp only [run, perform, first, finished]
  · simp only [perform, final.faithful.checkUndo]

/-- The decision meets a conflict that nobody undoes, further requests add variables and go back to the
level of a later decision, and in the end the first clause watches other positions. -/
theorem backtrackTo_restores_after_conflict :
    let literal : Literal := ⟨1, by decide⟩
    let commands : List Command :=
      [.assign ⟨7, by decide⟩, .createVariables 8, .decide ⟨12, by decide⟩, .decide ⟨5, by decide⟩,
        .backtrackTo 3, .assign ⟨14, by decide⟩]
    ∃ solver raised restored, solver.Resting ∧ solver.WatchInvariant ∧
      (∀ command ∈ .decide literal :: commands, command.Admissible) ∧
      (∀ command ∈ commands, command.StaysAbove solver.level) ∧
      (solver.decide literal).toOption.map Prod.fst = some (some (.clause ⟨2⟩)) ∧
      solver.run Clock.stopped (.decide literal :: commands) = .ok raised ∧
      raised.perform Clock.stopped (.backtrackTo (solver.level + 1)) = .ok (.done, restored) ∧
      restored.clauses.map (·.first.val) ≠ solver.clauses.map (·.first.val) ∧
      Restores solver restored := by
  intro literal commands
  let setup : List Command :=
    [.addClause #[⟨0, by decide⟩, ⟨2, by decide⟩, ⟨4, by decide⟩, ⟨6, by decide⟩],
      .addClause #[⟨0, by decide⟩, ⟨3, by decide⟩], .addClause #[⟨0, by decide⟩, ⟨2, by decide⟩],
      .addClause #[⟨9, by decide⟩, ⟨10, by decide⟩], .decide ⟨8, by decide⟩]
  have computed : ((follow? Clock.stopped {} false setup).map fun result =>
      (result.1.level, result.2, result.1.clauses.map (·.first.val),
        (result.1.decide literal).toOption.map Prod.fst)) =
      some (1, false, #[0, 0, 0, 0], some (some (.clause ⟨2⟩))) := by
    decide +kernel
  have moved : ((follow? Clock.stopped {} false setup).bind fun result =>
      (result.1.run Clock.stopped (.decide literal :: commands)).toOption.bind fun raised =>
        (raised.perform Clock.stopped (.backtrackTo (result.1.level + 1))).toOption.map
          fun undone => undone.2.clauses.map (·.first.val)) = some #[1, 0, 0, 0] := by
    decide +kernel
  obtain ⟨⟨solver, flag⟩, followed, same⟩ := Option.map_eq_some_iff.mp computed
  obtain ⟨level, rest⟩ := Prod.mk.inj same
  obtain ⟨rfl, rest⟩ := Prod.mk.inj rest
  obtain ⟨first, conflict⟩ := Prod.mk.inj rest
  have disciplined := (Disciplined.start {} {}).follow? followed
  have resting := disciplined.reachable.resting
  have invariant := resting.settled_iff.mp disciplined.guardedAfter
  have admissible : ∀ command ∈ .decide literal :: commands, command.Admissible := by
    simp [commands, literal, Command.Admissible, Literal.var, variableLimit_eq]
  have above : ∀ command ∈ commands, command.StaysAbove solver.level := by
    rw [level]
    simp [commands, Command.StaysAbove]
  obtain ⟨raised, restored, done, undone, restores⟩ :=
    backtrackTo_restores resting invariant literal commands admissible above Clock.stopped
  refine ⟨solver, raised, restored, resting, invariant, admissible, above, conflict, done, undone, ?_,
    restores⟩
  simp only [followed, done, undone, Except.toOption, Option.bind_some, Option.map_some,
    Option.some.injEq] at moved
  rw [moved, first]
  decide

end Solver

end Dpll
