import Dpll.Engine.Search
import Dpll.Proofs.Layers
import Dpll.Proofs.PlainSearch
import Dpll.Proofs.Watching

/-!
# Steps of the search

A search goes from one settled state to the next. `Solver.Searching` is the invariant of such a state:
its trail lies in layers over the open decisions, and what was spent so far together with what the open
branches come to is the whole of the plain search. `Solver.Stranded` is the state after a conflict,
where nothing below the given decisions has been tried yet. Each step of the search is described by
how it leads from one to the other; the run of the search follows by induction, and the number of
decisions of the plain search bounds its length.
-/

set_option autoImplicit false

namespace Dpll

/-- What a solver was asked to solve. No step of a search changes it. -/
structure Problem where
  options : Options
  hasEmptyClause : Bool
  formula : Formula
  variableCount : Nat

def Solver.problem (solver : Solver) : Problem :=
  { options := solver.options
    hasEmptyClause := solver.hasEmptyClause
    formula := solver.formula
    variableCount := solver.statistics.variableCount }

@[simp] theorem Solver.problem_popTo (solver : Solver) (level : Nat) :
    (solver.popTo level).problem = solver.problem := by
  simp [problem]

/-- The counters of a search that has not found a model yet. -/
def Statistics.spent (statistics : Statistics) : PlainSearch.Result :=
  { model := none
    decisions := statistics.decisions
    conflicts := statistics.conflicts
    maxLevel := statistics.maxLevel }

/-- What was spent so far, the result of the current branch and the open branches outside it make up
the whole of the plain search. -/
def Problem.Balanced (problem : Problem) (statistics : Statistics) (decisions : List Decision)
    (entries : List Entry) (result : PlainSearch.Result) : Prop :=
  PlainSearch.both statistics.spent
      (PlainSearch.resume problem.formula problem.variableCount decisions entries result) =
    PlainSearch.search problem.formula problem.variableCount

namespace Problem.Balanced

variable {problem : Problem} {statistics later : Statistics} {decision : Decision}
  {decisions outer : List Decision} {entries grown : List Entry} {cost result : PlainSearch.Result}

private theorem spend
    (balanced : problem.Balanced statistics decisions entries (PlainSearch.both cost result))
    (counted : later.spent = PlainSearch.both statistics.spent cost) :
    problem.Balanced later decisions entries result := by
  unfold Balanced at balanced ⊢
  rw [counted, PlainSearch.both_assoc, ← PlainSearch.resume_both]
  exact balanced

/-- Entries that the innermost decision brought about are of no account to the branches outside. -/
theorem regrow (balanced : problem.Balanced statistics (decision :: outer) entries result)
    (same : entries.filter (·.level < decision.level) = grown.filter (·.level < decision.level)) :
    problem.Balanced statistics (decision :: outer) grown result := by
  unfold Balanced at balanced ⊢
  simp only [PlainSearch.resume] at balanced ⊢
  rw [← same]
  exact balanced

/-- The negative literal of a decision takes the place of the positive one that failed. -/
theorem turn (balanced : problem.Balanced statistics (decision :: outer) entries PlainSearch.dead)
    (fresh : decision.flipped = false)
    (same : entries.filter (·.level < decision.level) = grown.filter (·.level < decision.level)) :
    problem.Balanced statistics ({ decision with flipped := true } :: outer) grown
      (PlainSearch.searchFrom problem.formula decision.level
        ((Valuation.ofEntries problem.variableCount
          (entries.filter (·.level < decision.level))).setIfInBounds decision.var .fails)) := by
  unfold Balanced at balanced ⊢
  simp only [PlainSearch.resume, fresh, Bool.false_eq_true, ↓reduceIte] at balanced ⊢
  rw [← same, ← balanced]
  exact congrArg _ (congrArg _ (PlainSearch.both_dead _).symm)

/-- A decision is opened on its positive literal, and the negative one is left for later. -/
theorem branch (balanced : problem.Balanced statistics decisions entries
      (PlainSearch.fallback result (PlainSearch.searchFrom problem.formula decision.level
        ((Valuation.ofEntries problem.variableCount entries).setIfInBounds decision.var .fails))))
    (fresh : decision.flipped = false)
    (same : grown.filter (·.level < decision.level) = entries) :
    problem.Balanced statistics (decision :: decisions) grown result := by
  unfold Balanced at balanced ⊢
  simp only [PlainSearch.resume, fresh, Bool.false_eq_true, ↓reduceIte, same]
  exact balanced

theorem decisions_le (balanced : problem.Balanced statistics decisions entries result) :
    statistics.decisions ≤
      (PlainSearch.search problem.formula problem.variableCount).decisions := by
  rw [← balanced]
  exact Nat.le_add_right ..

theorem maxLevel_le (balanced : problem.Balanced statistics decisions entries result) :
    statistics.maxLevel ≤
      (PlainSearch.search problem.formula problem.variableCount).maxLevel := by
  rw [← balanced]
  exact Nat.le_max_left ..

end Problem.Balanced

namespace Solver

structure Searching (problem : Problem) (solver : Solver) : Prop extends Settled solver where
  same : solver.problem = problem
  layered : Layered problem.formula solver.decisions solver.trail.entries
  depth : solver.level = solver.decisions.length
  deep : solver.level ≤ solver.statistics.maxLevel
  balanced : problem.Balanced solver.statistics solver.decisions solver.trail.entries
    (PlainSearch.searchFrom problem.formula solver.level solver.model)

/-- A state of the search in which the entries have turned out to be a dead end. The guard holds below
the current level, which the conflict has not spoiled. -/
structure Stranded (problem : Problem) (decisions : List Decision) (solver : Solver) : Prop extends
    Resting solver where
  same : solver.problem = problem
  guarded : solver.clauses.Guarded solver.trail.entries solver.level 0
  layered : Layered problem.formula decisions solver.trail.entries
  excluded : problem.formula.Excludes solver.trail.entries
  depth : solver.level = decisions.length
  deep : solver.level ≤ solver.statistics.maxLevel
  balanced : problem.Balanced solver.statistics decisions solver.trail.entries PlainSearch.dead

structure Refuted (problem : Problem) (solver : Solver) : Prop extends Resting solver where
  same : solver.problem = problem
  excluded : problem.formula.Excludes []
  level : solver.level = 0
  spent : solver.statistics.spent = PlainSearch.search problem.formula problem.variableCount

structure Trying (problem : Problem) (decision : Decision) (outer : List Decision)
    (literal : Literal) (solver : Solver) : Prop extends Settled solver where
  same : solver.problem = problem
  decisions : solver.decisions = decision :: outer
  layered : Layered problem.formula outer solver.trail.entries
  opened : decision.level = outer.length + 1
  choice : decision.Choice problem.formula solver.trail.entries literal
  covered : solver.trail.Covers literal
  level : solver.level = decision.level
  deep : solver.level ≤ solver.statistics.maxLevel
  balanced : problem.Balanced solver.statistics (decision :: outer)
    (⟨literal, decision.level⟩ :: solver.trail.entries)
    (PlainSearch.searchFrom problem.formula decision.level (Formula.setTrue solver.model literal))

variable {problem : Problem} {before after solver : Solver} {decision : Decision}
  {decisions outer : List Decision} {literal : Literal}

theorem Intact.model_eq (intact : solver.Intact) : solver.model =
    Valuation.ofEntries solver.statistics.variableCount solver.trail.entries := by
  have read := intact.faithful.values_eq (intact.sized ▸ intact.small)
  rw [intact.sized] at read
  exact read

/-! ## Trying a literal -/

theorem Continues.problem_eq (continues : before.Continues after) :
    after.problem = before.problem := by
  simp only [Solver.problem, continues.options, continues.hasEmptyClause, continues.formula,
    continues.variableCount]

theorem Propagated.settled {bound : Nat} (propagated : Propagated before bound none after)
    (high : before.level < bound) : after.Settled where
  toResting := propagated.resting
  guarded _ := (propagated.guarded rfl).lift fun entry member =>
    Nat.lt_of_le_of_lt (propagated.resting.faithful.bounded entry member)
      (propagated.continues.level ▸ high)

/-- Propagation adds at most one conflict, at the current level, to what was spent. -/
theorem Propagated.spent {bound : Nat} {conflict : Option Conflict}
    (propagated : Propagated before bound conflict after)
    (deep : before.level ≤ before.statistics.maxLevel) :
    after.statistics.spent = if conflict.isSome then
      PlainSearch.both before.statistics.spent ⟨none, 0, 1, before.level⟩
      else before.statistics.spent := by
  have decisions : after.statistics.decisions = before.statistics.decisions := by
    rw [propagated.continues.statistics]
  have maxLevel : after.statistics.maxLevel = before.statistics.maxLevel := by
    rw [propagated.continues.statistics]
  have conflicts := propagated.conflicts
  unfold Statistics.spent
  rw [decisions, maxLevel, conflicts]
  cases conflict with
  | none => rfl
  | some reason =>
      have absorbed : max before.statistics.maxLevel before.level = before.statistics.maxLevel :=
        Nat.max_eq_left deep
      simp only [Option.isSome_some, ↓reduceIte, PlainSearch.both, absorbed, Nat.add_zero]

namespace Trying

variable {conflict : Option Conflict}

theorem free (trying : Trying problem decision outer literal solver) :
    literal.value solver.model = .unset := by
  refine trying.faithful.unset_iff.mpr fun entry member => ?_
  rw [trying.choice.var_eq]
  exact trying.choice.undecided entry member

theorem formula (trying : Trying problem decision outer literal solver) :
    solver.formula = problem.formula := congrArg Problem.formula trying.same

private theorem pushed_intact (trying : Trying problem decision outer literal solver) :
    (solver.pushed literal).Intact :=
  (trying.toResting.propagating (trying.guarded 0) trying.covered trying.free).toIntact

theorem growth (trying : Trying problem decision outer literal solver) {bound : Nat}
    (propagated : Propagated (solver.pushed literal) bound conflict after) :
    Growth problem.formula decision.level
      (⟨literal, decision.level⟩ :: solver.trail.entries) after.trail.entries := by
  have grown := propagated.growth
  rw [← trying.formula, ← trying.level]
  exact grown

/-- The plain search goes on from the propagated valuation, or fails where propagation does. -/
theorem searchFrom_eq (trying : Trying problem decision outer literal solver)
    (propagated : Propagated (solver.pushed literal) (solver.level + 1) conflict after) :
    PlainSearch.searchFrom problem.formula decision.level (Formula.setTrue solver.model literal) =
      if conflict.isSome then PlainSearch.failed decision.level
      else PlainSearch.searchFrom problem.formula decision.level after.model := by
  have intact := trying.pushed_intact
  have units : ∀ unit, [unit] ∈ (solver.pushed literal).formula →
      unit.value (solver.pushed literal).model = .holds := by
    intro unit member
    have old : ⟨unit, 0⟩ ∈ solver.trail.entries :=
      trying.layered.unit_mem (trying.formula ▸ member)
    exact intact.faithful.holds (.tail _ old : ⟨unit, 0⟩ ∈ (solver.pushed literal).trail.entries)
  have closure := propagated.saturate? intact
    (fun none_ => (none_ ▸ propagated).settled (Nat.lt_succ_self _)) units
  have fits := intact.fits
  have sameFormula : (solver.pushed literal).formula = problem.formula := trying.formula
  rw [sameFormula] at closure fits
  cases conflict with
  | none => exact PlainSearch.searchFrom_of_closure fits closure
  | some reason => exact PlainSearch.searchFrom_of_conflict closure

section Outcome

variable (trying : Trying problem decision outer literal solver)
  (propagated : Propagated (solver.pushed literal) (solver.level + 1) conflict after)

include trying propagated

private theorem problem_after : after.problem = problem :=
  propagated.continues.problem_eq.trans trying.same

private theorem level_after : after.level = decision.level :=
  Eq.trans propagated.continues.level trying.level

private theorem deep_after : after.level ≤ after.statistics.maxLevel := by
  rw [trying.level_after propagated, ← trying.level, propagated.continues.statistics]
  exact trying.deep

private theorem layered_after : Layered problem.formula (decision :: outer) after.trail.entries :=
  .layer trying.layered trying.opened trying.choice (trying.growth propagated)

/-- The branches outside see the same entries, since all that is new lies on the level of the
decision. -/
theorem balanced_after : problem.Balanced solver.statistics (decision :: outer) after.trail.entries
    (if conflict.isSome then PlainSearch.failed decision.level
      else PlainSearch.searchFrom problem.formula decision.level after.model) := by
  have below := trying.layered.level_lt trying.opened
  rw [← trying.searchFrom_eq propagated]
  refine trying.balanced.regrow ?_
  rw [(trying.growth propagated).filter_eq below,
    (Growth.base : Growth problem.formula _ _ _).filter_eq below]

end Outcome

theorem searching (trying : Trying problem decision outer literal solver)
    (propagated : Propagated (solver.pushed literal) (solver.level + 1) none after) :
    Searching problem after := by
  have level := trying.level_after propagated
  have kept : after.decisions = decision :: outer :=
    propagated.continues.decisions.trans trying.decisions
  exact {
    toSettled := propagated.settled (Nat.lt_succ_self _)
    same := trying.problem_after propagated
    layered := kept ▸ trying.layered_after propagated
    depth := by rw [level, kept, trying.opened, List.length_cons]
    deep := trying.deep_after propagated
    balanced := by
      rw [kept, level]
      unfold Problem.Balanced
      rw [propagated.spent trying.deep]
      exact trying.balanced_after propagated }

theorem stranded (trying : Trying problem decision outer literal solver) {reason : Conflict}
    (propagated : Propagated (solver.pushed literal) (solver.level + 1) (some reason) after) :
    Stranded problem (decision :: outer) after := by
  have level := trying.level_after propagated
  have formula : after.formula = problem.formula :=
    congrArg Problem.formula (trying.problem_after propagated)
  have guarded := propagated.guardedBelow.mono
    (Nat.le_min.mpr ⟨Nat.le_succ _, Nat.le_refl _⟩ : solver.level ≤ min _ solver.level)
  exact {
    toResting := propagated.resting
    same := trying.problem_after propagated
    guarded := by rw [level, ← trying.level]; exact guarded
    layered := trying.layered_after propagated
    excluded := formula ▸ propagated.excludes rfl
    depth := by rw [level, trying.opened, List.length_cons]
    deep := trying.deep_after propagated
    balanced := by
      have balanced := trying.balanced_after propagated
      simp only [Option.isSome_some, ↓reduceIte, PlainSearch.failed_eq] at balanced
      have spent := propagated.spent trying.deep
      simp only [Option.isSome_some, ↓reduceIte] at spent
      refine balanced.spend ?_
      rw [spent, ← trying.level]
      rfl }

theorem exists_propagated (trying : Trying problem decision outer literal solver) :
    ∃ conflict after, solver.assign literal = .ok (conflict, after) ∧
      Propagated (solver.pushed literal) (solver.level + 1) conflict after := by
  obtain ⟨conflict, after, done, assigned⟩ := trying.toResting.exists_assign_of_covers
    (trying.guarded (solver.level + 1)) trying.covered
  simp only [Assigned, trying.free] at assigned
  exact ⟨conflict, after, done, assigned⟩

end Trying

/-! ## Undoing decisions -/

def closed (solver : Solver) (decision : Decision) (outer : List Decision) : Solver :=
  let undone := solver.popTo decision.level
  { undone with
    trail := { undone.trail with level := min undone.trail.level (decision.level - 1) }
    decisions := outer }

def turned (solver : Solver) (decision : Decision) (outer : List Decision) : Solver :=
  { solver.popTo decision.level with
    decisions := { decision with flipped := true } :: outer }.record
      (.flipped decision.var decision.level)

theorem statistics_closed (solver : Solver) (decision : Decision) (outer : List Decision) :
    (solver.closed decision outer).statistics = solver.statistics :=
  statistics_popTo solver decision.level

theorem statistics_turned (solver : Solver) (decision : Decision) (outer : List Decision) :
    (solver.turned decision outer).statistics = solver.statistics :=
  statistics_popTo solver decision.level

namespace Stranded

theorem level_eq (stranded : Stranded problem (decision :: outer) solver) :
    solver.level = decision.level := by
  obtain ⟨-, -, opened, -⟩ := stranded.layered.uncover
  exact stranded.depth.trans opened.symm

theorem settled_popTo (stranded : Stranded problem (decision :: outer) solver) :
    (solver.popTo decision.level).Settled :=
  stranded.toResting.settled_popTo stranded.guarded (Nat.le_of_eq stranded.level_eq.symm)

theorem entries_popTo (stranded : Stranded problem (decision :: outer) solver) :
    (solver.popTo decision.level).trail.entries =
      solver.trail.entries.filter (·.level < decision.level) := by
  rw [trail_popTo, Trail.entries_popTo stranded.faithful]

theorem exists_abandon (stranded : Stranded problem (decision :: outer) solver)
    (flipped : decision.flipped = true) :
    solver.abandon decision outer = .ok (solver.closed decision outer) ∧
      Stranded problem outer (solver.closed decision outer) := by
  obtain ⟨-, layered, opened, -⟩ := stranded.layered.uncover
  have settled := stranded.settled_popTo
  have entries := stranded.entries_popTo
  have clear : ∀ entry ∈ (solver.popTo decision.level).trail.entries,
      entry.level ≤ decision.level - 1 := by
    intro entry member
    have low := layered.level_le entry (entries ▸ member)
    omega
  obtain ⟨lowered, faithful⟩ := settled.faithful.lowerLevel clear
  have level : (solver.closed decision outer).level = outer.length := by
    change min (solver.popTo decision.level).trail.level (decision.level - 1) = _
    rw [trail_popTo]
    change min (min solver.level decision.level) (decision.level - 1) = _
    rw [stranded.level_eq, opened]
    omega
  refine ⟨?_, ?_⟩
  · have below := Trail.levelBelow_of_pos (opened ▸ Nat.succ_pos _ : 0 < decision.level)
    simp only [abandon, stranded.faithful.checkUndo, below, lowered, bind, Except.bind]
    rfl
  · exact {
      faithful := faithful
      tracks := settled.tracks
      sized := settled.sized
      small := settled.small
      idle := settled.idle
      same := (problem_popTo solver decision.level).trans stranded.same
      guarded := settled.guarded _
      layered := entries ▸ layered
      excluded := entries ▸ stranded.layered.excludes_uncovered flipped stranded.excluded
      depth := level
      deep := by
        rw [level, statistics_closed]
        exact Nat.le_trans (stranded.depth ▸ Nat.le_succ _) stranded.deep
      balanced := by
        have balanced := stranded.balanced
        unfold Problem.Balanced at balanced ⊢
        simp only [PlainSearch.resume, flipped, ↓reduceIte] at balanced
        change PlainSearch.both (solver.popTo decision.level).statistics.spent
          (PlainSearch.resume _ _ _ (solver.popTo decision.level).trail.entries _) = _
        rw [statistics_popTo, entries]
        exact balanced }

/-- The open branches of the plain search go on with the negative literal. -/
theorem balanced_turned (stranded : Stranded problem (decision :: outer) solver)
    (fresh : decision.flipped = false) (var_eq : literal.var = decision.var)
    (negative : literal.positive = false) :
    problem.Balanced (solver.turned decision outer).statistics
      ({ decision with flipped := true } :: outer)
      (⟨literal, decision.level⟩ :: (solver.turned decision outer).trail.entries)
      (PlainSearch.searchFrom problem.formula decision.level
        (Formula.setTrue (solver.turned decision outer).model literal)) := by
  have entries := stranded.entries_popTo
  have model : (solver.turned decision outer).model = Valuation.ofEntries problem.variableCount
      (solver.trail.entries.filter (·.level < decision.level)) := by
    change (solver.popTo decision.level).model = _
    rw [stranded.settled_popTo.toIntact.model_eq, entries, statistics_popTo, ← stranded.same]
    rfl
  have balanced := stranded.balanced.turn fresh (by rw [entries]; simp :
    _ = (⟨literal, decision.level⟩ :: (solver.popTo decision.level).trail.entries).filter
      (·.level < decision.level))
  unfold Problem.Balanced at balanced ⊢
  rw [model, Formula.setTrue, var_eq, negative]
  rw [statistics_turned]
  exact balanced

theorem exists_trying (stranded : Stranded problem (decision :: outer) solver)
    (fresh : decision.flipped = false) :
    ∃ literal, literalOf decision.var false = .ok literal ∧
      Trying problem { decision with flipped := true } outer literal
        (solver.turned decision outer) := by
  obtain ⟨positive, layered, opened, choice, growth⟩ := stranded.layered.uncover
  have settled := stranded.settled_popTo
  have entries := stranded.entries_popTo
  have inside : positive.var < solver.trail.values.size :=
    stranded.faithful.covers (growth.subset (.head _))
  obtain ⟨literal, made, var_eq, negative⟩ := Literal.exists_ofVar?
    (Nat.lt_trans (stranded.sized ▸ choice.var_eq ▸ inside) stranded.small) false
  have opposite : literal.negate = positive := by
    refine Literal.eq_of_var_of_positive ?_ ?_
    · rw [Literal.var_negate, var_eq, choice.var_eq]
    · rw [Literal.positive_negate, negative, choice.positive_eq, fresh]
  refine ⟨literal, by simp only [literalOf, made], ?_⟩
  exact {
    toSettled := ⟨settled.toResting.transfer rfl rfl rfl rfl, settled.guarded⟩
    same := (problem_popTo solver decision.level).trans stranded.same
    decisions := rfl
    layered := entries ▸ layered
    opened := opened
    choice := {
      var_eq := var_eq
      positive_eq := negative
      undecided := entries ▸ choice.undecided
      lowest := entries ▸ choice.lowest
      refuted := fun _ => by
        change Formula.Excludes _ (_ :: (solver.popTo decision.level).trail.entries)
        rw [opposite, entries]
        exact stranded.excluded.of_growth growth }
    covered := by
      change literal.var < (solver.popTo decision.level).trail.values.size
      rw [trail_popTo, Trail.size_popTo, var_eq, ← choice.var_eq]
      exact inside
    level := by
      change (solver.popTo decision.level).trail.level = _
      rw [trail_popTo]
      exact Nat.min_eq_right (Nat.le_of_eq stranded.level_eq.symm)
    deep := by
      change (solver.popTo decision.level).trail.level ≤
        (solver.popTo decision.level).statistics.maxLevel
      rw [trail_popTo, statistics_popTo]
      exact Nat.le_trans (Nat.min_le_left ..) stranded.deep
    balanced := stranded.balanced_turned fresh var_eq negative }

/-- A decision is turned by trying its negative literal over the layers below it. -/
theorem exists_turn (stranded : Stranded problem (decision :: outer) solver)
    (fresh : decision.flipped = false) :
    ∃ literal conflict next, solver.turn decision outer = .ok (conflict, next) ∧
      Trying problem { decision with flipped := true } outer literal
        (solver.turned decision outer) ∧
      Propagated ((solver.turned decision outer).pushed literal)
        ((solver.turned decision outer).level + 1) conflict next := by
  obtain ⟨literal, made, trying⟩ := stranded.exists_trying fresh
  obtain ⟨conflict, next, assigned, propagated⟩ := trying.exists_propagated
  refine ⟨literal, conflict, next, ?_, trying, propagated⟩
  simp only [turn, made, stranded.faithful.checkUndo, bind, Except.bind]
  exact assigned

/-- Undoing decisions ends in a state to go on from, or with all branches refuted. -/
theorem exists_retreat (stranded : Stranded problem decisions solver) :
    ∃ found after, retreat decisions solver = .ok (found, after) ∧
      after.statistics.decisions = solver.statistics.decisions ∧
      if found then Searching problem after else Refuted problem after := by
  -- The stack shrinks with every decision that is closed, and a closed one leaves a dead end again.
  induction decisions generalizing solver with
  | nil =>
      cases stranded.layered with
      | root rooted _ =>
          refine ⟨false, solver, rfl, rfl, ?_⟩
          exact {
            toResting := stranded.toResting
            same := stranded.same
            excluded := rooted.excludes stranded.excluded
            level := stranded.depth
            spent := by
              have balanced := stranded.balanced
              simpa [Problem.Balanced, PlainSearch.resume, PlainSearch.both, PlainSearch.dead,
                Statistics.spent] using balanced }
  | cons decision outer ih =>
      cases flipped : decision.flipped with
      | true =>
          obtain ⟨abandoned, outside⟩ := stranded.exists_abandon flipped
          obtain ⟨found, after, done, count, outcome⟩ := ih outside
          refine ⟨found, after, ?_, count.trans (by simp [closed]), outcome⟩
          simp only [retreat, flipped, ↓reduceIte, abandoned, done]
      | false =>
          obtain ⟨literal, conflict, next, turned, trying, propagated⟩ :=
            stranded.exists_turn flipped
          have count : next.statistics.decisions = solver.statistics.decisions := by
            rw [propagated.continues.statistics]
            simp [pushed, Solver.turned, record]
          cases conflict with
          | none =>
              refine ⟨true, next, ?_, count, trying.searching propagated⟩
              simp only [retreat, flipped, Bool.false_eq_true, ↓reduceIte, turned]
          | some reason =>
              obtain ⟨abandoned, outside⟩ := (trying.stranded propagated).exists_abandon rfl
              obtain ⟨found, after, done, later, outcome⟩ := ih outside
              refine ⟨found, after, ?_, later.trans (Eq.trans (by simp [closed]) count), outcome⟩
              have abandoned : next.abandon decision outer = .ok _ := abandoned
              simp only [retreat, flipped, Bool.false_eq_true, ↓reduceIte, turned, abandoned, done]

end Stranded

/-! ## One step -/

def opened (solver : Solver) (var : Var) (journal : Journal) : Solver :=
  { solver with
    trail := solver.trail.newLevel
    decisions := { var, level := solver.level + 1, flipped := false } :: solver.decisions
    statistics := { solver.statistics with
      decisions := solver.statistics.decisions + 1
      maxLevel := max solver.statistics.maxLevel (solver.level + 1) }
    journal := journal }

theorem exists_branch_eq {var : Var} (made : literalOf var true = .ok literal) :
    ∃ journal, solver.branch var = (solver.opened var journal).assign literal := by
  simp only [branch, made, bind, Except.bind, reportProgress]
  split <;> exact ⟨_, rfl⟩

theorem allSatisfied_eq (solver : Solver) (values : Valuation) :
    solver.clauses.allSatisfied values = PlainSearch.allSatisfied solver.formula values := by
  simp [ClauseStore.allSatisfied, PlainSearch.allSatisfied, Clause.isSatisfied, Solver.formula,
    ← Array.all_toList, List.all_map, Function.comp_def]

namespace Searching

theorem formula (searching : Searching problem solver) : solver.formula = problem.formula :=
  congrArg Problem.formula searching.same

theorem variableCount (searching : Searching problem solver) :
    solver.statistics.variableCount = problem.variableCount :=
  congrArg Problem.variableCount searching.same

theorem fits (searching : Searching problem solver) : problem.formula.Fits solver.model.size :=
  searching.formula ▸ searching.toIntact.fits

theorem stable (searching : Searching problem solver) : problem.formula.Stable solver.model := by
  rw [← searching.formula]
  refine searching.toSettled.stable fun literal unit => ?_
  exact searching.faithful.holds (searching.layered.unit_mem (searching.formula ▸ unit))

theorem record (searching : Searching problem solver) (event : Event) :
    Searching problem (solver.record event) where
  toSettled := ⟨searching.toResting.transfer rfl rfl rfl rfl, searching.guarded⟩
  same := searching.same
  layered := searching.layered
  depth := searching.depth
  deep := searching.deep
  balanced := searching.balanced

theorem choice (searching : Searching problem solver) {var : Var}
    (lowest : solver.model.firstUnset? = some var) (var_eq : literal.var = var)
    (positive : literal.positive = true) :
    Decision.Choice { var, level := solver.level + 1, flipped := false } problem.formula
      solver.trail.entries literal := by
  obtain ⟨inside, free, lower⟩ := Valuation.firstUnset?_eq_some_iff.mp lowest
  have small : solver.model.size < variableLimit := searching.sized ▸ searching.small
  have unset : literal.value solver.model = .unset :=
    Literal.value_eq_unset_iff.mpr (var_eq ▸ free)
  refine ⟨var_eq, positive, var_eq ▸ searching.faithful.unset_iff.mp unset, ?_, ?_⟩
  · intro other less
    obtain ⟨known, -, same, -⟩ := Literal.exists_ofVar?
      (Nat.lt_trans (Nat.lt_trans less inside) small) true
    apply Classical.byContradiction
    intro missing
    refine lower other less (same ▸ Literal.value_eq_unset_iff.mp
      (searching.faithful.unset_iff.mpr fun entry member equal => ?_))
    exact missing ⟨entry, member, equal.trans same⟩
  · intro impossible
    cases impossible

/-- The open branches of the plain search go on with the positive literal and one decision more. -/
theorem balanced_opened (searching : Searching problem solver)
    (unsatisfied : PlainSearch.allSatisfied problem.formula solver.model = false) {var : Var}
    (lowest : solver.model.firstUnset? = some var) (var_eq : literal.var = var)
    (positive : literal.positive = true) (journal : Journal) :
    problem.Balanced (solver.opened var journal).statistics
      ({ var, level := solver.level + 1, flipped := false } :: solver.decisions)
      (⟨literal, solver.level + 1⟩ :: solver.trail.entries)
      (PlainSearch.searchFrom problem.formula (solver.level + 1)
        (Formula.setTrue solver.model literal)) := by
  have balanced := searching.balanced
  rw [PlainSearch.searchFrom_of_choice searching.stable unsatisfied lowest,
    PlainSearch.decided_eq (PlainSearch.le_maxLevel_fallback
      (PlainSearch.level_le_maxLevel ..) _)] at balanced
  have model := searching.toIntact.model_eq
  rw [searching.variableCount] at model
  have below : ∀ entry ∈ solver.trail.entries, entry.level < solver.level + 1 :=
    fun entry member => Nat.lt_succ_of_le (searching.faithful.bounded entry member)
  refine Problem.Balanced.branch ?_ rfl (by simpa using below :
    (⟨literal, solver.level + 1⟩ :: solver.trail.entries).filter (·.level < solver.level + 1) =
      solver.trail.entries)
  rw [← model, Formula.setTrue, var_eq, positive]
  exact balanced.spend rfl

theorem trying (searching : Searching problem solver)
    (unsatisfied : PlainSearch.allSatisfied problem.formula solver.model = false) {var : Var}
    (lowest : solver.model.firstUnset? = some var) (var_eq : literal.var = var)
    (positive : literal.positive = true) (journal : Journal) :
    Trying problem { var, level := solver.level + 1, flipped := false } solver.decisions literal
      (solver.opened var journal) where
  toSettled := ⟨⟨⟨searching.faithful.newLevel, searching.tracks, searching.sized,
    searching.small⟩, searching.idle⟩, searching.guarded⟩
  same := searching.same
  decisions := rfl
  layered := searching.layered
  opened := congrArg (· + 1) searching.depth
  choice := searching.choice lowest var_eq positive
  covered := by
    obtain ⟨inside, -, -⟩ := Valuation.firstUnset?_eq_some_iff.mp lowest
    exact var_eq ▸ inside
  level := rfl
  deep := Nat.le_max_right ..
  balanced := searching.balanced_opened unsatisfied lowest var_eq positive journal

/-- As long as a clause is not satisfied, there is a variable to branch on, and its positive literal is
tried at a level of its own. -/
theorem exists_branch (searching : Searching problem solver)
    (unsatisfied : PlainSearch.allSatisfied problem.formula solver.model = false) :
    ∃ var literal journal conflict next, solver.model.firstUnset? = some var ∧
      solver.branch var = .ok (conflict, next) ∧
      Trying problem { var, level := solver.level + 1, flipped := false } solver.decisions literal
        (solver.opened var journal) ∧
      Propagated ((solver.opened var journal).pushed literal)
        ((solver.opened var journal).level + 1) conflict next := by
  obtain ⟨var, choice⟩ :=
    PlainSearch.exists_firstUnset? searching.fits searching.stable unsatisfied
  obtain ⟨inside, -, -⟩ := Valuation.firstUnset?_eq_some_iff.mp choice
  have small : solver.model.size < variableLimit := searching.sized ▸ searching.small
  obtain ⟨literal, made, var_eq, positive⟩ :=
    Literal.exists_ofVar? (Nat.lt_trans inside small) true
  obtain ⟨journal, branched⟩ := exists_branch_eq (by simp only [literalOf, made] :
    literalOf var true = .ok literal)
  have trying := searching.trying unsatisfied choice var_eq positive journal
  obtain ⟨conflict, next, assigned, propagated⟩ := trying.exists_propagated
  exact ⟨var, literal, journal, conflict, next, choice, branched.trans assigned, trying, propagated⟩

end Searching

end Solver

end Dpll
