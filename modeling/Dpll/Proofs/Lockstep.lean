import Dpll.Proofs.Reordering
import Dpll.Proofs.Replay
import Dpll.Proofs.Sessions

/-!
# Searches in lockstep

The open decisions determine the trail of a search up to order, whatever the watches are: each layer
holds what is true under the least stable valuation above its decision. Two searches on similar
formulas therefore take the same decisions, meet their conflicts at the same places and end alike. Main
statement: the answer and the counters do not depend on what a solver was asked before, nor on the
order of its clauses and literals. Only where the unit clauses refute the formula may the trails differ,
and not even there if a solver is asked again.
-/

set_option autoImplicit false

namespace Dpll

/-- The counters of a search that do not depend on the order in which clauses are visited. -/
structure Tally where
  decisions : Nat
  conflicts : Nat
  backtracks : Nat
  maxLevel : Nat
deriving DecidableEq

def Tally.propagated (tally : Tally) (conflict : Bool) : Tally :=
  { tally with conflicts := tally.conflicts + if conflict then 1 else 0 }

def Tally.decided (tally : Tally) (level : Nat) : Tally :=
  { tally with
    decisions := tally.decisions + 1
    maxLevel := max tally.maxLevel level }

def Statistics.tally (statistics : Statistics) : Tally :=
  { decisions := statistics.decisions
    conflicts := statistics.conflicts
    backtracks := statistics.backtracks
    maxLevel := statistics.maxLevel }

/-- Problems that differ in the order of clauses and literals at most. No clock is looked at. -/
structure Problem.Similar (first second : Problem) : Prop where
  decisionLimit : first.options.decisionLimit = second.options.decisionLimit
  untimed : first.options.timeLimit = none
  alsoUntimed : second.options.timeLimit = none
  formula : first.formula.Similar second.formula
  variableCount : first.variableCount = second.variableCount

theorem Problem.Similar.symm {first second : Problem} (similar : first.Similar second) :
    second.Similar first :=
  ⟨similar.decisionLimit.symm, similar.alsoUntimed, similar.untimed, similar.formula.symm,
    similar.variableCount.symm⟩

namespace Solver

variable {solver left right : Solver} {first second : Problem} {decision : Decision}
  {decisions outer : List Decision} {literal : Literal}

structure Agree (left right : Solver) : Prop where
  model : left.model = right.model
  entries : ∀ entry, entry ∈ left.trail.entries ↔ entry ∈ right.trail.entries

/-! ## The decisions determine the trail -/

namespace Settled

theorem popTo (settled : solver.Settled) (level : Nat) : (solver.popTo level).Settled :=
  settled.toResting.settled_popTo (settled.guarded level) (Nat.le_refl level)

theorem entries_popTo (settled : solver.Settled) (level : Nat) :
    (solver.popTo level).trail.entries = solver.trail.entries.filter (·.level < level) := by
  rw [trail_popTo, Trail.entries_popTo settled.faithful]

private theorem stable_of_layered (settled : solver.Settled)
    (layered : Layered solver.formula decisions solver.trail.entries) :
    Formula.Stable solver.formula solver.model :=
  settled.stable fun _ unit => settled.faithful.holds (layered.unit_mem unit)

/-- What is forced on the left is true on the right. It has the same level there, unless it is older on
the right, and then it would be older on the left. -/
theorem entries_subset_of_growth {level : Nat} {leftBase rightBase : List Entry}
    (leftSettled : left.Settled) (rightSettled : right.Settled)
    (stable : Formula.Stable left.formula right.model)
    (leftGrowth : Growth left.formula level leftBase left.trail.entries)
    (rightGrowth : Growth right.formula level rightBase right.trail.entries)
    (forth : leftBase ⊆ right.trail.entries) (back : rightBase ⊆ left.trail.entries) :
    left.trail.entries ⊆ right.trail.entries := by
  intro entry member
  have true_ := leftGrowth.holds_of_stable stable
    (fun older inBase => rightSettled.faithful.holds (forth inBase)) entry member
  obtain ⟨found, recorded⟩ := (rightSettled.faithful.holds_iff _).mp true_
  have same : entry = ⟨entry.literal, found⟩ := by
    rcases rightGrowth.mem_or_level_eq recorded with older | rightTop
    · exact leftSettled.faithful.eq_of_var_eq member (back older) rfl
    · rcases leftGrowth.mem_or_level_eq member with older | leftTop
      · exact rightSettled.faithful.eq_of_var_eq (forth older) recorded rfl
      · have level_eq : found = entry.level := rightTop.trans leftTop.symm
        rw [level_eq]
  rwa [← same] at recorded

private theorem entries_subset (leftSettled : left.Settled) (rightSettled : right.Settled)
    (similar : Formula.Similar left.formula right.formula)
    (leftLayered : Layered left.formula decisions left.trail.entries)
    (rightLayered : Layered right.formula decisions right.trail.entries) :
    left.trail.entries ⊆ right.trail.entries := by
  induction decisions generalizing left right with
  | nil =>
      have stable := (rightSettled.stable_of_layered rightLayered).of_similar similar.symm
      cases leftLayered with
      | root leftRooted _ =>
          cases rightLayered with
          | root rightRooted _ =>
              intro entry member
              have true_ := leftRooted.holds_of_stable stable entry member
              obtain ⟨level, found⟩ := (rightSettled.faithful.holds_iff _).mp true_
              have bottom : entry.level = level :=
                (leftRooted.level_eq entry member).trans (rightRooted.level_eq _ found).symm
              rwa [← bottom] at found
  | cons decision outer ih =>
      have stable := (rightSettled.stable_of_layered rightLayered).of_similar similar.symm
      obtain ⟨literal, leftBelow, -, leftChoice, leftGrowth⟩ := leftLayered.uncover
      obtain ⟨other, rightBelow, -, rightChoice, rightGrowth⟩ := rightLayered.uncover
      obtain rfl : literal = other := Literal.eq_of_var_of_positive
        (leftChoice.var_eq.trans rightChoice.var_eq.symm)
        (leftChoice.positive_eq.trans rightChoice.positive_eq.symm)
      rw [← leftSettled.entries_popTo, ← formula_popTo left decision.level] at leftBelow
      rw [← rightSettled.entries_popTo, ← formula_popTo right decision.level] at rightBelow
      have alike : Formula.Similar (left.popTo decision.level).formula
          (right.popTo decision.level).formula := by
        rwa [formula_popTo, formula_popTo]
      have forth := ih (leftSettled.popTo _) (rightSettled.popTo _) alike leftBelow rightBelow
      have back := ih (rightSettled.popTo _) (leftSettled.popTo _) alike.symm rightBelow leftBelow
      rw [leftSettled.entries_popTo, rightSettled.entries_popTo] at forth back
      exact entries_subset_of_growth leftSettled rightSettled stable leftGrowth rightGrowth
        (List.Subset.trans (List.cons_subset_cons _ forth) rightGrowth.subset)
        (List.Subset.trans (List.cons_subset_cons _ back) leftGrowth.subset)

theorem agree (leftSettled : left.Settled) (rightSettled : right.Settled)
    (similar : Formula.Similar left.formula right.formula)
    (variableCount : left.statistics.variableCount = right.statistics.variableCount)
    (leftLayered : Layered left.formula decisions left.trail.entries)
    (rightLayered : Layered right.formula decisions right.trail.entries) : Agree left right := by
  have forth := leftSettled.entries_subset rightSettled similar leftLayered rightLayered
  have back := rightSettled.entries_subset leftSettled similar.symm rightLayered leftLayered
  refine ⟨?_, fun entry => ⟨@forth entry, @back entry⟩⟩
  refine Valuation.Within.antisymm ?_ ?_ ?_ ?_
  · exact leftSettled.sized.trans (variableCount.trans rightSettled.sized.symm)
  · change left.trail.values.size < variableLimit
    rw [leftSettled.sized]
    exact leftSettled.small
  · intro literal true_
    obtain ⟨level, member⟩ := (leftSettled.faithful.holds_iff literal).mp true_
    exact rightSettled.faithful.holds (forth member)
  · intro literal true_
    obtain ⟨level, member⟩ := (rightSettled.faithful.holds_iff literal).mp true_
    exact leftSettled.faithful.holds (back member)

end Settled

theorem Searching.agree (similar : first.Similar second) (leftSearching : Searching first left)
    (rightSearching : Searching second right) (stack : left.decisions = right.decisions) :
    Agree left right := by
  have leftLayered := leftSearching.layered
  have rightLayered := rightSearching.layered
  rw [← leftSearching.formula] at leftLayered
  rw [← rightSearching.formula, ← stack] at rightLayered
  refine leftSearching.toSettled.agree rightSearching.toSettled ?_ ?_ leftLayered rightLayered
  · rw [leftSearching.formula, rightSearching.formula]
    exact similar.formula
  · rw [leftSearching.variableCount, rightSearching.variableCount]
    exact similar.variableCount

/-! ## Trying the same literal -/

section Trying

variable {leftAfter rightAfter : Solver} {leftConflict rightConflict : Option Conflict}

theorem Propagated.tally {bound : Nat} {conflict : Option Conflict}
    (propagated : Propagated left bound conflict right) :
    right.statistics.tally = left.statistics.tally.propagated conflict.isSome := by
  have counted := propagated.conflicts
  unfold Statistics.tally Tally.propagated
  rw [propagated.continues.statistics, ← counted]

/-- A conflict that one propagation meets is met by the other, since the end of a propagation without
conflict would be a stable valuation above the start of both. -/
theorem Trying.isSome_of_isSome (similar : first.Similar second)
    (leftTrying : Trying first decision outer literal left)
    (rightTrying : Trying second decision outer literal right)
    (leftPropagated : Propagated (left.pushed literal) (left.level + 1) leftConflict leftAfter)
    (rightPropagated : Propagated (right.pushed literal) (right.level + 1) rightConflict rightAfter)
    (met : rightConflict.isSome = true) : leftConflict.isSome = true := by
  cases leftConflict with
  | some reason => rfl
  | none =>
      exfalso
      have searching := leftTrying.searching leftPropagated
      have leftLayered := leftTrying.layered
      have rightLayered := rightTrying.layered
      rw [← leftTrying.formula] at leftLayered
      rw [← rightTrying.formula] at rightLayered
      have older := rightTrying.toSettled.entries_subset leftTrying.toSettled
        (by rw [leftTrying.formula, rightTrying.formula]; exact similar.formula.symm)
        rightLayered leftLayered
      have level : right.level = left.level := rightTrying.level.trans leftTrying.level.symm
      have start : (right.pushed literal).trail.entries ⊆ leftAfter.trail.entries := by
        change (⟨literal, right.level⟩ :: right.trail.entries) ⊆ _
        rw [level]
        exact List.Subset.trans (List.cons_subset_cons _ older) leftPropagated.growth.subset
      refine rightPropagated.not_stable met
        (fun entry member => searching.faithful.holds (start member)) ?_
      change Formula.Stable right.formula leftAfter.model
      rw [rightTrying.formula]
      exact searching.stable.of_similar similar.formula

private theorem Trying.isSome_eq (similar : first.Similar second)
    (leftTrying : Trying first decision outer literal left)
    (rightTrying : Trying second decision outer literal right)
    (leftPropagated : Propagated (left.pushed literal) (left.level + 1) leftConflict leftAfter)
    (rightPropagated :
      Propagated (right.pushed literal) (right.level + 1) rightConflict rightAfter) :
    leftConflict.isSome = rightConflict.isSome := by
  exact Bool.eq_iff_iff.mpr
    ⟨Trying.isSome_of_isSome similar.symm rightTrying leftTrying rightPropagated leftPropagated,
      Trying.isSome_of_isSome similar leftTrying rightTrying leftPropagated rightPropagated⟩

end Trying

/-! ## Pairs of states -/

structure Twins (first second : Problem) (left right : Solver) : Prop where
  leftSearching : Searching first left
  rightSearching : Searching second right
  stack : left.decisions = right.decisions
  tally : left.statistics.tally = right.statistics.tally

/-- Two searches that have met a conflict at the same place. When all decisions are closed nothing is
left that a conflict has spoiled. -/
structure Astray (first second : Problem) (decisions : List Decision) (left right : Solver) :
    Prop where
  leftStranded : Stranded first decisions left
  rightStranded : Stranded second decisions right
  leftStack : left.decisions = decisions
  rightStack : right.decisions = decisions
  tally : left.statistics.tally = right.statistics.tally
  bottom : decisions = [] → left.Settled ∧ right.Settled

private theorem Trying.exists_assign_both (similar : first.Similar second)
    (leftTrying : Trying first decision outer literal left)
    (rightTrying : Trying second decision outer literal right)
    (tally : left.statistics.tally = right.statistics.tally) :
    ∃ leftConflict leftAfter rightConflict rightAfter,
      left.assign literal = .ok (leftConflict, leftAfter) ∧
      right.assign literal = .ok (rightConflict, rightAfter) ∧
      match leftConflict, rightConflict with
      | none, none => Twins first second leftAfter rightAfter
      | some _, some _ => Astray first second (decision :: outer) leftAfter rightAfter
      | _, _ => False := by
  obtain ⟨leftConflict, leftAfter, leftDone, leftPropagated⟩ := leftTrying.exists_propagated
  obtain ⟨rightConflict, rightAfter, rightDone, rightPropagated⟩ := rightTrying.exists_propagated
  refine ⟨leftConflict, leftAfter, rightConflict, rightAfter, leftDone, rightDone, ?_⟩
  have same := Trying.isSome_eq similar leftTrying rightTrying leftPropagated rightPropagated
  have leftStack := leftPropagated.continues.decisions.trans leftTrying.decisions
  have rightStack := rightPropagated.continues.decisions.trans rightTrying.decisions
  have counted : leftAfter.statistics.tally = rightAfter.statistics.tally := by
    rw [leftPropagated.tally, rightPropagated.tally, same]
    exact congrArg (Tally.propagated · _) tally
  cases leftConflict with
  | none =>
      cases rightConflict with
      | some reason => cases same
      | none =>
          exact ⟨leftTrying.searching leftPropagated, rightTrying.searching rightPropagated,
            leftStack.trans rightStack.symm, counted⟩
  | some leftReason =>
      cases rightConflict with
      | none => cases same
      | some rightReason =>
          exact ⟨leftTrying.stranded leftPropagated, rightTrying.stranded rightPropagated,
            leftStack, rightStack, counted, nofun⟩

/-! ## Undoing the same decisions -/

private theorem Stranded.settled_closed (stranded : Stranded first (decision :: outer) solver)
    (flipped : decision.flipped = true) : (solver.closed decision outer).Settled :=
  ⟨(stranded.exists_abandon flipped).2.toResting, stranded.settled_popTo.guarded⟩

theorem Astray.closed (astray : Astray first second (decision :: outer) left right)
    (flipped : decision.flipped = true) :
    Astray first second outer (left.closed decision outer) (right.closed decision outer) where
  leftStranded := (astray.leftStranded.exists_abandon flipped).2
  rightStranded := (astray.rightStranded.exists_abandon flipped).2
  leftStack := rfl
  rightStack := rfl
  tally := by
    change (left.popTo decision.level).statistics.tally =
      (right.popTo decision.level).statistics.tally
    rw [statistics_popTo, statistics_popTo]
    exact astray.tally
  bottom _ := ⟨astray.leftStranded.settled_closed flipped, astray.rightStranded.settled_closed flipped⟩

theorem Astray.agree (similar : first.Similar second) (astray : Astray first second [] left right) :
    Agree left right := by
  obtain ⟨leftSettled, rightSettled⟩ := astray.bottom rfl
  have leftFormula : left.formula = first.formula := congrArg Problem.formula astray.leftStranded.same
  have rightFormula : right.formula = second.formula :=
    congrArg Problem.formula astray.rightStranded.same
  refine leftSettled.agree rightSettled ?_ ?_ (leftFormula ▸ astray.leftStranded.layered)
    (rightFormula ▸ astray.rightStranded.layered)
  · rw [leftFormula, rightFormula]
    exact similar.formula
  · exact (congrArg Problem.variableCount astray.leftStranded.same).trans
      (similar.variableCount.trans (congrArg Problem.variableCount astray.rightStranded.same).symm)

theorem Astray.exists_turn (similar : first.Similar second)
    (astray : Astray first second (decision :: outer) left right) (fresh : decision.flipped = false) :
    ∃ leftConflict leftAfter rightConflict rightAfter,
      left.turn decision outer = .ok (leftConflict, leftAfter) ∧
      right.turn decision outer = .ok (rightConflict, rightAfter) ∧
      match leftConflict, rightConflict with
      | none, none => Twins first second leftAfter rightAfter
      | some _, some _ =>
          Astray first second ({ decision with flipped := true } :: outer) leftAfter rightAfter
      | _, _ => False := by
  obtain ⟨literal, leftMade, leftTrying⟩ := astray.leftStranded.exists_trying fresh
  obtain ⟨other, rightMade, rightTrying⟩ := astray.rightStranded.exists_trying fresh
  obtain rfl := Except.ok.inj (leftMade.symm.trans rightMade)
  have kept (solver : Solver) : (solver.turned decision outer).statistics = solver.statistics := by
    simp [Solver.turned, record]
  have tally : (left.turned decision outer).statistics.tally =
      (right.turned decision outer).statistics.tally := by
    rw [kept, kept]
    exact astray.tally
  obtain ⟨leftConflict, leftNext, rightConflict, rightNext, leftAssigned, rightAssigned, outcome⟩ :=
    Trying.exists_assign_both similar leftTrying rightTrying tally
  refine ⟨leftConflict, leftNext, rightConflict, rightNext, ?_, ?_, outcome⟩
  · simp only [turn, leftMade, astray.leftStranded.faithful.checkUndo, bind, Except.bind]
    exact leftAssigned
  · simp only [turn, rightMade, astray.rightStranded.faithful.checkUndo, bind, Except.bind]
    exact rightAssigned

theorem Astray.exists_retreat (similar : first.Similar second)
    (astray : Astray first second decisions left right) :
    ∃ found leftAfter rightAfter, retreat decisions left = .ok (found, leftAfter) ∧
      retreat decisions right = .ok (found, rightAfter) ∧
      if found then Twins first second leftAfter rightAfter
      else leftAfter.statistics.tally = rightAfter.statistics.tally ∧
        Agree leftAfter rightAfter := by
  induction decisions generalizing left right with
  | nil => exact ⟨false, left, right, rfl, rfl, astray.tally, astray.agree similar⟩
  | cons decision outer ih =>
      cases flipped : decision.flipped with
      | true =>
          obtain ⟨leftAbandoned, -⟩ := astray.leftStranded.exists_abandon flipped
          obtain ⟨rightAbandoned, -⟩ := astray.rightStranded.exists_abandon flipped
          obtain ⟨found, leftAfter, rightAfter, leftDone, rightDone, outcome⟩ :=
            ih (astray.closed flipped)
          refine ⟨found, leftAfter, rightAfter, ?_, ?_, outcome⟩
          · simp only [retreat, flipped, ↓reduceIte, leftAbandoned, leftDone]
          · simp only [retreat, flipped, ↓reduceIte, rightAbandoned, rightDone]
      | false =>
          obtain ⟨leftConflict, leftNext, rightConflict, rightNext, leftTurned, rightTurned, outcome⟩ :=
            astray.exists_turn similar flipped
          cases leftConflict with
          | none =>
              cases rightConflict with
              | some reason => exact outcome.elim
              | none =>
                  refine ⟨true, leftNext, rightNext, ?_, ?_, outcome⟩
                  · simp only [retreat, flipped, Bool.false_eq_true, ↓reduceIte, leftTurned]
                  · simp only [retreat, flipped, Bool.false_eq_true, ↓reduceIte, rightTurned]
          | some leftReason =>
              cases rightConflict with
              | none => exact outcome.elim
              | some rightReason =>
                  have both : Astray first second ({ decision with flipped := true } :: outer)
                    leftNext rightNext := outcome
                  have leftAbandoned : leftNext.abandon decision outer = .ok _ :=
                    (both.leftStranded.exists_abandon rfl).1
                  have rightAbandoned : rightNext.abandon decision outer = .ok _ :=
                    (both.rightStranded.exists_abandon rfl).1
                  obtain ⟨found, leftAfter, rightAfter, leftDone, rightDone, outcome⟩ :=
                    ih (both.closed rfl)
                  refine ⟨found, leftAfter, rightAfter, ?_, ?_, outcome⟩
                  · simp only [retreat, flipped, Bool.false_eq_true, ↓reduceIte, leftTurned,
                      leftAbandoned, leftDone]
                  · simp only [retreat, flipped, Bool.false_eq_true, ↓reduceIte, rightTurned,
                      rightAbandoned, rightDone]

/-! ## Taking the same steps -/

def Step.Match (first second : Problem) : Step → Step → Prop
  | .continued left, .continued right => Twins first second left right
  | .finished status left, .finished other right =>
      status = other ∧ left.statistics.tally = right.statistics.tally ∧ Agree left right
  | _, _ => False

theorem Astray.exists_retry (similar : first.Similar second)
    (astray : Astray first second decisions left right) :
    ∃ leftStep rightStep, left.retry = .ok leftStep ∧ right.retry = .ok rightStep ∧
      Step.Match first second leftStep rightStep := by
  have waiting : Astray first second decisions left.counted right.counted := {
    leftStranded := astray.leftStranded.counted
    rightStranded := astray.rightStranded.counted
    leftStack := astray.leftStack
    rightStack := astray.rightStack
    tally := congrArg (fun tally : Tally => { tally with backtracks := tally.backtracks + 1 })
      astray.tally
    bottom := fun closed =>
      have settled := astray.bottom closed
      ⟨⟨settled.1.toResting.transfer rfl rfl rfl rfl, settled.1.guarded⟩,
        ⟨settled.2.toResting.transfer rfl rfl rfl rfl, settled.2.guarded⟩⟩ }
  obtain ⟨found, leftAfter, rightAfter, leftDone, rightDone, outcome⟩ :=
    waiting.exists_retreat similar
  have leftFlipped : left.flipLast = .ok (found, leftAfter) := by
    rw [← leftDone, ← astray.leftStack]
    rfl
  have rightFlipped : right.flipLast = .ok (found, rightAfter) := by
    rw [← rightDone, ← astray.rightStack]
    rfl
  cases found with
  | true =>
      exact ⟨.continued leftAfter, .continued rightAfter, by simp only [retry, leftFlipped],
        by simp only [retry, rightFlipped], outcome⟩
  | false =>
      exact ⟨.finished .unsat leftAfter, .finished .unsat rightAfter,
        by simp only [retry, leftFlipped], by simp only [retry, rightFlipped], rfl, outcome⟩

namespace Twins

theorem agree (similar : first.Similar second) (twins : Twins first second left right) :
    Agree left right :=
  twins.leftSearching.agree similar twins.rightSearching twins.stack

theorem level_eq (twins : Twins first second left right) : left.level = right.level := by
  rw [twins.leftSearching.depth, twins.rightSearching.depth, twins.stack]

theorem exists_advance (similar : first.Similar second) (twins : Twins first second left right)
    (unsatisfied : PlainSearch.allSatisfied first.formula left.model = false) :
    ∃ leftStep rightStep, left.advance = .ok leftStep ∧ right.advance = .ok rightStep ∧
      Step.Match first second leftStep rightStep := by
  have model := (twins.agree similar).model
  have alsoUnsatisfied : PlainSearch.allSatisfied second.formula right.model = false := by
    rw [← similar.formula.allSatisfied_eq, ← model]
    exact unsatisfied
  obtain ⟨var, choice⟩ :=
    PlainSearch.exists_firstUnset? twins.leftSearching.fits twins.leftSearching.stable unsatisfied
  obtain ⟨inside, -, -⟩ := Valuation.firstUnset?_eq_some_iff.mp choice
  have alsoChoice : right.model.firstUnset? = some var := model ▸ choice
  have small : left.model.size < variableLimit := twins.leftSearching.sized ▸ twins.leftSearching.small
  obtain ⟨literal, made, var_eq, positive⟩ :=
    Literal.exists_ofVar? (Nat.lt_trans inside small) true
  have chosen : literalOf var true = .ok literal := by simp only [literalOf, made]
  obtain ⟨leftJournal, leftBranched⟩ :=
    (exists_branch_eq chosen : ∃ journal, left.branch var = _)
  obtain ⟨rightJournal, rightBranched⟩ :=
    (exists_branch_eq chosen : ∃ journal, right.branch var = _)
  have leftTrying := twins.leftSearching.trying unsatisfied choice var_eq positive leftJournal
  have rightTrying := twins.rightSearching.trying alsoUnsatisfied alsoChoice var_eq positive rightJournal
  have level := twins.level_eq
  rw [← twins.stack, ← level] at rightTrying
  have tally : (left.opened var leftJournal).statistics.tally =
      (right.opened var rightJournal).statistics.tally := by
    change left.statistics.tally.decided (left.level + 1) =
      right.statistics.tally.decided (right.level + 1)
    rw [twins.tally, level]
  obtain ⟨leftConflict, leftNext, rightConflict, rightNext, leftAssigned, rightAssigned, outcome⟩ :=
    Trying.exists_assign_both similar leftTrying rightTrying tally
  rw [leftAssigned] at leftBranched
  rw [rightAssigned] at rightBranched
  cases leftConflict with
  | none =>
      cases rightConflict with
      | some reason => exact outcome.elim
      | none =>
          exact ⟨.continued leftNext, .continued rightNext,
            by simp only [advance, choice, leftBranched],
            by simp only [advance, alsoChoice, rightBranched], outcome⟩
  | some leftReason =>
      cases rightConflict with
      | none => exact outcome.elim
      | some rightReason =>
          obtain ⟨leftStep, rightStep, leftRetried, rightRetried, alike⟩ :=
            Astray.exists_retry similar outcome
          exact ⟨leftStep, rightStep, by simp only [advance, choice, leftBranched, leftRetried],
            by simp only [advance, alsoChoice, rightBranched, rightRetried], alike⟩

private theorem limitReached_eq (similar : first.Similar second)
    (twins : Twins first second left right)
    (elapsed other : Nat) : left.limitReached elapsed = right.limitReached other := by
  have leftOptions : left.options = first.options :=
    congrArg Problem.options twins.leftSearching.same
  have rightOptions : right.options = second.options :=
    congrArg Problem.options twins.rightSearching.same
  have made : left.statistics.decisions = right.statistics.decisions :=
    congrArg Tally.decisions twins.tally
  simp only [limitReached, leftOptions, rightOptions, similar.decisionLimit, similar.untimed,
    similar.alsoUntimed, made, Option.any_none]

theorem exists_step (similar : first.Similar second) (twins : Twins first second left right)
    (elapsed other : Nat) :
    ∃ leftStep rightStep, left.step elapsed = .ok leftStep ∧ right.step other = .ok rightStep ∧
      Step.Match first second leftStep rightStep := by
  have agree := twins.agree similar
  have limits := twins.limitReached_eq similar elapsed other
  have models : PlainSearch.allSatisfied first.formula left.model =
      PlainSearch.allSatisfied second.formula right.model := by
    rw [similar.formula.allSatisfied_eq, agree.model]
  cases limit : left.limitReached elapsed with
  | true =>
      rw [limit] at limits
      refine ⟨_, _, if_pos limit, if_pos limits.symm, rfl, twins.tally, agree.model, agree.entries⟩
  | false =>
      rw [limit] at limits
      cases satisfied : PlainSearch.allSatisfied first.formula left.model with
      | true =>
          rw [satisfied] at models
          refine ⟨.finished .sat left, .finished .sat right, ?_, ?_, rfl, twins.tally, agree⟩
          · simp only [step, limit, allSatisfied_eq, twins.leftSearching.formula, satisfied,
              ↓reduceIte, Bool.false_eq_true]
          · simp only [step, ← limits, allSatisfied_eq, twins.rightSearching.formula, ← models,
              ↓reduceIte, Bool.false_eq_true]
      | false =>
          rw [satisfied] at models
          obtain ⟨leftStep, rightStep, leftDone, rightDone, alike⟩ :=
            twins.exists_advance similar satisfied
          refine ⟨leftStep, rightStep, ?_, ?_, alike⟩
          · simp only [step, limit, allSatisfied_eq, twins.leftSearching.formula, satisfied,
              ↓reduceIte, Bool.false_eq_true, leftDone]
          · simp only [step, ← limits, allSatisfied_eq, twins.rightSearching.formula, ← models,
              ↓reduceIte, Bool.false_eq_true, rightDone]

theorem steps (similar : first.Similar second) (twins : Twins first second left right)
    {clock other : Clock} {more : Nat} {status found : Status} {leftAfter rightAfter : Solver}
    (leftDone : Solver.steps clock more left = .ok (status, leftAfter))
    (rightDone : Solver.steps other more right = .ok (found, rightAfter)) :
    status = found ∧ leftAfter.statistics.tally = rightAfter.statistics.tally ∧
      Agree leftAfter rightAfter := by
  induction more generalizing left right with
  | zero => cases leftDone
  | succ more ih =>
      obtain ⟨leftStep, rightStep, leftTaken, rightTaken, alike⟩ := twins.exists_step similar
        (clock left.statistics.decisions) (other right.statistics.decisions)
      simp only [Solver.steps, leftTaken] at leftDone
      simp only [Solver.steps, rightTaken] at rightDone
      cases leftStep with
      | continued leftNext =>
          cases rightStep with
          | continued rightNext => exact ih alike leftDone rightDone
          | finished _ _ => exact alike.elim
      | finished _ _ =>
          cases rightStep with
          | continued rightNext => exact alike.elim
          | finished _ _ =>
              cases leftDone
              cases rightDone
              exact alike

end Twins

/-! ## Starting alike -/

theorem Rooting.tally_eq (rooting : Rooting first solver) :
    solver.statistics.tally = ⟨0, 0, 0, 0⟩ := by
  obtain ⟨-, decisions, conflicts, maxLevel⟩ := PlainSearch.Result.mk.inj rooting.spent
  exact Tally.mk.injEq .. ▸ ⟨decisions, conflicts, rooting.fresh, maxLevel⟩

theorem Doomed.tally_eq (doomed : Doomed first solver) :
    solver.statistics.tally = ⟨0, 1, 0, 0⟩ := by
  obtain ⟨-, decisions, conflicts, maxLevel⟩ := PlainSearch.Result.mk.inj doomed.once
  exact Tally.mk.injEq .. ▸ ⟨decisions, conflicts, doomed.fresh, maxLevel⟩

/-- The unit clauses lead to a conflict in both searches or in none. In the former case the searches
may have followed different clauses to it. -/
theorem Begins.alike {leftStep rightStep : Step} (similar : first.Similar second)
    (leftBegins : Begins first leftStep) (rightBegins : Begins second rightStep) :
    match leftStep, rightStep with
    | .continued left, .continued right => Twins first second left right
    | .finished status left, .finished other right =>
        status = .unsat ∧ other = .unsat ∧ left.statistics.tally = ⟨0, 1, 0, 0⟩ ∧
          right.statistics.tally = ⟨0, 1, 0, 0⟩
    | _, _ => False := by
  cases leftStep with
  | continued left =>
      obtain ⟨leftSearching, leftRooting⟩ := leftBegins
      cases rightStep with
      | continued right =>
          obtain ⟨rightSearching, rightRooting⟩ := rightBegins
          exact ⟨leftSearching, rightSearching,
            leftRooting.decisions.trans rightRooting.decisions.symm,
            leftRooting.tally_eq.trans rightRooting.tally_eq.symm⟩
      | finished other right =>
          exact rightBegins.2.unstable _ (leftSearching.stable.of_similar similar.formula)
  | finished status left =>
      obtain ⟨refuted, leftDoomed⟩ := leftBegins
      cases rightStep with
      | continued right =>
          exact leftDoomed.unstable _ (rightBegins.1.stable.of_similar similar.formula.symm)
      | finished other right =>
          obtain ⟨alsoRefuted, rightDoomed⟩ := rightBegins
          exact ⟨refuted, alsoRefuted, leftDoomed.tally_eq, rightDoomed.tally_eq⟩

section Solve

variable {clock other : Clock} {status found : Status} {leftAfter rightAfter : Solver}

private theorem Rooting.search_alike (similar : first.Similar second)
    (leftNonempty : first.hasEmptyClause = false) (rightNonempty : second.hasEmptyClause = false)
    (leftRooting : Rooting first left) (rightRooting : Rooting second right)
    (leftDone : search clock left = .ok (status, leftAfter))
    (rightDone : search other right = .ok (found, rightAfter)) :
    status = found ∧ leftAfter.statistics.tally = rightAfter.statistics.tally ∧
      (Agree leftAfter rightAfter ∨
        status = .unsat ∧ left.begin = .ok (.finished .unsat leftAfter)) := by
  obtain ⟨leftStep, leftBegun, leftBegins⟩ := leftRooting.exists_begin leftNonempty
  obtain ⟨rightStep, rightBegun, rightBegins⟩ := rightRooting.exists_begin rightNonempty
  have alike := Begins.alike similar leftBegins rightBegins
  simp only [search, leftBegun] at leftDone
  simp only [search, rightBegun] at rightDone
  cases leftStep with
  | continued leftNext =>
      cases rightStep with
      | finished _ _ => exact alike.elim
      | continued rightNext =>
          have twins : Twins first second leftNext rightNext := alike
          have counts : leftNext.statistics.variableCount = rightNext.statistics.variableCount := by
            rw [twins.leftSearching.variableCount, twins.rightSearching.variableCount]
            exact similar.variableCount
          simp only [← counts] at rightDone
          obtain ⟨same, tally, agree⟩ := twins.steps similar leftDone rightDone
          exact ⟨same, tally, .inl agree⟩
  | finished _ _ =>
      cases rightStep with
      | continued _ => exact alike.elim
      | finished _ _ =>
          obtain ⟨rfl, rfl, leftTally, rightTally⟩ := alike
          cases leftDone
          cases rightDone
          exact ⟨rfl, leftTally.trans rightTally.symm, .inr ⟨rfl, leftBegun⟩⟩

theorem Agree.conclude (agree : Agree left right) (status found : Status) :
    Agree (left.conclude status) (right.conclude found) :=
  ⟨agree.model, agree.entries⟩

/-- Solvers with similar formulas answer alike. Their trails may differ only where the unit clauses
alone were refuted. -/
theorem Resting.solve_alike (leftResting : left.Resting) (rightResting : right.Resting)
    (similar : left.problem.Similar right.problem)
    (leftNonempty : left.hasEmptyClause = false) (rightNonempty : right.hasEmptyClause = false)
    (clock other : Clock) :
    ∃ status leftAfter rightAfter, left.solve clock = .ok (status, leftAfter) ∧
      right.solve other = .ok (status, rightAfter) ∧
      leftAfter.statistics.tally = rightAfter.statistics.tally ∧
      (Agree leftAfter rightAfter ∨ status = .unsat ∧ ∃ refuted,
        left.restart.begin = .ok (.finished .unsat refuted) ∧
        leftAfter = refuted.conclude .unsat) := by
  obtain ⟨status, leftAfter, leftDone, -⟩ :=
    leftResting.rooting_restart.exists_search leftNonempty clock
  obtain ⟨found, rightAfter, rightDone, -⟩ :=
    rightResting.rooting_restart.exists_search rightNonempty other
  obtain ⟨rfl, tally, agree⟩ := Rooting.search_alike similar leftNonempty rightNonempty
    leftResting.rooting_restart rightResting.rooting_restart leftDone rightDone
  refine ⟨status, leftAfter.conclude status, rightAfter.conclude status, ?_, ?_, tally, ?_⟩
  · simp only [solve, leftResting.faithful.checkUndo, leftDone]
  · simp only [solve, rightResting.faithful.checkUndo, rightDone]
  · rcases agree with agree | ⟨rfl, begun⟩
    · exact .inl (agree.conclude status status)
    · exact .inr ⟨rfl, leftAfter, begun, rfl⟩

/-- A search that is repeated ends with the same answer and the same trail. Where the unit clauses were
refuted, the second search goes the way of the first. -/
theorem Resting.solve_again (resting : solver.Resting) (nonempty : solver.hasEmptyClause = false)
    (untimed : solver.options.timeLimit = none)
    (done : solver.solve clock = .ok (status, leftAfter)) (other : Clock) :
    ∃ again, leftAfter.solve other = .ok (status, again) ∧
      again.statistics.tally = leftAfter.statistics.tally ∧ Agree leftAfter again := by
  obtain ⟨_, _, same, answers⟩ := resting.exists_solve clock
  cases done.symm.trans same
  have kept : leftAfter.problem = solver.problem := answers.problem_eq
  have flag : leftAfter.hasEmptyClause = false :=
    (congrArg Problem.hasEmptyClause kept).trans nonempty
  have similar : solver.problem.Similar leftAfter.problem := by
    rw [kept]
    exact ⟨rfl, untimed, untimed, .refl _, rfl⟩
  obtain ⟨_, _, again, first, second, tally, agree⟩ :=
    resting.solve_alike answers.resting similar nonempty flag clock other
  cases done.symm.trans first
  refine ⟨again, second, tally.symm, ?_⟩
  rcases agree with agree | ⟨rfl, refuted, begun, rfl⟩
  · exact agree
  · have recalls := resting.recalls_restart answers.resting kept
    obtain ⟨echo, begunAgain, trail⟩ := resting.rooting_restart.begin_repeats nonempty begun
      ⟨recalls.trail, recalls.clauses, recalls.watches, recalls.variableCount⟩
      ((problem_popTo _ 0).trans kept)
    simp only [solve, answers.resting.faithful.checkUndo, search, begunAgain] at second
    cases second
    exact ⟨congrArg Trail.values trail.symm, fun entry => by
      change entry ∈ refuted.trail.entries ↔ entry ∈ echo.trail.entries
      rw [trail]⟩

end Solve

private theorem exists_of_map_toOption {ε α β : Type} {result : Except ε α} {f : α → β} {value : β}
    (computed : result.toOption.map f = some value) : ∃ found, result = .ok found ∧ f found = value := by
  cases result with
  | error _ => cases computed
  | ok found => exact ⟨found, rfl, Option.some.inj computed⟩

/-- Two solvers that hold the same clauses up to order, whatever they were asked before, give the same
answer with the same counters, and unless the formula is refuted their trails agree. A solver that is
asked again repeats its answer, the counters and the trail in all cases. -/
theorem solve_eq_of_similar (leftReached : Reachable left) (rightReached : Reachable right)
    (variableCount : left.statistics.variableCount = right.statistics.variableCount)
    (decisionLimit : left.options.decisionLimit = right.options.decisionLimit)
    (leftUntimed : left.options.timeLimit = none) (rightUntimed : right.options.timeLimit = none)
    (leftNonempty : left.hasEmptyClause = false) (rightNonempty : right.hasEmptyClause = false)
    (similar : Formula.Similar left.formula right.formula) (clock other third : Clock) :
    ∃ status leftAfter rightAfter again, left.solve clock = .ok (status, leftAfter) ∧
      right.solve other = .ok (status, rightAfter) ∧
      leftAfter.statistics.tally = rightAfter.statistics.tally ∧
      (status ≠ .unsat → Agree leftAfter rightAfter) ∧
      leftAfter.solve third = .ok (status, again) ∧
      again.statistics.tally = leftAfter.statistics.tally ∧ Agree leftAfter again := by
  obtain ⟨status, leftAfter, rightAfter, leftDone, rightDone, tally, agree⟩ :=
    leftReached.resting.solve_alike rightReached.resting
      ⟨decisionLimit, leftUntimed, rightUntimed, similar, variableCount⟩ leftNonempty rightNonempty
      clock other
  obtain ⟨again, repeated⟩ :=
    leftReached.resting.solve_again leftNonempty leftUntimed leftDone third
  refine ⟨status, leftAfter, rightAfter, again, leftDone, rightDone, tally, fun found => ?_, repeated⟩
  exact agree.resolve_right fun refuted => found refuted.1

/-- Four clauses in two orders, the second one after a decision, a search and an assignment: the trails
hold the same literals at the same levels, and their orders differ. -/
theorem solve_eq_of_similar_shuffled :
    ∃ left right leftAfter rightAfter again : Solver, Reachable left ∧ Reachable right ∧
      left.statistics.variableCount = right.statistics.variableCount ∧
      left.options.decisionLimit = right.options.decisionLimit ∧
      left.options.timeLimit = none ∧ right.options.timeLimit = none ∧
      left.hasEmptyClause = false ∧ right.hasEmptyClause = false ∧
      Formula.Similar left.formula right.formula ∧
      left.solve Clock.stopped = .ok (.sat, leftAfter) ∧
      right.solve Clock.stopped = .ok (.sat, rightAfter) ∧
      leftAfter.trail.entries ≠ rightAfter.trail.entries ∧ Agree leftAfter rightAfter ∧
      leftAfter.solve Clock.stopped = .ok (.sat, again) ∧ Agree leftAfter again := by
  let first : List Command :=
    [.addClause #[⟨0, by decide⟩, ⟨2, by decide⟩], .addClause #[⟨1, by decide⟩, ⟨4, by decide⟩],
      .addClause #[⟨1, by decide⟩, ⟨6, by decide⟩],
      .addClause #[⟨5, by decide⟩, ⟨7, by decide⟩, ⟨3, by decide⟩]]
  let second : List Command :=
    [.addClause #[⟨3, by decide⟩, ⟨5, by decide⟩, ⟨7, by decide⟩],
      .addClause #[⟨6, by decide⟩, ⟨1, by decide⟩], .addClause #[⟨4, by decide⟩, ⟨1, by decide⟩],
      .addClause #[⟨2, by decide⟩, ⟨0, by decide⟩], .decide ⟨1, by decide⟩, .solve,
      .assign ⟨0, by decide⟩]
  have leftGiven : ((run Clock.stopped {} first).toOption.map fun solver =>
      (solver.options, solver.hasEmptyClause, solver.statistics.variableCount, solver.formula)) =
      some ({}, false, 4, [[⟨0, by decide⟩, ⟨2, by decide⟩], [⟨1, by decide⟩, ⟨4, by decide⟩],
        [⟨1, by decide⟩, ⟨6, by decide⟩], [⟨5, by decide⟩, ⟨7, by decide⟩, ⟨3, by decide⟩]]) := by
    decide +kernel
  have rightGiven : ((run Clock.stopped {} second).toOption.map fun solver =>
      (solver.options, solver.hasEmptyClause, solver.statistics.variableCount, solver.formula)) =
      some ({}, false, 4, [[⟨3, by decide⟩, ⟨5, by decide⟩, ⟨7, by decide⟩],
        [⟨6, by decide⟩, ⟨1, by decide⟩], [⟨4, by decide⟩, ⟨1, by decide⟩],
        [⟨2, by decide⟩, ⟨0, by decide⟩]]) := by
    decide +kernel
  have leftAnswer : ((run Clock.stopped {} first).toOption.bind fun solver =>
      (solver.solve Clock.stopped).toOption.map fun result =>
        (result.1, result.2.trail.entries.map (·.literal.code))) = some (.sat, [3, 6, 4, 0]) := by
    decide +kernel
  have rightAnswer : ((run Clock.stopped {} second).toOption.bind fun solver =>
      (solver.solve Clock.stopped).toOption.map fun result =>
        result.2.trail.entries.map (·.literal.code)) = some [3, 4, 6, 0] := by
    decide +kernel
  obtain ⟨left, leftDone, leftShape⟩ := exists_of_map_toOption leftGiven
  obtain ⟨right, rightDone, rightShape⟩ := exists_of_map_toOption rightGiven
  simp only [Prod.mk.injEq] at leftShape rightShape
  obtain ⟨leftOptions, leftFlag, leftCount, leftFormula⟩ := leftShape
  obtain ⟨rightOptions, rightFlag, rightCount, rightFormula⟩ := rightShape
  have leftReached := (Reachable.start {} {}).run leftDone
  have rightReached := (Reachable.start {} {}).run rightDone
  have counts : left.statistics.variableCount = right.statistics.variableCount :=
    leftCount.trans rightCount.symm
  have limits : left.options.decisionLimit = right.options.decisionLimit := by
    rw [leftOptions, rightOptions]
  have leftUntimed : left.options.timeLimit = none := by rw [leftOptions]
  have rightUntimed : right.options.timeLimit = none := by rw [rightOptions]
  have similar : Formula.Similar left.formula right.formula := by
    rw [leftFormula, rightFormula]
    exact ⟨[[⟨5, by decide⟩, ⟨7, by decide⟩, ⟨3, by decide⟩], [⟨1, by decide⟩, ⟨6, by decide⟩],
      [⟨1, by decide⟩, ⟨4, by decide⟩], [⟨0, by decide⟩, ⟨2, by decide⟩]], by decide, by
        simp only [List.forall₂_cons, List.forall₂_nil_left_iff]
        decide⟩
  obtain ⟨status, leftAfter, rightAfter, again, leftSolved, rightSolved, -, agree, repeated, -,
    repeats⟩ := solve_eq_of_similar leftReached rightReached counts limits leftUntimed rightUntimed
      leftFlag rightFlag similar Clock.stopped Clock.stopped Clock.stopped
  simp only [leftDone, leftSolved, Except.toOption, Option.bind_some, Option.map_some,
    Option.some.injEq, Prod.mk.injEq] at leftAnswer
  simp only [rightDone, rightSolved, Except.toOption, Option.bind_some, Option.map_some,
    Option.some.injEq] at rightAnswer
  obtain ⟨rfl, leftCodes⟩ := leftAnswer
  refine ⟨left, right, leftAfter, rightAfter, again, leftReached, rightReached, counts, limits,
    leftUntimed, rightUntimed, leftFlag, rightFlag, similar, leftSolved, rightSolved, ?_,
    agree (by simp), repeated, repeats⟩
  intro same
  rw [same, rightAnswer] at leftCodes
  cases leftCodes

end Solver

end Dpll
