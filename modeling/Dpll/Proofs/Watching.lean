import Dpll.Proofs.Operations
import Dpll.Proofs.Saturation

/-!
# What the guard gives

In a settled solver no clause goes unnoticed: none is false in all literals, and a clause without a
true literal has two undecided positions. Once the unit clauses are true its valuation is stable, so
propagation by watches ends at the table that looking at all clauses ends at.
-/

set_option autoImplicit false

namespace Dpll

namespace Solver

variable {solver : Solver} {clause : Clause}

namespace Settled

theorem exists_partner (settled : solver.Settled) (member : clause ∈ solver.clauses) {slot : Slot}
    (false_ : (clause.watched slot).value solver.model = .fails) :
    ∃ low high, low ≤ high ∧ ⟨clause.watched slot.other, low⟩ ∈ solver.trail.entries ∧
      ⟨(clause.watched slot).negate, high⟩ ∈ solver.trail.entries := by
  obtain ⟨high, negated⟩ := settled.faithful.fails_iff.mp false_
  obtain ⟨low, order, partner⟩ := settled.guarded (high + 1) clause member slot high
    (Nat.lt_succ_self high) negated
  exact ⟨low, high, order, partner, negated⟩

theorem partner_holds (settled : solver.Settled) (member : clause ∈ solver.clauses) {slot : Slot}
    (false_ : (clause.watched slot).value solver.model = .fails) :
    (clause.watched slot.other).value solver.model = .holds := by
  obtain ⟨_, _, -, partner, -⟩ := settled.exists_partner member false_
  exact settled.faithful.holds partner

theorem exists_not_fails (settled : solver.Settled) (member : clause ∈ solver.clauses) :
    ∃ literal ∈ clause.literals, literal.value solver.model ≠ .fails := by
  by_cases false_ : (clause.watched .first).value solver.model = .fails
  · have true_ := settled.partner_holds member false_
    refine ⟨_, clause.watched_mem (Slot.other .first), ?_⟩
    rw [true_]
    simp
  · exact ⟨_, clause.watched_mem _, false_⟩

private theorem watched_unset (settled : solver.Settled) (member : clause ∈ solver.clauses)
    (noneTrue : ∀ literal ∈ clause.literals, literal.value solver.model ≠ .holds) (slot : Slot) :
    (clause.watched slot).value solver.model = .unset := by
  cases value : (clause.watched slot).value solver.model with
  | holds => exact absurd value (noneTrue _ (clause.watched_mem slot))
  | fails =>
      exact absurd (settled.partner_holds member value) (noneTrue _ (clause.watched_mem _))
  | unset => rfl

theorem two_unset (settled : solver.Settled) (member : clause ∈ solver.clauses)
    (long : 2 ≤ clause.literals.size)
    (noneTrue : ∀ literal ∈ clause.literals, literal.value solver.model ≠ .holds) :
    ∃ left right : Fin clause.literals.size, left ≠ right ∧
      (clause.literalAt left).value solver.model = .unset ∧
      (clause.literalAt right).value solver.model = .unset := by
  refine ⟨clause.first, clause.second, ?_, settled.watched_unset member noneTrue .first,
    settled.watched_unset member noneTrue .second⟩
  intro same
  have single := settled.tracks.apart clause member same
  omega

/-- A clause of which all positions but one are false, and that one undecided, has one literal. -/
theorem single_of_falseBut (settled : solver.Settled) (member : clause ∈ solver.clauses)
    {position : Nat} {literal : Literal} (here : clause.literals.toList[position]? = some literal)
    (free : literal.value solver.model = .unset)
    (others : Formula.FalseBut solver.model clause.literals.toList position) :
    clause.literals.toList = [literal] := by
  have noneTrue : ∀ other ∈ clause.literals, other.value solver.model ≠ .holds := by
    intro other inClause true_
    obtain ⟨place, atPlace⟩ := List.mem_iff_getElem?.mp (Array.mem_toList_iff.mpr inClause)
    by_cases same : place = position
    · rw [same, here] at atPlace
      cases atPlace
      rw [free] at true_
      cases true_
    · rw [others place other same atPlace] at true_
      cases true_
  have undecided : ∀ slot, (clause.position slot).val = position := by
    intro slot
    apply Classical.byContradiction
    intro elsewhere
    have false_ := others _ (clause.watched slot) elsewhere
      (by simp [Clause.watched, Clause.literalAt])
    rw [settled.watched_unset member noneTrue slot] at false_
    cases false_
  have same : clause.first = clause.second :=
    Fin.ext ((undecided .first).trans (undecided .second).symm)
  have single : clause.literals.toList.length = 1 := settled.tracks.apart clause member same
  obtain ⟨only, shape⟩ := List.length_eq_one_iff.mp single
  rw [shape] at here ⊢
  rw [List.mem_singleton.mp (List.mem_of_getElem? here)]

/-- With the unit clauses true, no clause is false and none leaves a literal. -/
theorem stable (settled : solver.Settled)
    (units : ∀ literal, [literal] ∈ solver.formula → literal.value solver.model = .holds) :
    Formula.Stable solver.formula solver.model := by
  intro literals inFormula
  obtain ⟨clause, member, rfl⟩ := mem_formula_iff.mp inFormula
  constructor
  · obtain ⟨literal, inClause, notFalse⟩ := settled.exists_not_fails member
    refine Bool.eq_false_iff.mpr fun refuted => notFalse ?_
    exact Formula.refuted_iff.mp refuted literal (Array.mem_toList_iff.mpr inClause)
  · cases left : Formula.unitLiteral? solver.model clause.literals.toList with
    | none => rfl
    | some literal =>
        obtain ⟨free, position, here, others⟩ := Formula.unitLiteral?_eq_some_iff.mp left
        have single := settled.single_of_falseBut member here free others
        rw [units literal (single ▸ inFormula)] at free
        cases free

end Settled

variable {before after : Solver} {bound : Nat} {conflict : Option Conflict}

theorem Refutes.denied {solver : Solver} {reason : Conflict} (refutes : solver.Refutes reason)
    (faithful : solver.trail.Faithful) :
    ∃ clause ∈ solver.formula, ∀ literal ∈ clause,
      ∃ low, ⟨literal.negate, low⟩ ∈ solver.trail.entries := by
  obtain ⟨ref, clause, -, found, fails⟩ := refutes
  refine ⟨_, mem_formula (ClauseStore.mem_of_get? found), fun literal inClause => ?_⟩
  exact faithful.fails_iff.mp (fails literal (Array.mem_toList_iff.mp inClause))

theorem Propagated.excludes (propagated : Propagated before bound conflict after)
    (met : conflict.isSome = true) : Formula.Excludes after.formula after.trail.entries := by
  obtain ⟨reason, same⟩ := Option.isSome_iff_exists.mp met
  obtain ⟨clause, member, denied⟩ :=
    (propagated.refutes reason same).denied propagated.resting.faithful
  exact .of_refuted member denied

/-- After a conflict no stable valuation makes the entries true that propagation started from. -/
theorem Propagated.not_stable (propagated : Propagated before bound conflict after)
    (met : conflict.isSome = true) {values : Valuation}
    (known : ∀ entry ∈ before.trail.entries, entry.literal.value values = .holds) :
    ¬ Formula.Stable before.formula values := by
  intro stable
  obtain ⟨reason, same⟩ := Option.isSome_iff_exists.mp met
  obtain ⟨clause, member, denied⟩ :=
    (propagated.refutes reason same).denied propagated.resting.faithful
  rw [propagated.continues.formula] at member
  have reached := propagated.growth.holds_of_stable stable known
  have refuted : Formula.refuted values clause = true := by
    refine Formula.refuted_iff.mpr fun literal inClause => ?_
    obtain ⟨low, negated⟩ := denied literal inClause
    exact Literal.value_eq_fails_iff.mpr (reached _ negated)
  rw [(stable clause member).1] at refuted
  cases refuted

theorem Intact.fits (intact : before.Intact) : Formula.Fits before.formula before.model.size := by
  intro clause member literal inClause
  change literal.var < before.trail.values.size
  rw [intact.sized]
  exact intact.covers_var member inClause

/-- Propagation by watches and saturation agree, in the conflict as in the table. -/
theorem Propagated.saturate? (propagated : Propagated before bound conflict after)
    (intact : before.Intact) (settled : conflict = none → after.Settled)
    (units : ∀ literal, [literal] ∈ before.formula → literal.value before.model = .holds) :
    Formula.saturate? before.formula before.model.size before.model =
      if conflict.isSome then none else some after.model := by
  have sizes : after.model.size = before.model.size := by
    change after.trail.values.size = before.trail.values.size
    rw [propagated.resting.sized, intact.sized, propagated.continues.variableCount]
  have larger : before.model.Within after.model := by
    intro literal true_
    obtain ⟨level, member⟩ := (intact.faithful.holds_iff literal).mp true_
    exact propagated.resting.faithful.holds (propagated.growth.subset member)
  have known : ∀ closed : Valuation, before.model.Within closed →
      ∀ entry ∈ before.trail.entries, entry.literal.value closed = .holds :=
    fun closed within entry member => within _ (intact.faithful.holds member)
  have stable : conflict = none → Formula.Stable before.formula after.model := by
    intro none_
    rw [← propagated.continues.formula]
    exact (settled none_).stable fun literal unit =>
      larger literal (units literal (propagated.continues.formula ▸ unit))
  cases result : Formula.saturate? before.formula before.model.size before.model with
  | none =>
      cases conflict with
      | some reason => rfl
      | none => exact absurd (stable rfl) (Formula.not_stable_of_saturate? intact.fits result larger)
  | some closed =>
      obtain ⟨closedStable, within, size, least⟩ :=
        Formula.stable_of_saturate? intact.fits result
      cases conflict with
      | some reason =>
          exact absurd closedStable (propagated.not_stable rfl (known closed within))
      | none =>
          have equal : closed = after.model := by
            refine Valuation.Within.antisymm (size.trans sizes.symm) ?_
              (least after.model larger (stable rfl)) ?_
            · rw [size, show before.model.size = before.statistics.variableCount from intact.sized]
              exact intact.small
            · intro literal true_
              obtain ⟨level, member⟩ :=
                (propagated.resting.faithful.holds_iff literal).mp true_
              exact propagated.growth.holds_of_stable closedStable (known closed within) _ member
          simp [equal]

end Solver

end Dpll
