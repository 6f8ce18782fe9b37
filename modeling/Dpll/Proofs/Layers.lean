import Dpll.Engine.Solver
import Dpll.Formula.Order
import Dpll.Proofs.Saturation

/-!
# The layers of a search

The trail of a running search is built in layers: what the unit clauses lead to lies at the bottom,
and every open decision adds its literal and what that one leads to. `Layered` describes such a trail
without mentioning the solver. Main statement: an assignment that satisfies the formula either agrees
with all the entries, or falls below them at the first variable on which it does not.
-/

set_option autoImplicit false

namespace Dpll

inductive Rooted (formula : Formula) : List Entry → Prop where
  | nil : Rooted formula []
  | unit {entries : List Entry} {literal : Literal} :
      Rooted formula entries → [literal] ∈ formula → Rooted formula (⟨literal, 0⟩ :: entries)
  | grow {base entries : List Entry} :
      Rooted formula base → Growth formula 0 base entries → Rooted formula entries

namespace Rooted

variable {formula : Formula} {entries : List Entry}

theorem level_eq (rooted : Rooted formula entries) : ∀ entry ∈ entries, entry.level = 0 := by
  induction rooted with
  | nil => simp
  | unit _ _ ih => simpa using ih
  | grow _ growth ih =>
      intro entry member
      exact (growth.mem_or_level_eq member).elim (ih entry) id

theorem holds (rooted : Rooted formula entries) {assignment : Assignment}
    (satisfied : formula.Satisfied assignment) :
    ∀ entry ∈ entries, entry.literal.Holds assignment := by
  induction rooted with
  | nil => simp
  | unit _ member ih =>
      intro entry inEntries
      rcases List.mem_cons.mp inEntries with rfl | older
      · simpa using satisfied _ member
      · exact ih entry older
  | grow _ growth ih => exact growth.holds satisfied ih

theorem holds_of_stable (rooted : Rooted formula entries) {values : Valuation}
    (stable : formula.Stable values) : ∀ entry ∈ entries, entry.literal.value values = .holds := by
  induction rooted with
  | nil => simp
  | unit _ member ih =>
      intro entry inEntries
      rcases List.mem_cons.mp inEntries with rfl | older
      · exact stable.unit_holds member
      · exact ih entry older
  | grow _ growth ih => exact growth.holds_of_stable stable ih

theorem excludes (rooted : Rooted formula entries) (excluded : formula.Excludes entries) :
    formula.Excludes [] := by
  intro assignment satisfied
  obtain ⟨entry, member, fails⟩ := excluded assignment satisfied
  exact absurd (rooted.holds satisfied entry member) fails

end Rooted

/-- The literal that a decision stands for at present, over the entries below it. The variable was the
lowest undecided one, and after a turn the positive literal is known to be a dead end. -/
structure Decision.Choice (decision : Decision) (formula : Formula) (base : List Entry)
    (literal : Literal) : Prop where
  var_eq : literal.var = decision.var
  positive_eq : literal.positive = !decision.flipped
  undecided : ∀ entry ∈ base, entry.literal.var ≠ decision.var
  lowest : ∀ var < decision.var, ∃ entry ∈ base, entry.literal.var = var
  refuted : decision.flipped = true →
    formula.Excludes (⟨literal.negate, decision.level⟩ :: base)

inductive Layered (formula : Formula) : List Decision → List Entry → Prop where
  | root {entries : List Entry} :
      Rooted formula entries → (∀ literal, [literal] ∈ formula → ⟨literal, 0⟩ ∈ entries) →
      Layered formula [] entries
  | layer {decision : Decision} {outer : List Decision} {base entries : List Entry}
      {literal : Literal} :
      Layered formula outer base → decision.level = outer.length + 1 →
      decision.Choice formula base literal →
      Growth formula decision.level (⟨literal, decision.level⟩ :: base) entries →
      Layered formula (decision :: outer) entries

/-- The assignment agrees with the entries on all variables up to one at which it is false and they
are true. -/
def Assignment.FallsBelow (assignment : Assignment) (entries : List Entry) : Prop :=
  ∃ entry ∈ entries, entry.literal.positive = true ∧ ¬ entry.literal.Holds assignment ∧
    ∀ var < entry.literal.var, ∃ lower ∈ entries,
      lower.literal.var = var ∧ lower.literal.Holds assignment

theorem Assignment.FallsBelow.mono {assignment : Assignment} {base entries : List Entry}
    (below : assignment.FallsBelow base) (subset : base ⊆ entries) :
    assignment.FallsBelow entries := by
  obtain ⟨entry, member, positive, fails, agree⟩ := below
  refine ⟨entry, subset member, positive, fails, fun var lower => ?_⟩
  obtain ⟨other, inBase, same, holds⟩ := agree var lower
  exact ⟨other, subset inBase, same, holds⟩

namespace Layered

variable {formula : Formula} {decision : Decision} {decisions outer : List Decision}
  {base entries : List Entry} {literal : Literal}

theorem level_le (layered : Layered formula decisions entries) :
    ∀ entry ∈ entries, entry.level ≤ decisions.length := by
  induction layered with
  | root rooted _ =>
      intro entry member
      exact Nat.le_of_eq (rooted.level_eq entry member)
  | layer _ opened _ growth ih =>
      simp only [List.length_cons, ← opened]
      refine growth.level_le fun entry member => ?_
      rcases List.mem_cons.mp member with rfl | older
      · exact Nat.le_refl _
      · rw [opened]
        exact Nat.le_succ_of_le (ih entry older)

theorem level_lt (layered : Layered formula outer base)
    (opened : decision.level = outer.length + 1) : ∀ entry ∈ base, entry.level < decision.level := by
  intro entry member
  rw [opened]
  exact Nat.lt_succ_of_le (layered.level_le entry member)

theorem unit_mem (layered : Layered formula decisions entries) (unit : [literal] ∈ formula) :
    ⟨literal, 0⟩ ∈ entries := by
  induction layered with
  | root _ units => exact units literal unit
  | layer _ _ _ growth ih => exact growth.subset (.tail _ ih)

/-- Undoing the innermost decision uncovers the layers below it. -/
theorem uncover (layered : Layered formula (decision :: outer) entries) :
    ∃ literal,
      Layered formula outer (entries.filter (·.level < decision.level)) ∧
      decision.level = outer.length + 1 ∧
      decision.Choice formula (entries.filter (·.level < decision.level)) literal ∧
      Growth formula decision.level
        (⟨literal, decision.level⟩ :: entries.filter (·.level < decision.level)) entries := by
  cases layered with
  | @layer _ _ base _ literal below opened choice growth =>
      rw [growth.filter_eq (below.level_lt opened)]
      exact ⟨literal, below, opened, choice, growth⟩

/-- When the turned innermost decision is a dead end, so are the layers below it. -/
theorem excludes_uncovered (layered : Layered formula (decision :: outer) entries)
    (flipped : decision.flipped = true) (excluded : formula.Excludes entries) :
    formula.Excludes (entries.filter (·.level < decision.level)) := by
  obtain ⟨literal, -, -, choice, growth⟩ := layered.uncover
  exact .of_both (excluded.of_growth growth) (choice.refuted flipped)

/-- No assignment that satisfies the formula lies above the entries. -/
theorem holds_or_fallsBelow (layered : Layered formula decisions entries)
    {assignment : Assignment} (satisfied : formula.Satisfied assignment) :
    (∀ entry ∈ entries, entry.literal.Holds assignment) ∨ assignment.FallsBelow entries := by
  induction layered with
  | root rooted _ => exact .inl (rooted.holds satisfied)
  | @layer decision outer base entries literal _ _ choice growth ih =>
      have subset : base ⊆ entries := fun _ member => growth.subset (.tail _ member)
      rcases ih with agree | below
      · by_cases holds : literal.Holds assignment
        · refine .inl (growth.holds satisfied fun entry member => ?_)
          rcases List.mem_cons.mp member with rfl | older
          · exact holds
          · exact agree entry older
        · cases flipped : decision.flipped with
          | true =>
              obtain ⟨entry, member, fails⟩ := choice.refuted flipped assignment satisfied
              rcases List.mem_cons.mp member with rfl | older
              · exact absurd ((Literal.holds_negate_iff assignment literal).mpr holds) fails
              · exact absurd (agree entry older) fails
          | false =>
              refine .inr ⟨_, growth.subset (.head _), ?_, holds, fun var lower => ?_⟩
              · simpa [flipped] using choice.positive_eq
              · obtain ⟨entry, member, same⟩ := choice.lowest var (choice.var_eq ▸ lower)
                exact ⟨entry, subset member, same, agree entry member⟩
      · exact .inr (below.mono subset)

end Layered

end Dpll
