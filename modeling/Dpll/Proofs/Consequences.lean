import Dpll.Proofs.Sessions

/-!
# Propagation reaches the unit consequences

Making a literal true adds to the trail what follows from it by clauses that are left with one literal,
and nothing else. Growth by forced literals stays among these consequences, and a settled solver has
no consequence that is not on its trail, although only clauses that watch a false literal are ever
looked at.
-/

set_option autoImplicit false

namespace Dpll

theorem Growth.forced {formula : Formula} {level : Nat} {base entries : List Entry}
    {known : Literal → Prop} (growth : Growth formula level base entries)
    (start : ∀ entry ∈ base, known entry.literal) :
    ∀ entry ∈ entries, formula.Forced known entry.literal := by
  induction growth with
  | base => exact fun entry member => .given (start entry member)
  | force _ member long found others ih =>
      intro entry inEntries
      rcases List.mem_cons.mp inEntries with rfl | older
      · apply Formula.Forced.left member long found
        intro place other elsewhere atPlace
        obtain ⟨low, negated⟩ := others place other elsewhere atPlace
        exact ih _ negated
      · exact ih entry older

namespace Solver

variable {solver after : Solver} {literal : Literal} {conflict : Option Conflict}

/-- The literals that follow from those that are true and from one more. -/
def Consequence (solver : Solver) (literal : Literal) : Literal → Prop :=
  Formula.Forced solver.formula fun known => known.value solver.model = .holds ∨ known = literal

def entriesWith (solver : Solver) (literal : Literal) : List Entry :=
  if literal.value solver.model = .holds then solver.trail.entries
  else ⟨literal, solver.level⟩ :: solver.trail.entries

/-- What becomes of a solver that makes a literal true. Each further entry has a clause whose other
positions are false by older entries, and there is a conflict exactly if some clause is false by the
consequences. -/
structure Derives (before : Solver) (literal : Literal) (conflict : Option Conflict) (after : Solver) :
    Prop where
  growth : Growth before.formula before.level (before.entriesWith literal) after.trail.entries
  distinct : after.trail.entries.Pairwise fun newer older => newer.literal.var ≠ older.literal.var
  sound : ∀ entry ∈ after.trail.entries, before.Consequence literal entry.literal
  complete : conflict = none → ∀ other, other.value after.model = .holds ↔
    before.Consequence literal other
  conflict_iff : conflict = none ↔
    ¬ ∃ clause ∈ before.formula, ∀ other ∈ clause, before.Consequence literal other.negate
  refuted : ∀ reason, conflict = some reason → ∃ ref clause, reason = .clause ref ∧
    before.formula[ref.index]? = some clause ∧ ∀ other ∈ clause, other.value after.model = .fails

/-- The guard of a solver at rest and what it means for values and levels are the same. -/
theorem Resting.settled_iff (resting : solver.Resting) : solver.Settled ↔ solver.WatchInvariant := by
  constructor
  · intro settled
    exact {
      partner := fun _ member _ false_ =>
        ⟨settled.partner_holds member false_, settled.exists_partner member false_⟩
      notRefuted := fun _ member => settled.exists_not_fails member
      twoUnset := fun _ member long noneTrue => settled.two_unset member long noneTrue }
  · intro invariant
    refine ⟨resting, ?_⟩
    intro bound clause member slot high below negated
    have false_ := resting.faithful.fails_iff.mpr ⟨high, negated⟩
    obtain ⟨-, low, level, order, partner, recorded⟩ := invariant.partner clause member slot false_
    cases resting.faithful.eq_of_var_eq recorded negated rfl
    exact ⟨low, order, partner⟩

/-- In a settled solver the true literals are closed: a clause with one position left has it true. -/
theorem Settled.holds_of_falseBut (settled : solver.Settled) {clause : List Literal}
    (member : clause ∈ solver.formula) (long : 2 ≤ clause.length) {position : Nat}
    (here : clause[position]? = some literal)
    (others : Formula.FalseBut solver.model clause position) :
    literal.value solver.model = .holds := by
  obtain ⟨stored, inStore, rfl⟩ := mem_formula_iff.mp member
  cases value : literal.value solver.model with
  | holds => rfl
  | fails =>
      obtain ⟨other, inClause, notFalse⟩ := settled.exists_not_fails inStore
      obtain ⟨place, atPlace⟩ := List.mem_iff_getElem?.mp (Array.mem_toList_iff.mpr inClause)
      by_cases same : place = position
      · rw [same, here] at atPlace
        cases atPlace
        exact absurd value notFalse
      · exact absurd (others place other same atPlace) notFalse
  | unset =>
      rw [settled.single_of_falseBut inStore here value others] at long
      exact absurd long (by simp)

private theorem Settled.holds_of_forced (settled : solver.Settled) {known : Literal → Prop}
    (start : ∀ other, known other → other.value solver.model = .holds)
    (forced : Formula.Forced solver.formula known literal) : literal.value solver.model = .holds := by
  induction forced with
  | given given => exact start _ given
  | left member long here _ ih =>
      apply settled.holds_of_falseBut member long here
      intro place other elsewhere atPlace
      exact Literal.value_eq_fails_iff.mpr (ih place other elsewhere atPlace)

private theorem entriesWith_iff (faithful : solver.trail.Faithful) (other : Literal) :
    (∃ level, ⟨other, level⟩ ∈ solver.entriesWith literal) ↔
      other.value solver.model = .holds ∨ other = literal := by
  have recorded := faithful.holds_iff other
  unfold entriesWith
  split
  · next true_ =>
    rw [← recorded]
    constructor
    · exact .inl
    · rintro (holds | rfl)
      · exact holds
      · exact true_
  · constructor
    · rintro ⟨level, member⟩
      rcases List.mem_cons.mp member with same | older
      · exact .inr (congrArg Entry.literal same)
      · exact .inl (recorded.mpr ⟨level, older⟩)
    · rintro (holds | rfl)
      · obtain ⟨level, member⟩ := recorded.mp holds
        exact ⟨level, .tail _ member⟩
      · exact ⟨solver.level, .head _⟩

theorem Refutes.formula {reason : Conflict} (refutes : solver.Refutes reason) :
    ∃ ref clause, reason = .clause ref ∧ solver.formula[ref.index]? = some clause ∧
      ∀ other ∈ clause, other.value solver.model = .fails := by
  obtain ⟨ref, clause, rfl, found, fails⟩ := refutes
  refine ⟨ref, clause.literals.toList, rfl, ?_, fun other inClause =>
    fails other (Array.mem_toList_iff.mp inClause)⟩
  have stored : solver.clauses[ref.index]? = some clause := found
  simp [Solver.formula, stored]

/-- Growth that ends settled or with a false clause derives all there is to derive. -/
theorem Derives.of_growth (faithful : solver.trail.Faithful)
    (growth : Growth solver.formula solver.level (solver.entriesWith literal) after.trail.entries)
    (formula : after.formula = solver.formula) (resting : after.Resting)
    (settled : conflict = none → after.Settled)
    (refutes : ∀ reason, conflict = some reason → after.Refutes reason) :
    Derives solver literal conflict after := by
  have sound : ∀ entry ∈ after.trail.entries, solver.Consequence literal entry.literal :=
    growth.forced fun entry member => (entriesWith_iff faithful _).mp ⟨entry.level, member⟩
  have refuted : ∀ reason, conflict = some reason → ∃ ref clause, reason = .clause ref ∧
      solver.formula[ref.index]? = some clause ∧
      ∀ other ∈ clause, other.value after.model = .fails := by
    intro reason met
    rw [← formula]
    exact (refutes reason met).formula
  have complete : conflict = none → ∀ other, other.value after.model = .holds ↔
      solver.Consequence literal other := by
    intro peaceful other
    constructor
    · intro true_
      obtain ⟨level, member⟩ := (resting.faithful.holds_iff other).mp true_
      exact sound _ member
    · intro consequence
      unfold Consequence at consequence
      rw [← formula] at consequence
      refine (settled peaceful).holds_of_forced (fun known given => ?_) consequence
      obtain ⟨level, member⟩ := (entriesWith_iff faithful known).mpr given
      exact resting.faithful.holds (growth.subset member)
  refine ⟨growth, resting.faithful.distinct, sound, complete, ?_, refuted⟩
  constructor
  · rintro peaceful ⟨clause, member, denied⟩
    rw [← formula] at member
    obtain ⟨stored, inStore, rfl⟩ := mem_formula_iff.mp member
    obtain ⟨other, inClause, notFalse⟩ := (settled peaceful).exists_not_fails inStore
    apply notFalse
    rw [Literal.value_eq_fails_iff, complete peaceful]
    exact denied other (Array.mem_toList_iff.mpr inClause)
  · intro consistent
    cases met : conflict with
    | none => rfl
    | some reason =>
        obtain ⟨ref, clause, -, found, fails⟩ := refuted reason met
        refine absurd ⟨clause, List.mem_of_getElem? found, fun other inClause => ?_⟩ consistent
        obtain ⟨level, negated⟩ := resting.faithful.fails_iff.mp (fails other inClause)
        exact sound _ negated

private theorem Assigned.derives {wide : Solver} {count : Nat} (settled : solver.Settled)
    (widened : Widened solver count wide)
    (assigned : Assigned wide literal (solver.level + 1) conflict after)
    (open_ : literal.value solver.model ≠ .fails) : Derives solver literal conflict after := by
  have level : wide.level = solver.level := widened.level
  unfold Assigned at assigned
  rw [widened.values] at assigned
  cases value : literal.value solver.model with
  | fails => exact absurd value open_
  | holds =>
      rw [value] at assigned
      obtain ⟨rfl, rfl⟩ := assigned
      have kept := widened.resting settled.idle
      refine .of_growth settled.faithful ?_ widened.formula kept (fun _ => ⟨kept, fun bound =>
        widened.guarded (settled.guarded bound)⟩) (by intro reason impossible; cases impossible)
      rw [widened.entries, entriesWith, if_pos value]
      exact .base
  | unset =>
      rw [value] at assigned
      have pushed : (wide.pushed literal).trail.entries = solver.entriesWith literal := by
        rw [entriesWith, if_neg (by simp [value]), ← widened.entries, ← level]
        rfl
      have grown := assigned.growth
      have formula : (wide.pushed literal).formula = solver.formula := widened.formula
      rw [pushed, formula, show (wide.pushed literal).level = solver.level from level] at grown
      refine .of_growth settled.faithful grown (assigned.continues.formula.trans formula)
        assigned.resting ?_ assigned.refutes
      rintro rfl
      exact assigned.settled (Nat.lt_succ_of_le (Nat.le_of_eq level))

/-- Making a literal true in a solver that keeps the watch invariant. It is rejected, and nothing but
the journal changes, exactly if its negation is true. Otherwise its consequences are derived. -/
theorem assign_derives (resting : solver.Resting) (invariant : solver.WatchInvariant)
    (fits : literal.var + 1 < variableLimit) :
    ∃ conflict after, solver.assign literal = .ok (conflict, after) ∧
      (conflict = some (.assignment literal) ↔ literal.negate.value solver.model = .holds) ∧
      (conflict = some (.assignment literal) → after.trail = solver.trail ∧
        after.clauses = solver.clauses ∧ after.watches = solver.watches ∧
        after.statistics = solver.statistics) ∧
      (literal.negate.value solver.model ≠ .holds → Derives solver literal conflict after) := by
  rw [← Literal.value_eq_fails_iff]
  by_cases false_ : literal.value solver.model = .fails
  · have room : literal.var + 1 ≤ solver.statistics.variableCount := by
      rw [← resting.sized]
      obtain ⟨level, member⟩ := resting.faithful.fails_iff.mp false_
      exact Literal.var_negate literal ▸ resting.faithful.covers member
    exact ⟨_, _, assign_of_fails room false_, by simp [false_], fun _ => ⟨rfl, rfl, rfl, rfl⟩,
      fun open_ => absurd (Literal.value_eq_fails_iff.mp false_) open_⟩
  · have settled := resting.settled_iff.mpr invariant
    obtain ⟨wide, conflict, after, widened, done, assigned⟩ :=
      resting.exists_assign (settled.guarded (solver.level + 1)) fits
    have derives := assigned.derives settled widened false_
    have accepted : conflict ≠ some (.assignment literal) := by
      intro rejected
      obtain ⟨ref, clause, impossible, -⟩ := derives.refuted _ rejected
      cases impossible
    exact ⟨conflict, after, done, by simp [false_, accepted],
      fun rejected => absurd rejected accepted, fun _ => derives⟩

/-- A session that recovers from a conflict with moved watches, and then makes a literal true that
forces two more, one of them through a clause that repeats a literal. -/
theorem assign_derives_after_recovery :
    let literal : Literal := ⟨1, by decide⟩
    literal.var + 1 < variableLimit ∧ ∃ solver, solver.Resting ∧ solver.WatchInvariant ∧
      solver.model = #[.unset, .unset, .unset, .holds] ∧
      ∃ after, solver.assign literal = .ok (none, after) ∧
        after.model = #[.fails, .holds, .holds, .holds] ∧ Derives solver literal none after := by
  intro literal
  let commands : List Command :=
    [.addClause #[⟨0, by decide⟩, ⟨2, by decide⟩, ⟨0, by decide⟩],
      .addClause #[⟨3, by decide⟩, ⟨4, by decide⟩],
      .addClause #[⟨5, by decide⟩, ⟨0, by decide⟩, ⟨6, by decide⟩],
      .decide ⟨7, by decide⟩, .decide literal, .backtrackTo 1, .decide ⟨6, by decide⟩]
  have fits : literal.var + 1 < variableLimit := by decide
  have computed : ((follow? Clock.stopped {} false commands).map fun result =>
      (result.1.model, result.2, (result.1.assign literal).toOption.map fun made =>
        (made.1, made.2.model))) =
        some (#[.unset, .unset, .unset, .holds], false,
          some (none, #[.fails, .holds, .holds, .holds])) := by
    decide +kernel
  obtain ⟨⟨solver, flag⟩, followed, same⟩ := Option.map_eq_some_iff.mp computed
  obtain ⟨model, rest⟩ := Prod.mk.inj same
  obtain ⟨rfl, outcome⟩ := Prod.mk.inj rest
  have disciplined := (Disciplined.start {} {}).follow? followed
  have resting := disciplined.reachable.resting
  have invariant := resting.settled_iff.mp disciplined.guardedAfter
  obtain ⟨conflict, after, done, -, -, derives⟩ := assign_derives resting invariant fits
  rw [done] at outcome
  obtain ⟨rfl, values⟩ : conflict = none ∧ after.model = #[.fails, .holds, .holds, .holds] := by
    simpa [Except.toOption] using outcome
  have open_ : literal.negate.value solver.model ≠ .holds := by
    rw [model]
    decide
  exact ⟨fits, solver, resting, invariant, model, after, done, values, derives open_⟩

end Solver

end Dpll
