import Dpll.Proofs.Propagation

/-!
# Operations on solver states

Each operation that a user may ask for, and each that the search is made of, is described once: which
states it leads to, and that it breaks no precondition on tables that fit in memory.
-/

set_option autoImplicit false

namespace Dpll.Solver

structure Settled (solver : Solver) : Prop extends Resting solver where
  guarded (bound : Nat) : solver.clauses.Guarded solver.trail.entries bound 0

variable {solver : Solver} {literal : Literal} {bound : Nat}

/-! ## Undoing levels -/

section Undo

variable (solver : Solver) (level : Nat)

private theorem popTo_eq : solver.popTo level =
    { solver with
      trail := solver.trail.popTo level
      journal := (solver.popTo level).journal } := by
  simp only [popTo]
  split <;> rfl

@[simp] theorem trail_popTo : (solver.popTo level).trail = solver.trail.popTo level := by
  rw [popTo_eq]

@[simp] theorem clauses_popTo : (solver.popTo level).clauses = solver.clauses := by
  rw [popTo_eq]

@[simp] theorem watches_popTo : (solver.popTo level).watches = solver.watches := by
  rw [popTo_eq]

@[simp] theorem statistics_popTo : (solver.popTo level).statistics = solver.statistics := by
  rw [popTo_eq]

@[simp] theorem options_popTo : (solver.popTo level).options = solver.options := by
  rw [popTo_eq]

@[simp] theorem hasEmptyClause_popTo :
    (solver.popTo level).hasEmptyClause = solver.hasEmptyClause := by
  rw [popTo_eq]

@[simp] theorem decisions_popTo : (solver.popTo level).decisions = solver.decisions := by
  rw [popTo_eq]

@[simp] theorem formula_popTo : (solver.popTo level).formula = solver.formula := by
  simp [formula]

end Undo

theorem Resting.popTo (resting : solver.Resting) (level : Nat) : (solver.popTo level).Resting where
  faithful := by rw [trail_popTo]; exact resting.faithful.popTo level
  tracks := by simpa using resting.tracks
  sized := by simpa [Trail.size_popTo] using resting.sized
  small := by simpa using resting.small
  idle := by rw [trail_popTo]; exact Trail.pending_popTo resting.idle level

/-- Undoing the levels at which the guard may be broken restores it, though no watch moves back. -/
theorem Resting.settled_popTo (resting : solver.Resting)
    (guarded : solver.clauses.Guarded solver.trail.entries bound 0) {level : Nat}
    (low : level ≤ bound) : (solver.popTo level).Settled where
  toResting := resting.popTo level
  guarded higher := by
    rw [clauses_popTo, trail_popTo, Trail.entries_popTo resting.faithful]
    exact guarded.filter low

theorem Resting.backtrackTo (resting : solver.Resting) (level : Nat) :
    (solver.backtrackTo level).Resting :=
  (resting.popTo level).transfer rfl rfl rfl rfl

theorem Resting.settled_backtrackTo (resting : solver.Resting)
    (guarded : solver.clauses.Guarded solver.trail.entries bound 0) {level : Nat}
    (low : level ≤ bound) : (solver.backtrackTo level).Settled :=
  ⟨resting.backtrackTo level, (resting.settled_popTo guarded low).guarded⟩

structure Cleared (solver : Solver) : Prop extends Resting solver where
  entries : solver.trail.entries = []
  level : solver.trail.level = 0
  decisions : solver.decisions = []

theorem Cleared.settled (cleared : solver.Cleared) : solver.Settled where
  toResting := cleared.toResting
  guarded bound := by rw [cleared.entries]; exact .nil _ _ _

theorem Resting.reset (resting : solver.Resting) : solver.reset.Cleared where
  toResting := resting.backtrackTo 0
  entries := by
    change (solver.popTo 0).trail.entries = []
    rw [trail_popTo, Trail.entries_popTo_zero resting.faithful]
  level := by
    change (solver.popTo 0).trail.level = 0
    rw [trail_popTo]
    exact Nat.min_zero _
  decisions := by
    simp [Solver.reset, Solver.backtrackTo]

/-! ## Growing the tables -/

structure Widened (before : Solver) (count : Nat) (after : Solver) : Prop where
  intact : after.Intact
  options : after.options = before.options
  hasEmptyClause : after.hasEmptyClause = before.hasEmptyClause
  clauses : after.clauses = before.clauses
  decisions : after.decisions = before.decisions
  entries : after.trail.entries = before.trail.entries
  level : after.trail.level = before.trail.level
  pending : after.trail.pending = before.trail.pending
  values : ∀ literal : Literal, literal.value after.model = literal.value before.model
  statistics : after.statistics =
    { before.statistics with
      variableCount := max before.statistics.variableCount count }
  journal : after.journal = before.journal

theorem ensureVariables_of_le {count : Nat} (room : count ≤ solver.statistics.variableCount) :
    solver.ensureVariables count = .ok solver := by
  simp [ensureVariables, room]

theorem Intact.exists_ensureVariables (intact : solver.Intact) {count : Nat}
    (fits : count < variableLimit) :
    ∃ after, solver.ensureVariables count = .ok after ∧ Widened solver count after := by
  by_cases room : count ≤ solver.statistics.variableCount
  · refine ⟨solver, ensureVariables_of_le room, ?_⟩
    refine ⟨intact, rfl, rfl, rfl, rfl, rfl, rfl, rfl, fun _ => rfl, ?_, rfl⟩
    rw [Nat.max_eq_left room]
  · have larger := Nat.le_of_not_le room
    refine ⟨_, by simp only [ensureVariables, room, ↓reduceIte, checkVariables, fits]; rfl, ?_⟩
    refine ⟨?_, rfl, rfl, rfl, rfl, rfl, rfl, rfl, Trail.Faithful.value_grow _ _, ?_, rfl⟩
    · exact {
        faithful := intact.faithful.grow count
        tracks := intact.tracks.grow larger
        sized := by
          change (solver.trail.grow count).values.size = count
          rw [Trail.Faithful.size_grow, intact.sized, Nat.max_eq_right larger]
        small := fits }
    · rw [Nat.max_eq_right larger]

namespace Widened

variable {before after : Solver} {count : Nat}

theorem resting (widened : Widened before count after) (idle : before.trail.pending = 0) :
    after.Resting :=
  ⟨widened.intact, widened.pending.trans idle⟩

theorem formula (widened : Widened before count after) : after.formula = before.formula := by
  simp only [Solver.formula, widened.clauses]

theorem guarded (widened : Widened before count after)
    (guarded : before.clauses.Guarded before.trail.entries bound 0) :
    after.clauses.Guarded after.trail.entries bound 0 := by
  rw [widened.clauses, widened.entries]
  exact guarded

theorem covers (widened : Widened before count after) (small : literal.var < count) :
    after.trail.Covers literal := by
  change literal.var < after.trail.values.size
  rw [widened.intact.sized, widened.statistics]
  exact Nat.lt_of_lt_of_le small (Nat.le_max_right ..)

end Widened

/-! ## Making a literal true -/

/-- A literal made true at the current level is the first thing to be propagated. -/
theorem Resting.propagating (resting : solver.Resting)
    (guarded : solver.clauses.Guarded solver.trail.entries bound 0)
    (covered : solver.trail.Covers literal) (free : literal.value solver.model = .unset) :
    Propagating bound (solver.pushed literal) where
  faithful := resting.faithful.assign covered free
  tracks := resting.tracks
  sized := (Formula.size_setTrue _ _).trans resting.sized
  small := resting.small
  uniform := by
    intro entry taken
    have idle := resting.idle
    simp only [pushed, record, Trail.assign, idle, Nat.zero_add, List.take_succ_cons, List.take_zero,
      List.mem_singleton] at taken
    rw [taken]
    rfl
  guarded := by
    intro clause member slot high below negated
    have idle := resting.idle
    simp only [pushed, record, Trail.assign, idle, Nat.zero_add, List.drop_succ_cons] at negated
    obtain ⟨low, order, partner⟩ := guarded clause member slot high below negated
    exact ⟨low, order, .tail _ partner⟩

theorem assign_of_holds (room : literal.var + 1 ≤ solver.statistics.variableCount)
    (true_ : literal.value solver.model = .holds) : solver.assign literal = solver.propagate := by
  have value : literal.value solver.trail.values = .holds := true_
  simp only [assign, ensureVariables_of_le room, bind, Except.bind, push, Trail.judge, value]

theorem assign_of_fails (room : literal.var + 1 ≤ solver.statistics.variableCount)
    (false_ : literal.value solver.model = .fails) : solver.assign literal =
      .ok (some (.assignment literal), solver.record (.rejected literal solver.level)) := by
  have value : literal.value solver.trail.values = .fails := false_
  simp only [assign, ensureVariables_of_le room, bind, Except.bind, push, Trail.judge, value]
  rfl

theorem assign_of_unset (room : literal.var + 1 ≤ solver.statistics.variableCount)
    (covered : solver.trail.Covers literal) (free : literal.value solver.model = .unset) :
    solver.assign literal = (solver.pushed literal).propagate := by
  simp only [assign, ensureVariables_of_le room, bind, Except.bind, push_of_unset covered free]

/-- What becomes of a literal that is to be made true: it is true already, it is false, or it joins
the trail and is propagated. -/
def Assigned (before : Solver) (literal : Literal) (bound : Nat) (conflict : Option Conflict)
    (after : Solver) : Prop :=
  match literal.value before.model with
  | .holds => conflict = none ∧ after = before
  | .fails => conflict = some (.assignment literal) ∧
      after = before.record (.rejected literal before.level)
  | .unset => Propagated (before.pushed literal) bound conflict after

theorem Resting.exists_assign_of_covers (resting : solver.Resting)
    (guarded : solver.clauses.Guarded solver.trail.entries bound 0)
    (covered : solver.trail.Covers literal) :
    ∃ conflict after, solver.assign literal = .ok (conflict, after) ∧
      Assigned solver literal bound conflict after := by
  have room := resting.toIntact.room covered
  unfold Assigned
  cases value : literal.value solver.model with
  | holds =>
      have idle := (Trail.next?_eq_none_iff resting.faithful).mpr resting.idle
      exact ⟨none, solver, (assign_of_holds room value).trans (propagate_of_idle idle), rfl, rfl⟩
  | fails => exact ⟨_, _, assign_of_fails room value, rfl, rfl⟩
  | unset =>
      rw [assign_of_unset room covered value]
      exact (resting.propagating guarded covered value).exists_propagate

theorem Resting.exists_assign (resting : solver.Resting)
    (guarded : solver.clauses.Guarded solver.trail.entries bound 0)
    (fits : literal.var + 1 < variableLimit) :
    ∃ wide conflict after, Widened solver (literal.var + 1) wide ∧
      solver.assign literal = .ok (conflict, after) ∧
      Assigned wide literal bound conflict after := by
  obtain ⟨wide, grown, widened⟩ := resting.toIntact.exists_ensureVariables fits
  have covered : wide.trail.Covers literal := widened.covers (Nat.lt_succ_self _)
  obtain ⟨conflict, after, done, assigned⟩ :=
    (widened.resting resting.idle).exists_assign_of_covers (widened.guarded guarded) covered
  refine ⟨wide, conflict, after, widened, ?_, assigned⟩
  have room : literal.var + 1 ≤ wide.statistics.variableCount := by
    rw [widened.statistics]
    exact Nat.le_max_right ..
  have same : solver.assign literal = wide.assign literal := by
    simp only [assign, grown, ensureVariables_of_le room, bind, Except.bind]
  exact same.trans done

/-! ## Adding clauses -/

private theorem foldl_max_bounds (literals : List Literal) (start : Nat) :
    start ≤ literals.foldl (fun most literal => max most literal.var) start ∧
      (∀ literal ∈ literals,
        literal.var ≤ literals.foldl (fun most literal => max most literal.var) start) ∧
      ∀ limit, start ≤ limit → (∀ literal ∈ literals, literal.var ≤ limit) →
        literals.foldl (fun most literal => max most literal.var) start ≤ limit := by
  induction literals generalizing start with
  | nil => simp
  | cons head rest ih =>
      obtain ⟨above, covers, least⟩ := ih (max start head.var)
      simp only [List.foldl_cons]
      refine ⟨Nat.le_trans (Nat.le_max_left ..) above, ?_, ?_⟩
      · intro literal member
        rcases List.mem_cons.mp member with rfl | later
        · exact Nat.le_trans (Nat.le_max_right ..) above
        · exact covers literal later
      · intro limit small below
        exact least limit (Nat.max_le.mpr ⟨small, below head (.head _)⟩)
          fun literal member => below literal (.tail _ member)

theorem var_lt_width {literals : Array Literal} (member : literal ∈ literals) :
    literal.var < width literals := by
  have covers := (foldl_max_bounds literals.toList 0).2.1 literal (by simpa using member)
  rw [Array.foldl_toList] at covers
  exact Nat.lt_succ_of_le covers

theorem width_le {literals : Array Literal} {bound : Nat} (positive : 0 < bound)
    (below : ∀ literal ∈ literals, literal.var < bound) : width literals ≤ bound := by
  have least := (foldl_max_bounds literals.toList 0).2.2 (bound - 1) (Nat.zero_le _) (by
    intro literal member
    exact Nat.le_sub_one_of_lt (below literal (by simpa using member)))
  rw [Array.foldl_toList] at least
  exact Nat.le_trans (Nat.succ_le_succ least) (Nat.le_of_eq (Nat.succ_pred_eq_of_pos positive))

private theorem width_lt {literals : Array Literal}
    (fits : ∀ literal ∈ literals, literal.var + 1 < variableLimit) :
    width literals < variableLimit := by
  have small : width literals ≤ variableLimit - 1 :=
    width_le (by decide) fun literal member => Nat.lt_sub_of_add_lt (fits literal member)
  exact Nat.lt_of_le_of_lt small (by decide)

private theorem exists_ofLiterals? {literals : Array Literal} (nonempty : 0 < literals.size) :
    ∃ clause, Clause.ofLiterals? literals = some clause ∧ clause.literals = literals ∧
      (clause.first = clause.second → clause.literals.size = 1) := by
  refine ⟨⟨literals, ⟨0, nonempty⟩, ⟨literals.size - 1, by omega⟩⟩, ?_, rfl, ?_⟩
  · simp only [Clause.ofLiterals?, nonempty, ↓reduceDIte]
  · intro same
    have positions : 0 = literals.size - 1 := congrArg Fin.val same
    change literals.size = 1
    omega

def stored (solver : Solver) (literals : Array Literal) (clause : Clause) (watches : WatchIndex) :
    Solver :=
  { solver with
    clauses := solver.clauses.push clause
    watches := watches
    statistics := { solver.statistics with
      clauseCount := solver.statistics.clauseCount + 1
      literalCount := solver.statistics.literalCount + literals.size } }.record
        (.clauseAdded solver.clauses.nextRef clause)

theorem Resting.exists_insert (resting : solver.Resting) {literals : Array Literal}
    (nonempty : 0 < literals.size)
    (fits : ∀ literal ∈ literals, literal.var + 1 < variableLimit) :
    ∃ ref after, solver.insert literals = .ok (ref, after) ∧ after.Cleared ∧
      after.formula = solver.formula ++ [literals.toList] ∧
      after.options = solver.options ∧ after.hasEmptyClause = solver.hasEmptyClause ∧
      after.statistics.variableCount =
        max solver.statistics.variableCount (width literals) := by
  have cleared := resting.reset
  obtain ⟨wide, grown, widened⟩ := cleared.toIntact.exists_ensureVariables (width_lt fits)
  obtain ⟨clause, made, same, apart⟩ := exists_ofLiterals? nonempty
  have inside : ∀ literal ∈ clause.literals, literal.var < wide.statistics.variableCount := by
    intro literal member
    rw [widened.statistics]
    exact Nat.lt_of_lt_of_le (var_lt_width (same ▸ member)) (Nat.le_max_right ..)
  obtain ⟨watches, listed, tracks⟩ := widened.intact.tracks.insert clause inside apart
  refine ⟨wide.clauses.nextRef, wide.stored literals clause watches, ?_, ?_, ?_, ?_, ?_, ?_⟩
  · simp only [insert, resting.faithful.checkUndo, grown, made, listed, bind, Except.bind, pure,
      Except.pure]
    rfl
  · exact {
      faithful := widened.intact.faithful
      tracks := tracks
      sized := widened.intact.sized
      small := widened.intact.small
      idle := widened.pending.trans cleared.idle
      entries := widened.entries.trans cleared.entries
      level := widened.level.trans cleared.level
      decisions := widened.decisions.trans cleared.decisions }
  · have before : wide.formula = solver.formula := by
      rw [widened.formula]
      change (solver.popTo 0).formula = _
      simp
    rw [← before, ← same]
    simp [formula, stored, record]
  · change wide.options = _
    rw [widened.options]
    change (solver.popTo 0).options = _
    simp
  · change wide.hasEmptyClause = _
    rw [widened.hasEmptyClause]
    change (solver.popTo 0).hasEmptyClause = _
    simp
  · change wide.statistics.variableCount = _
    rw [widened.statistics]
    change max (solver.popTo 0).statistics.variableCount _ = _
    rw [statistics_popTo]

end Dpll.Solver
