import Dpll.Proofs.Growth
import Dpll.Proofs.Trail
import Dpll.Proofs.WatchIndex

/-!
# Solver states

`Solver.Intact` collects what holds of a solver at all times: a faithful trail, an index that tracks
the clauses and tables of one size. It does not depend on how conflicts were dealt with.
`ClauseStore.Guarded` is the promise that makes lazy watching work: a watched literal that is false is
made up for by the other watched literal, which became true no later. It may be limited to levels
below a bound and to entries that have been propagated. Operations without propagation keep both.
-/

set_option autoImplicit false

namespace Dpll

/-- Every false watched literal of a level below the bound has a partner that became true at that
level or below it. The newest entries are not considered. -/
def ClauseStore.Guarded (clauses : ClauseStore) (entries : List Entry) (bound newest : Nat) : Prop :=
  ∀ clause ∈ clauses, ∀ (slot : Slot) (high : Nat), high < bound →
    ⟨(clause.watched slot).negate, high⟩ ∈ entries.drop newest →
      ∃ low ≤ high, ⟨clause.watched slot.other, low⟩ ∈ entries

namespace ClauseStore.Guarded

variable {clauses : ClauseStore} {entries : List Entry} {bound newest : Nat}

theorem zero (clauses : ClauseStore) (entries : List Entry) (newest : Nat) :
    clauses.Guarded entries 0 newest :=
  fun _ _ _ high below => absurd below (Nat.not_lt_zero high)

theorem nil (clauses : ClauseStore) (bound newest : Nat) : clauses.Guarded [] bound newest := by
  intro clause _ slot high _ member
  simp at member

theorem mono {lower : Nat} (guarded : clauses.Guarded entries bound newest)
    (small : lower ≤ bound) : clauses.Guarded entries lower newest :=
  fun clause member slot high below =>
    guarded clause member slot high (Nat.lt_of_lt_of_le below small)

/-- The bound does not matter once it is above all levels. -/
theorem lift {higher : Nat} (guarded : clauses.Guarded entries bound newest)
    (bounded : ∀ entry ∈ entries, entry.level < bound) :
    clauses.Guarded entries higher newest :=
  fun clause member slot high _ negated =>
    guarded clause member slot high (bounded _ (List.mem_of_mem_drop negated)) negated

/-- Undoing levels takes no partner away from a watched literal that stays false. -/
theorem undo (guarded : clauses.Guarded entries bound 0) (lower : Nat) :
    clauses.Guarded (entries.filter (·.level < lower)) bound 0 := by
  intro clause member slot high below negated
  simp only [List.drop_zero, List.mem_filter, decide_eq_true_eq] at negated
  obtain ⟨negated, remains⟩ := negated
  obtain ⟨low, order, partner⟩ := guarded clause member slot high below negated
  exact ⟨low, order, by simpa using ⟨partner, Nat.lt_of_le_of_lt order remains⟩⟩

/-- Undoing levels down to the bound or below it leaves nothing that is not guarded. -/
theorem filter {lower higher : Nat} (guarded : clauses.Guarded entries bound 0)
    (small : lower ≤ bound) : clauses.Guarded (entries.filter (·.level < lower)) higher 0 := by
  apply (guarded.undo lower).lift
  intro entry member
  have low : entry.level < lower := by simpa using (List.mem_filter.mp member).2
  exact Nat.lt_of_lt_of_le low small

end ClauseStore.Guarded

def Journal.Orderly (journal : Journal) : Prop :=
  ∀ ref literal, Event.strayWatch ref literal ∉ journal.events

theorem Journal.Orderly.record {journal : Journal} (orderly : journal.Orderly) {event : Event}
    (harmless : ∀ ref literal, Event.strayWatch ref literal ≠ event) :
    (journal.record event).Orderly := by
  intro ref literal noted
  unfold Journal.record at noted
  split at noted
  · rcases List.mem_cons.mp noted with now | earlier
    · exact harmless ref literal now
    · exact orderly ref literal earlier
  · exact orderly ref literal noted

namespace Solver

/-- What holds of a solver whatever has been asked of it. -/
structure Intact (solver : Solver) : Prop where
  faithful : solver.trail.Faithful
  tracks : solver.watches.Tracks solver.clauses solver.statistics.variableCount
  sized : solver.trail.values.size = solver.statistics.variableCount
  small : solver.statistics.variableCount < variableLimit

structure Resting (solver : Solver) : Prop extends Intact solver where
  idle : solver.trail.pending = 0

/-- What propagation leaves as it was. Only two counters may differ, and no event that it adds to the
journal is about a stray clause. -/
structure Continues (before after : Solver) : Prop where
  options : after.options = before.options
  hasEmptyClause : after.hasEmptyClause = before.hasEmptyClause
  formula : after.formula = before.formula
  decisions : after.decisions = before.decisions
  level : after.trail.level = before.trail.level
  statistics : after.statistics =
    { before.statistics with
      propagations := after.statistics.propagations
      conflicts := after.statistics.conflicts }
  orderly : before.journal.Orderly → after.journal.Orderly

namespace Continues

variable {first second third : Solver}

theorem refl (solver : Solver) : solver.Continues solver := ⟨rfl, rfl, rfl, rfl, rfl, rfl, id⟩

theorem record (solver : Solver) (event : Event)
    (harmless : ∀ ref literal, Event.strayWatch ref literal ≠ event) :
    solver.Continues (solver.record event) :=
  ⟨rfl, rfl, rfl, rfl, rfl, rfl, fun orderly => orderly.record harmless⟩

theorem trans (left : first.Continues second) (right : second.Continues third) :
    first.Continues third where
  options := right.options.trans left.options
  hasEmptyClause := right.hasEmptyClause.trans left.hasEmptyClause
  formula := right.formula.trans left.formula
  decisions := right.decisions.trans left.decisions
  level := right.level.trans left.level
  statistics := by
    have outer := right.statistics
    rw [left.statistics] at outer
    exact outer
  orderly := right.orderly ∘ left.orderly

theorem variableCount (continues : first.Continues second) :
    second.statistics.variableCount = first.statistics.variableCount := by
  rw [continues.statistics]

end Continues

/-- Being at rest is a matter of the clauses, their watches, the trail and the number of variables. -/
theorem Resting.transfer {before after : Solver} (resting : before.Resting)
    (clauses : after.clauses = before.clauses) (watches : after.watches = before.watches)
    (trail : after.trail = before.trail)
    (count : after.statistics.variableCount = before.statistics.variableCount) : after.Resting where
  faithful := trail ▸ resting.faithful
  tracks := by rw [clauses, watches, count]; exact resting.tracks
  sized := by rw [trail, count]; exact resting.sized
  small := by rw [count]; exact resting.small
  idle := trail ▸ resting.idle

variable {solver : Solver}

theorem mem_formula_iff {clause : List Literal} :
    clause ∈ solver.formula ↔ ∃ stored ∈ solver.clauses, stored.literals.toList = clause := by
  simp [formula]

theorem mem_formula {stored : Clause} (member : stored ∈ solver.clauses) :
    stored.literals.toList ∈ solver.formula :=
  mem_formula_iff.mpr ⟨stored, member, rfl⟩

namespace Intact

theorem covers_var (intact : solver.Intact) {clause : List Literal}
    (member : clause ∈ solver.formula) {literal : Literal} (inClause : literal ∈ clause) :
    literal.var < solver.statistics.variableCount := by
  obtain ⟨stored, inStore, rfl⟩ := mem_formula_iff.mp member
  exact intact.tracks.inside stored inStore literal (by simpa using inClause)

theorem covers (intact : solver.Intact) {clause : Clause} (member : clause ∈ solver.clauses)
    {literal : Literal} (inClause : literal ∈ clause.literals) : solver.trail.Covers literal := by
  change literal.var < solver.trail.values.size
  rw [intact.sized]
  exact intact.tracks.inside clause member literal inClause

theorem room (intact : solver.Intact) {literal : Literal} (covered : solver.trail.Covers literal) :
    literal.var + 1 ≤ solver.statistics.variableCount := by
  rw [← intact.sized]
  exact covered

end Intact

end Solver

end Dpll
