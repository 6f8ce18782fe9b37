import Dpll.Proofs.Sweep

/-!
# Propagation restores the guard

Between two sweeps the guard holds of all literals that have been propagated (`Solver.Propagating`).
A sweep either extends it to the literal taken off the queue or finds a clause that is false in all
literals. At the end of propagation (`Solver.Propagated`) nothing waits any more, the trail has grown
by forced literals only, and without a conflict the guard holds of all entries. With a conflict it
still holds of the levels below the current one, which is what undoing the current level needs.
-/

set_option autoImplicit false

namespace Dpll

namespace WatchIndex

theorem replace_replace (index : WatchIndex) (literal : Literal) (first second : Array ClauseRef) :
    (index.replace literal first).replace literal second = index.replace literal second := by
  simp [replace]

theorem replace_watchedBy (index : WatchIndex) (literal : Literal) :
    index.replace literal (index.watchedBy literal) = index := by
  have same : index.lists.setIfInBounds literal.code (index.watchedBy literal) = index.lists := by
    apply Array.ext_getElem?
    intro code
    rw [Array.getElem?_setIfInBounds]
    split
    · rename_i equal
      subst equal
      split
      · rename_i inside
        simp [watchedBy, Array.getD_eq_getD_getElem?, inside]
      · rename_i beyond
        exact (Array.getElem?_eq_none (Nat.le_of_not_lt beyond)).symm
    · rfl
  simp only [replace, same]

end WatchIndex

namespace Solver

/-- A solver whose oldest waiting literal is propagated next. What has been propagated is guarded
below the bound, and what waits was made true at the current level. -/
structure Propagating (bound : Nat) (solver : Solver) : Prop extends Intact solver where
  uniform : ∀ entry ∈ solver.trail.entries.take solver.trail.pending, entry.level = solver.level
  guarded : solver.clauses.Guarded solver.trail.entries bound solver.trail.pending

def Refutes (solver : Solver) (conflict : Conflict) : Prop :=
  ∃ ref clause, conflict = .clause ref ∧ solver.clauses.get? ref = some clause ∧
    ∀ literal ∈ clause.literals, literal.value solver.model = .fails

structure Propagated (before : Solver) (bound : Nat) (conflict : Option Conflict) (after : Solver) :
    Prop where
  resting : after.Resting
  continues : before.Continues after
  growth : Growth before.formula before.level before.trail.entries after.trail.entries
  guardedBelow : after.clauses.Guarded after.trail.entries (min bound before.level) 0
  guarded : conflict = none → after.clauses.Guarded after.trail.entries bound 0
  conflicts : after.statistics.conflicts =
    before.statistics.conflicts + if conflict.isSome then 1 else 0
  refutes : ∀ reason, conflict = some reason → after.Refutes reason

variable {solver : Solver} {bound : Nat} {literal : Literal}

theorem propagate_of_idle (idle : solver.trail.next? = none) :
    solver.propagate = .ok (none, solver) := by
  rw [propagate]
  split
  · rfl
  · rename_i literal waiting
    rw [idle] at waiting
    cases waiting

theorem propagate_of_swept {conflict : Option Conflict} {next : Solver}
    (waiting : solver.trail.next? = some literal)
    (done : solver.dequeue.propagateLiteral literal = .ok (conflict, next)) :
    solver.propagate =
      match conflict with
      | none => next.propagate
      | some reason => .ok (some reason, next.concede literal reason) := by
  rw [propagate]
  split
  · rename_i idle
    rw [idle] at waiting
    cases waiting
  · rename_i first here
    cases Option.some.inj (here.symm.trans waiting)
    split <;> rename_i swept <;> cases swept.symm.trans done <;> rfl

theorem propagateLiteral_of_swept {swept : Sweep} (covered : solver.watches.Covers literal.negate)
    (done : solver.sweepAll literal.negate = .ok swept)
    (emptied : swept.solver.watches.watchedBy literal.negate = #[]) :
    solver.propagateLiteral literal =
      .ok (swept.conflict, swept.solver.setWatchList literal.negate swept.kept) := by
  simp only [propagateLiteral, covered, ↓reduceIte, done, emptied]
  rfl

namespace Sweeping

variable {origin : Solver} {falsified : Literal} {rest : List ClauseRef} {kept : Array ClauseRef}

theorem restored (sweeping : Sweeping origin falsified bound rest kept solver)
    (intact : origin.Intact) :
    (solver.setWatchList falsified (kept ++ rest.toArray)).Intact where
  faithful := sweeping.faithful
  tracks := sweeping.tracks
  sized := sweeping.sized
  small := by
    change solver.statistics.variableCount < variableLimit
    rw [sweeping.continues.variableCount]
    exact intact.small

/-- When all clauses of the list have been visited, the literal is guarded too. -/
theorem guarded_current (sweeping : Sweeping origin falsified bound [] kept solver) :
    solver.clauses.Guarded solver.trail.entries bound solver.trail.pending := by
  intro clause member slot high below negated
  obtain ⟨inside, here⟩ := List.getElem?_eq_some_iff.mp sweeping.current
  rw [List.drop_eq_getElem_cons inside, here] at negated
  rcases List.mem_cons.mp negated with same | older
  · have watching : clause.watched slot = falsified := by
      have negations : (clause.watched slot).negate = falsified.negate :=
        congrArg Entry.literal same
      rw [← Literal.negate_negate (clause.watched slot), negations, Literal.negate_negate]
    have atLevel : high = solver.level := congrArg Entry.level same
    obtain ⟨ref, found⟩ := ClauseStore.exists_get?_of_mem member
    have listed : ref ∈ kept := by
      have inList := sweeping.tracks.listed_of_watches found watching
      rw [WatchIndex.watchedBy_replace_self sweeping.covers] at inList
      simpa using inList
    obtain ⟨partner, true_⟩ := sweeping.served ref listed clause found
    rcases slot.eq_or_eq_other partner with rfl | rfl
    · rw [watching, sweeping.fails] at true_
      cases true_
    · obtain ⟨low, recorded⟩ := (sweeping.faithful.holds_iff _).mp true_
      refine ⟨low, ?_, recorded⟩
      rw [atLevel]
      exact sweeping.faithful.bounded _ recorded
  · exact sweeping.guarded clause member slot high below older

/-- A sweep that is given up does no harm below the current level, where nothing waits. -/
theorem guarded_below (sweeping : Sweeping origin falsified bound rest kept solver) :
    solver.clauses.Guarded solver.trail.entries (min bound solver.level) 0 := by
  intro clause member slot high below negated
  have split := List.take_append_drop (solver.trail.pending + 1) solver.trail.entries
  rw [List.drop_zero, ← split] at negated
  rcases List.mem_append.mp negated with newest | older
  · rw [List.take_add_one, sweeping.current] at newest
    have atLevel : high = solver.level := by
      rcases List.mem_append.mp newest with waiting | current
      · exact sweeping.uniform _ waiting
      · exact congrArg Entry.level (List.mem_singleton.mp current)
    exact absurd below (by rw [atLevel]; exact Nat.not_lt.mpr (Nat.min_le_right ..))
  · exact sweeping.guarded clause member slot high (Nat.lt_of_lt_of_le below (Nat.min_le_left ..))
      older

end Sweeping

namespace Propagating

theorem sweeping (propagating : Propagating bound solver)
    (waiting : solver.trail.next? = some literal) :
    Sweeping solver literal.negate bound (solver.watches.watchedBy literal.negate).toList #[]
      (solver.dequeue.setWatchList literal.negate #[]) := by
  obtain ⟨level, newer, pending, here⟩ := Trail.next?_eq_some_iff.mp waiting
  have advanced : solver.trail.advance.pending = newer := by
    simp [Trail.advance, pending]
  have inside : newer < solver.trail.entries.length := (List.getElem?_eq_some_iff.mp here).1
  have atLevel : level = solver.level := by
    refine propagating.uniform ⟨literal, level⟩ ?_
    rw [pending, List.take_add_one, here]
    simp
  have covered : solver.watches.Covers literal.negate := by
    refine propagating.tracks.covers ?_
    rw [← propagating.sized, Literal.var_negate]
    exact propagating.faithful.covers (List.mem_of_getElem? here)
  exact {
    faithful := propagating.faithful.advance
    tracks := by
      change ((solver.watches.replace literal.negate #[]).replace literal.negate
        (#[] ++ (solver.watches.watchedBy literal.negate).toList.toArray)).Tracks solver.clauses
          solver.statistics.variableCount
      rw [WatchIndex.replace_replace]
      simpa [WatchIndex.replace_watchedBy] using propagating.tracks
    emptied := WatchIndex.watchedBy_replace_self covered _
    sized := propagating.sized
    continues := ⟨rfl, rfl, rfl, rfl, rfl, rfl, id⟩
    conflicts := rfl
    growth := .base
    uniform := by
      intro entry taken
      refine propagating.uniform entry ?_
      rw [pending, List.take_add_one]
      exact List.mem_append_left _ (advanced ▸ taken)
    current := by
      change solver.trail.entries[solver.trail.advance.pending]? = _
      rw [advanced, here, Literal.negate_negate, atLevel]
      rfl
    guarded := by
      change solver.clauses.Guarded solver.trail.entries bound (solver.trail.advance.pending + 1)
      rw [advanced, ← pending]
      exact propagating.guarded
    served := by
      intro ref inKept
      simp at inKept }

/-- One round of propagation: without a conflict it can go on, with one a clause is refuted. -/
theorem exists_propagateLiteral (propagating : Propagating bound solver)
    (waiting : solver.trail.next? = some literal) :
    ∃ conflict next, solver.dequeue.propagateLiteral literal = .ok (conflict, next) ∧
      next.Intact ∧ solver.Continues next ∧
      next.statistics.conflicts = solver.statistics.conflicts ∧
      Growth solver.formula solver.level solver.trail.entries next.trail.entries ∧
      (conflict = none → Propagating bound next) ∧
      ∀ reason, conflict = some reason → next.Refutes reason ∧
        next.clauses.Guarded next.trail.entries (min bound solver.level) 0 := by
  have start := propagating.sweeping waiting
  obtain ⟨swept, done, result⟩ := start.run
  have covered : solver.dequeue.watches.Covers literal.negate := by
    simpa [WatchIndex.Covers, setWatchList, WatchIndex.replace] using start.covers
  rcases result with ⟨peaceful, ended⟩ | ⟨ref, remaining, before, clause, met, kept, ended, found,
    visited⟩
  · refine ⟨none, swept.solver.setWatchList literal.negate swept.kept, ?_, ?_, ?_, ?_, ?_, ?_, ?_⟩
    · rw [← peaceful]
      exact propagateLiteral_of_swept covered done ended.emptied
    · simpa using ended.restored propagating.toIntact
    · exact ended.continues.trans ⟨rfl, rfl, rfl, rfl, rfl, rfl, id⟩
    · exact ended.conflicts
    · exact ended.growth
    · intro _
      exact {
        toIntact := by simpa using ended.restored propagating.toIntact
        uniform := ended.uniform
        guarded := ended.guarded_current }
    · intro reason impossible
      cases impossible
  · refine ⟨some (.clause ref), swept.solver.setWatchList literal.negate swept.kept, ?_, ?_, ?_, ?_,
      ?_, ?_, ?_⟩
    · rw [← met]
      exact propagateLiteral_of_swept covered done ended.emptied
    · rw [kept]
      exact ended.restored propagating.toIntact
    · exact ended.continues.trans ⟨rfl, rfl, rfl, rfl, rfl, rfl, id⟩
    · exact ended.conflicts
    · exact ended.growth
    · intro impossible
      cases impossible
    · rintro reason same
      cases same
      have explained := clause.visit_explained literal.negate swept.solver.model
      rw [visited] at explained
      refine ⟨⟨ref, clause, rfl, found, Clause.fails_of_refuted ended.fails explained⟩, ?_⟩
      have sameLevel : swept.solver.level = solver.level := ended.continues.level
      rw [← sameLevel]
      exact ended.guarded_below

/-- Propagation always ends, and never breaks a precondition on the way. -/
theorem exists_propagate (propagating : Propagating bound solver) :
    ∃ conflict after, solver.propagate = .ok (conflict, after) ∧
      Propagated solver bound conflict after := by
  -- A round may add literals to the queue, but the workload counts what is left undecided too.
  induction load : solver.workload using Nat.strongRecOn generalizing solver with
  | ind bounded ih =>
      cases waiting : solver.trail.next? with
      | none =>
          have idle := (Trail.next?_eq_none_iff propagating.faithful).mp waiting
          have guarded := propagating.guarded
          rw [idle] at guarded
          refine ⟨none, solver, ?_, ?_⟩
          · exact propagate_of_idle waiting
          · exact {
              resting := ⟨propagating.toIntact, idle⟩
              continues := .refl solver
              growth := .base
              guardedBelow := guarded.mono (Nat.min_le_left ..)
              guarded := fun _ => guarded
              conflicts := rfl
              refutes := by intro reason impossible; cases impossible }
      | some literal =>
          obtain ⟨conflict, next, done, intact, continues, conflicts, growth, proceed, stop⟩ :=
            propagating.exists_propagateLiteral waiting
          cases conflict with
          | none =>
              have lighter : next.workload < bounded := by
                rw [workload_propagateLiteral done, ← load]
                exact workload_dequeue waiting
              obtain ⟨conflict, after, finished, propagated⟩ :=
                ih next.workload lighter (proceed rfl) rfl
              refine ⟨conflict, after, (propagate_of_swept waiting done).trans finished, ?_⟩
              have sameLevel : next.level = solver.level := continues.level
              exact {
                resting := propagated.resting
                continues := continues.trans propagated.continues
                growth := growth.trans (by
                  rw [← continues.formula, ← sameLevel]; exact propagated.growth)
                guardedBelow := sameLevel ▸ propagated.guardedBelow
                guarded := propagated.guarded
                conflicts := by rw [propagated.conflicts, conflicts]
                refutes := propagated.refutes }
          | some reason =>
              obtain ⟨refutes, guarded⟩ := stop reason rfl
              refine ⟨some reason, next.concede literal reason, propagate_of_swept waiting done, ?_⟩
              exact {
                resting := ⟨⟨intact.faithful.settle, intact.tracks, intact.sized, intact.small⟩, rfl⟩
                continues := continues.trans
                  ⟨rfl, rfl, rfl, rfl, rfl, rfl, fun orderly => orderly.record (by simp)⟩
                growth := growth
                guardedBelow := guarded
                guarded := by intro impossible; cases impossible
                conflicts := by
                  change next.statistics.conflicts + 1 = _
                  rw [conflicts]
                  rfl
                refutes := by
                  intro other same
                  cases same
                  exact refutes }

end Propagating

end Solver

end Dpll
