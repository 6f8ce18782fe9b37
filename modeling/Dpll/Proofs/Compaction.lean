import Dpll.Proofs.Calls

/-!
# What a sweep does to the watch lists

A sweep goes through the list of a literal that has become false. `Solver.Tour` is the part of it that
lies behind, visit by visit, with what was found at each. An occurrence leaves the list if its visit
moves a watch, and the clause is then appended to the list of the literal that is watched instead. So
the list is compacted in its order, whether the sweep comes to its end or stops at a conflict, and no
other list loses a clause. Main statement: `Solver.propagateLiteral_compacts`.
-/

set_option autoImplicit false

namespace Dpll

/-- The same literals, watched at the same positions by the slots that did not watch the given
literal. -/
structure Clause.Retains (before : Clause) (falsified : Literal) (after : Clause) : Prop where
  literals : after.literals = before.literals
  position (slot : Slot) : before.watched slot ≠ falsified →
    (after.position slot).val = (before.position slot).val

namespace Clause.Retains

variable {before middle after : Clause} {falsified : Literal}

theorem refl (clause : Clause) (falsified : Literal) : clause.Retains falsified clause :=
  ⟨rfl, fun _ _ => rfl⟩

private theorem watched_eq (retains : before.Retains falsified after) {slot : Slot}
    (elsewhere : before.watched slot ≠ falsified) : after.watched slot = before.watched slot :=
  getElem_congr retains.literals (retains.position slot elsewhere) _

/-- A slot that is moved away from the literal has watched it from the beginning. -/
theorem move (retains : before.Retains falsified after) {slot : Slot}
    (watching : after.watched slot = falsified) (position : Fin after.literals.size) :
    before.Retains falsified (after.move slot position) where
  literals := (Clause.literals_move ..).trans retains.literals
  position other elsewhere := by
    rcases slot.eq_or_eq_other other with rfl | rfl
    · rw [retains.watched_eq elsewhere] at watching
      exact absurd watching elsewhere
    · rw [← retains.position _ elsewhere]
      cases slot <;> rfl

end Clause.Retains

namespace Solver

/-- A visit to an occurrence in a watch list: the clause as it was found, and the values then. -/
structure Stop where
  ref : ClauseRef
  clause : Clause
  values : Valuation

def Stop.target? (falsified : Literal) (stop : Stop) : Option Literal :=
  match stop.clause.visit falsified stop.values with
  | .movable _ position => some (stop.clause.literalAt position)
  | _ => none

def stayed (falsified : Literal) (stops : List Stop) : List ClauseRef :=
  (stops.filter fun stop => stop.target? falsified = none).map (·.ref)

def joined (falsified other : Literal) (stops : List Stop) : List ClauseRef :=
  (stops.filter fun stop => stop.target? falsified = some other).map (·.ref)

inductive Visits (falsified : Literal) (ref : ClauseRef) (clause : Clause) (solver : Solver) :
    Solver → Prop where
  | stray : clause.visit falsified solver.model = .stray →
      Visits falsified ref clause solver (solver.record (.strayWatch ref falsified))
  | satisfied : clause.visit falsified solver.model = .satisfied →
      Visits falsified ref clause solver solver
  | moved {slot : Slot} {position : Fin clause.literals.size} :
      clause.visit falsified solver.model = .movable slot position →
      solver.watches.Covers (clause.literalAt position) →
      Visits falsified ref clause solver (solver.rewatch ref clause slot position)
  | forced {literal : Literal} {next : Solver} :
      clause.visit falsified solver.model = .forcing literal →
      (solver.record (.forced ref literal)).push literal = .ok (none, next) →
      Visits falsified ref clause solver next

/-- The visits to the first occurrences of a list, with those still to be visited and the state between
them. -/
inductive Tour (falsified : Literal) (refs : List ClauseRef) (origin : Solver) :
    List Stop → List ClauseRef → Solver → Prop where
  | start : Tour falsified refs origin [] refs origin
  | visit {stops : List Stop} {ref : ClauseRef} {rest : List ClauseRef} {solver next : Solver}
      {clause : Clause} :
      Tour falsified refs origin stops (ref :: rest) solver →
      solver.clauses.get? ref = some clause → Visits falsified ref clause solver next →
      Tour falsified refs origin (stops ++ [⟨ref, clause, solver.model⟩]) rest next

variable {origin start solver state next after : Solver} {falsified literal other : Literal}
  {bound : Nat} {ref : ClauseRef} {clause : Clause} {refs rest tail : List ClauseRef}
  {kept : Array ClauseRef} {stops : List Stop} {conflict : Option Conflict} {clock : Clock}
  {command : Command}

/-! ## One visit -/

private theorem Stop.not_fails_of_target? {stop : Stop}
    (moves : stop.target? falsified = some other) :
    other.value stop.values ≠ .fails := by
  unfold target? at moves
  split at moves
  · next visited =>
    cases moves
    obtain ⟨-, -, -, notFalse, -⟩ := Clause.explained_of_visit visited
    exact notFalse
  · cases moves

private theorem eq_pushed_of_forcing
    (visited : clause.visit falsified solver.model = .forcing literal)
    (pushed : (solver.record (.forced ref literal)).push literal = .ok (none, next)) :
    solver.trail.Covers literal ∧ next = (solver.record (.forced ref literal)).pushed literal := by
  have free : literal.value (solver.record (.forced ref literal)).model = .unset :=
    unset_of_forcing visited
  obtain ⟨covered, -, same⟩ := push_eq_ok_of_unset free pushed
  exact ⟨covered, same⟩

namespace Visits

theorem keeps (visits : Visits falsified ref clause solver next)
    (found : solver.clauses.get? ref = some clause)
    (false_ : falsified.value solver.model = .fails) : solver.Keeps next := by
  cases visits with
  | stray => exact .record solver _
  | satisfied => exact .refl solver
  | moved visited => exact .rewatch false_ found (Clause.explained_of_visit visited)
  | forced visited pushed =>
      obtain ⟨covered, rfl⟩ := eq_pushed_of_forcing visited pushed
      exact .forced ref covered (unset_of_forcing visited)

/-- A list changes only if the visit moves a watch to its literal. -/
private theorem watchedBy_eq (visits : Visits falsified ref clause solver next) (other : Literal) :
    next.watches.watchedBy other =
      solver.watches.watchedBy other ++
        (joined falsified other [⟨ref, clause, solver.model⟩]).toArray := by
  cases visits with
  | stray visited => simp [joined, Stop.target?, visited, record]
  | satisfied visited => simp [joined, Stop.target?, visited]
  | @moved slot position visited covered =>
      by_cases same : clause.literalAt position = other
      · subst same
        simp [joined, Stop.target?, visited, rewatch, record, WatchIndex.watchedBy_watch_self covered]
      · have apart : (solver.watches.watch (clause.literalAt position) ref).watchedBy other =
            solver.watches.watchedBy other := WatchIndex.watchedBy_watch_of_ne (Ne.symm same) ref
        simp [joined, Stop.target?, visited, same, rewatch, record, apart]
  | forced visited pushed =>
      obtain ⟨-, rfl⟩ := eq_pushed_of_forcing visited pushed
      simp [joined, Stop.target?, visited, Solver.pushed, record]

private theorem retains (visits : Visits falsified ref clause solver next)
    (found : solver.clauses.get? ref = some clause) {before current : Clause} {place : ClauseRef}
    (stored : solver.clauses.get? place = some current)
    (retained : before.Retains falsified current) :
    ∃ later, next.clauses.get? place = some later ∧ before.Retains falsified later := by
  cases visits with
  | stray => exact ⟨current, stored, retained⟩
  | satisfied => exact ⟨current, stored, retained⟩
  | moved visited =>
      obtain ⟨watching, -⟩ := Clause.explained_of_visit visited
      by_cases same : place = ref
      · subst same
        cases found.symm.trans stored
        exact ⟨_, ClauseStore.get?_set_self found, retained.move watching _⟩
      · exact ⟨current, (ClauseStore.get?_set_of_ne same _).trans stored, retained⟩
  | forced visited pushed =>
      obtain ⟨-, rfl⟩ := eq_pushed_of_forcing visited pushed
      exact ⟨current, stored, retained⟩

/-- The occurrence stays in the list unless the visit moves a watch. -/
theorem sweeping (visits : Visits falsified ref clause solver next)
    (found : solver.clauses.get? ref = some clause)
    (begins : Sweeping origin falsified bound (ref :: rest) kept solver) :
    Sweeping origin falsified bound rest
      (kept ++ (stayed falsified [⟨ref, clause, solver.model⟩]).toArray) next := by
  cases visits with
  | stray visited =>
      obtain ⟨clause, here, slot, watching⟩ := begins.watches
      cases found.symm.trans here
      exact absurd watching (Clause.explained_of_visit visited slot)
  | satisfied visited =>
      have later := begins.satisfied found (Clause.explained_of_visit visited)
      simpa [stayed, Stop.target?, visited] using later
  | moved visited =>
      have later := (begins.moved found (Clause.explained_of_visit visited)).2
      simpa [stayed, Stop.target?, visited] using later
  | forced visited pushed =>
      obtain ⟨-, rfl⟩ := eq_pushed_of_forcing visited pushed
      have later := (begins.forced found (Clause.explained_of_visit visited)).2.2
      simpa [stayed, Stop.target?, visited] using later

end Visits

/-! ## The visits so far -/

private theorem stayed_append (first second : List Stop) :
    stayed falsified (first ++ second) = stayed falsified first ++ stayed falsified second := by
  simp [stayed]

private theorem joined_append (first second : List Stop) :
    joined falsified other (first ++ second) =
      joined falsified other first ++ joined falsified other second := by
  simp [joined]

namespace Tour

private theorem refs_eq (tour : Tour falsified refs start stops rest state) :
    refs = stops.map (·.ref) ++ rest := by
  induction tour with
  | start => rfl
  | visit _ _ _ ih => simpa using ih

theorem sweeping (tour : Tour falsified refs start stops rest state)
    (begins : Sweeping origin falsified bound refs #[] start) :
    Sweeping origin falsified bound rest (stayed falsified stops).toArray state := by
  induction tour with
  | start => exact begins
  | visit _ found visits ih =>
      have later := visits.sweeping found ih
      rw [stayed_append, ← List.append_toArray]
      exact later

private theorem watchedBy_eq (tour : Tour falsified refs start stops rest state) (other : Literal) :
    state.watches.watchedBy other =
      start.watches.watchedBy other ++ (joined falsified other stops).toArray := by
  induction tour with
  | start => simp [joined]
  | visit _ _ visits ih =>
      rw [visits.watchedBy_eq, ih, joined_append, ← List.append_toArray, Array.append_assoc]

private theorem retains (tour : Tour falsified refs start stops rest state) {before : Clause}
    (stored : start.clauses.get? ref = some before) :
    ∃ later, state.clauses.get? ref = some later ∧ before.Retains falsified later := by
  induction tour with
  | start => exact ⟨before, stored, .refl before falsified⟩
  | visit _ found visits ih =>
      obtain ⟨current, here, retained⟩ := ih
      exact visits.retains found here retained

theorem keeps (tour : Tour falsified refs start stops rest state)
    (false_ : falsified.value start.model = .fails) : start.Keeps state := by
  induction tour with
  | start => exact .refl start
  | visit _ found visits ih => exact ih.trans (visits.keeps found (ih.fails false_))

/-- What was false at the beginning of the sweep was false at each visit. -/
theorem fails_at_stop (tour : Tour falsified refs start stops rest state)
    (false_ : falsified.value start.model = .fails) (other : Literal)
    (otherFalse : other.value start.model = .fails) :
    ∀ stop ∈ stops, other.value stop.values = .fails := by
  induction tour with
  | start => simp
  | visit earlier _ _ ih =>
      intro stop member
      rcases List.mem_append.mp member with before | here
      · exact ih stop before
      · cases List.mem_singleton.mp here
        exact (earlier.keeps false_).fails otherFalse

end Tour

/-! ## A whole sweep -/

/-- A sweep goes through its list visit by visit. If it meets a conflict, it stops at a clause that is
false in all literals, before which all visits have been made. -/
theorem Sweeping.exists_tour (begins : Sweeping origin falsified bound refs #[] start) :
    ∃ swept stops tail, sweep falsified refs #[] start = .ok swept ∧
      Tour falsified refs start stops tail swept.solver ∧
      swept.kept = (stayed falsified stops ++ tail).toArray ∧
      ((swept.conflict = none ∧ tail = []) ∨
        ∃ ref rest clause, swept.conflict = some (.clause ref) ∧ tail = ref :: rest ∧
          swept.solver.clauses.get? ref = some clause ∧
          clause.visit falsified swept.solver.model = .refuted) := by
  refine Exists.elim (@exists_sweep falsified
    (fun rest kept solver => ∃ stops, Tour falsified refs start stops rest solver ∧
      kept = (stayed falsified stops).toArray) ?visit refs #[] start ⟨[], .start, rfl⟩) ?ended
  case visit =>
    rintro ref rest _ solver ⟨stops, tour, rfl⟩
    have sweeping := tour.sweeping begins
    obtain ⟨clause, found, slot, watching⟩ := sweeping.watches
    refine ⟨clause, found, ?_⟩
    have explained := clause.visit_explained falsified solver.model
    cases visited : clause.visit falsified solver.model with
    | stray =>
        rw [visited] at explained
        exact explained slot watching
    | satisfied =>
        refine ⟨_, .visit tour found (.satisfied visited), ?_⟩
        simp [stayed, Stop.target?, visited]
    | movable slot position =>
        rw [visited] at explained
        have covered := (sweeping.moved found explained).1
        refine ⟨covered, _, .visit tour found (.moved visited covered), ?_⟩
        simp [stayed, Stop.target?, visited]
    | forcing literal =>
        rw [visited] at explained
        obtain ⟨free, covered, -⟩ := sweeping.forced found explained
        refine ⟨free, covered, _,
          .visit tour found (.forced visited (push_of_unset covered free)), ?_⟩
        simp [stayed, Stop.target?, visited]
    | refuted => trivial
  case ended =>
    rintro swept ⟨done, ⟨peaceful, stops, tour, kept⟩ |
      ⟨ref, rest, _, clause, met, kept, ⟨stops, tour, rfl⟩, found, visited⟩⟩
    · refine ⟨swept, stops, [], done, tour, ?_, .inl ⟨peaceful, rfl⟩⟩
      rw [List.append_nil]
      exact kept
    · refine ⟨swept, stops, ref :: rest, done, tour, ?_, .inr ⟨ref, rest, clause, met, rfl, found,
        visited⟩⟩
      rw [kept, List.append_toArray]

/-- The watch lists and clauses before and after propagating a literal, of which the list of the negation
was visited as far as the given tail. -/
structure Compacts (falsified : Literal) (before : Solver) (stops : List Stop)
    (tail : List ClauseRef) (after : Solver) : Prop where
  toured : ∃ swept,
    Tour falsified (before.watches.watchedBy falsified).toList
      (before.dequeue.setWatchList falsified #[]) stops tail swept ∧
    after = swept.setWatchList falsified (stayed falsified stops ++ tail).toArray
  listed : (before.watches.watchedBy falsified).toList = stops.map (·.ref) ++ tail
  compacted : (after.watches.watchedBy falsified).toList = stayed falsified stops ++ tail
  appended : ∀ other, other ≠ falsified → (after.watches.watchedBy other).toList =
    (before.watches.watchedBy other).toList ++ joined falsified other stops
  targets : ∀ stop ∈ stops, ∀ target, stop.target? falsified = some target →
    target.value stop.values ≠ .fails ∧ target.value before.model ≠ .fails
  retained : ∀ ref clause, before.clauses.get? ref = some clause →
    ∃ later, after.clauses.get? ref = some later ∧ clause.Retains falsified later

private theorem Tour.compacts {swept : Solver}
    (tour : Tour falsified (solver.watches.watchedBy falsified).toList
      (solver.dequeue.setWatchList falsified #[]) stops tail swept)
    (covered : swept.watches.Covers falsified) (false_ : falsified.value solver.model = .fails) :
    Compacts falsified solver stops tail
      (swept.setWatchList falsified (stayed falsified stops ++ tail).toArray) where
  toured := ⟨swept, tour, rfl⟩
  listed := tour.refs_eq
  compacted := by
    have list : (swept.watches.replace falsified (stayed falsified stops ++ tail).toArray).watchedBy
        falsified = _ := WatchIndex.watchedBy_replace_self covered _
    simp [setWatchList, list]
  appended other different := by
    have same : (swept.watches.replace falsified (stayed falsified stops ++ tail).toArray).watchedBy
        other = swept.watches.watchedBy other :=
      WatchIndex.watchedBy_replace_of_ne different _
    have before : (solver.watches.replace falsified #[]).watchedBy other =
        solver.watches.watchedBy other := WatchIndex.watchedBy_replace_of_ne different _
    have grown := tour.watchedBy_eq other
    simp only [setWatchList, dequeue, count] at grown ⊢
    rw [same, grown, before]
    simp
  targets stop member target moves := by
    refine ⟨Stop.not_fails_of_target? moves, ?_⟩
    intro already
    exact Stop.not_fails_of_target? moves (tour.fails_at_stop false_ target already stop member)
  retained ref clause stored := tour.retains stored

/-- Wherever a literal is taken off the queue in the course of a request to a solver that a session has
led to, propagating it compacts the watch list of its negation in order. An occurrence is removed exactly
if its visit moved a watch, and what was not visited stays. Each other list gets the clauses that moved
to its literal, in the order of their visits, and the literal is not false at any of them. A clause keeps
the watches that were not on the negation. -/
theorem propagateLiteral_compacts (reached : Reachable solver)
    (propagates : Propagates clock solver command state)
    (waiting : state.trail.next? = some literal) :
    ∃ conflict after stops tail,
      state.dequeue.propagateLiteral literal = .ok (conflict, after) ∧
      Compacts literal.negate state stops tail after ∧
      ((conflict = none ∧ tail = []) ∨
        ∃ ref rest, conflict = some (.clause ref) ∧ tail = ref :: rest ∧
          after.Refutes (.clause ref)) := by
  have begins := (propagates.propagating reached.resting).sweeping waiting
  obtain ⟨swept, stops, tail, done, tour, kept, ended⟩ := begins.exists_tour
  have sweeping := tour.sweeping begins
  have covered : state.dequeue.watches.Covers literal.negate := by
    simpa [WatchIndex.Covers, setWatchList, WatchIndex.replace] using begins.covers
  refine ⟨swept.conflict, swept.solver.setWatchList literal.negate swept.kept, stops, tail,
    propagateLiteral_of_swept covered done sweeping.emptied, ?_, ?_⟩
  · rw [kept]
    exact tour.compacts sweeping.covers begins.fails
  · rcases ended with peaceful | ⟨ref, rest, clause, met, stopped, found, visited⟩
    · exact .inl peaceful
    · have explained := Clause.explained_of_visit visited
      exact .inr ⟨ref, rest, met, stopped, ref, clause, rfl, found,
        Clause.fails_of_refuted sweeping.fails explained⟩

/-- Four clauses begin with a literal, of which the third repeats it and is listed twice. When the
literal becomes false, the first clause moves behind the one that is listed under its second literal, the
second clause forces its last literal and stays, and the third is refuted. -/
theorem propagateLiteral_compacts_at_conflict :
    let literal : Literal := ⟨1, by decide⟩
    let target : Literal := ⟨2, by decide⟩
    ∃ solver state after stops rest, Reachable solver ∧
      Propagates Clock.stopped solver (.assign literal) state ∧
      state.trail.next? = some literal ∧
      state.dequeue.propagateLiteral literal = .ok (some (.clause ⟨2⟩), after) ∧
      state.watches.watchedBy literal.negate = #[⟨0⟩, ⟨1⟩, ⟨2⟩, ⟨2⟩, ⟨3⟩] ∧
      after.watches.watchedBy literal.negate = #[⟨1⟩, ⟨2⟩, ⟨2⟩, ⟨3⟩] ∧
      state.watches.watchedBy target = #[⟨4⟩] ∧ after.watches.watchedBy target = #[⟨4⟩, ⟨0⟩] ∧
      Compacts literal.negate state stops (⟨2⟩ :: rest) after := by
  intro literal target
  let commands : List Command :=
    [.addClause #[⟨0, by decide⟩, ⟨2, by decide⟩, ⟨4, by decide⟩],
      .addClause #[⟨0, by decide⟩, ⟨0, by decide⟩, ⟨6, by decide⟩],
      .addClause #[⟨0, by decide⟩, ⟨0, by decide⟩],
      .addClause #[⟨0, by decide⟩, ⟨8, by decide⟩],
      .addClause #[⟨2, by decide⟩, ⟨8, by decide⟩]]
  have computed : ((run Clock.stopped {} commands).toOption.bind fun solver =>
      (solver.enqueued? literal).bind fun state =>
        (state.dequeue.propagateLiteral literal).toOption.map fun done =>
          (state.trail.next?, done.1,
            [state.watches.watchedBy literal.negate, done.2.watches.watchedBy literal.negate,
              state.watches.watchedBy target, done.2.watches.watchedBy target])) =
      some (some literal, some (.clause ⟨2⟩), [#[⟨0⟩, ⟨1⟩, ⟨2⟩, ⟨2⟩, ⟨3⟩],
        #[⟨1⟩, ⟨2⟩, ⟨2⟩, ⟨3⟩], #[⟨4⟩], #[⟨4⟩, ⟨0⟩]]) := by
    decide +kernel
  obtain ⟨solver, reached, view⟩ := exists_reachable computed
  obtain ⟨state, found, swept⟩ := Option.bind_eq_some_iff.mp view
  have propagates : Propagates Clock.stopped solver (.assign literal) state :=
    .of_enqueued? (.assign literal) found
  obtain ⟨done, finished, same⟩ := Option.map_eq_some_iff.mp swept
  simp only [Prod.mk.injEq, List.cons.injEq, and_true] at same
  obtain ⟨waiting, met, listed, compacted, before, appended⟩ := same
  obtain ⟨conflict, after, stops, tail, propagated, compacts, ended⟩ :=
    propagateLiteral_compacts reached propagates waiting
  rw [propagated] at finished
  cases finished
  subst met
  rcases ended with ⟨none_, -⟩ | ⟨ref, rest, stopped, rfl, -⟩
  · cases none_
  · cases stopped
    exact ⟨solver, state, after, stops, rest, reached, propagates, waiting, propagated, listed,
      compacted, before, appended, compacts⟩

end Solver

end Dpll
