import Dpll.Proofs.Solving

/-!
# Running again

What propagation does to the watches serves a second run. A clause that is kept in the list of a false
literal has a true watched literal, so its watches stay where they are until levels are undone, and no
clause joins the list of a literal that is false (`Solver.Keeps`). A second run from the watches that
the first one left therefore visits just the clauses that were kept, moves no watch and makes the same
literals true in the same order. Main statement: `Solver.Rooting.repeats_assignAll`.
-/

set_option autoImplicit false

namespace Dpll

theorem Clause.explained_of_visit {clause : Clause} {falsified : Literal} {values : Valuation}
    {outcome : Clause.Visit clause} (visited : clause.visit falsified values = outcome) :
    outcome.Explained falsified values :=
  visited ▸ clause.visit_explained falsified values

def Clause.Served (clause : Clause) (values : Valuation) : Prop :=
  ∃ slot, (clause.watched slot).value values = .holds

/-! ## The queue -/

namespace Trail

def Waits (trail : Trail) (literal : Literal) : Prop :=
  ∃ entry ∈ trail.entries.take trail.pending, entry.literal = literal

variable {trail : Trail} {literal other : Literal}

private theorem Waits.of_assign (waits : (trail.assign literal).Waits other) :
    other = literal ∨ trail.Waits other := by
  obtain ⟨entry, taken, rfl⟩ := waits
  rcases List.mem_cons.mp taken with rfl | older
  · exact .inl rfl
  · exact .inr ⟨entry, older, rfl⟩

private theorem Waits.of_advance (waits : trail.advance.Waits literal) : trail.Waits literal := by
  obtain ⟨entry, taken, same⟩ := waits
  exact ⟨entry, List.take_subset_take_left _ (Nat.sub_le ..) taken, same⟩

private theorem waits_of_next? (first : trail.next? = some literal) : trail.Waits literal := by
  obtain ⟨level, newer, pending, here⟩ := next?_eq_some_iff.mp first
  refine ⟨⟨literal, level⟩, ?_, rfl⟩
  rw [pending, List.take_add_one, here]
  simp

private theorem not_waits_advance (faithful : trail.Faithful) (first : trail.next? = some literal) :
    ¬ trail.advance.Waits literal := by
  obtain ⟨level, newer, pending, here⟩ := next?_eq_some_iff.mp first
  obtain ⟨inside, here⟩ := List.getElem?_eq_some_iff.mp here
  rintro ⟨entry, taken, same⟩
  have advanced : trail.advance.pending = newer := by simp [advance, pending]
  change entry ∈ trail.entries.take trail.advance.pending at taken
  rw [advanced] at taken
  obtain ⟨index, small, rfl⟩ := List.mem_take_iff_getElem.mp taken
  have below : index < newer := Nat.lt_of_lt_of_le small (Nat.min_le_left ..)
  refine List.pairwise_iff_getElem.mp faithful.distinct index newer (by omega) inside below ?_
  rw [same, here]

end Trail

namespace Solver

/-! ## What propagation leaves alone -/

/-- From one state to a later one of the same run: true literals stay true, clauses with a true watched
literal keep their watches, and so do the lists of false literals that have been propagated. -/
structure Keeps (before after : Solver) : Prop where
  holds : ∀ literal : Literal, literal.value before.model = .holds →
    literal.value after.model = .holds
  served : ∀ ref clause, before.clauses.get? ref = some clause → clause.Served before.model →
    after.clauses.get? ref = some clause
  lists : ∀ literal : Literal, literal.value before.model = .fails →
    ¬ before.trail.Waits literal.negate →
    after.watches.watchedBy literal = before.watches.watchedBy literal
  waits : ∀ literal : Literal, literal.value before.model = .holds → after.trail.Waits literal →
    before.trail.Waits literal
  covers : ∀ literal, before.watches.Covers literal → after.watches.Covers literal

namespace Keeps

variable {first second third solver : Solver} {literal falsified : Literal} {ref : ClauseRef}
  {clause : Clause}

theorem refl (solver : Solver) : solver.Keeps solver :=
  ⟨fun _ => id, fun _ _ found _ => found, fun _ _ _ => rfl, fun _ _ => id, fun _ => id⟩

theorem fails (keeps : first.Keeps second) (false_ : literal.value first.model = .fails) :
    literal.value second.model = .fails :=
  Literal.value_eq_fails_iff.mpr (keeps.holds _ (Literal.value_eq_fails_iff.mp false_))

private theorem served_after (keeps : first.Keeps second) (served : clause.Served first.model) :
    clause.Served second.model := by
  obtain ⟨slot, true_⟩ := served
  exact ⟨slot, keeps.holds _ true_⟩

theorem trans (left : first.Keeps second) (right : second.Keeps third) : first.Keeps third where
  holds literal true_ := right.holds literal (left.holds literal true_)
  served ref clause found served :=
    right.served ref clause (left.served ref clause found served) (left.served_after served)
  lists literal false_ propagated := by
    have true_ := Literal.value_eq_fails_iff.mp false_
    rw [right.lists literal (left.fails false_) fun waits => propagated (left.waits _ true_ waits)]
    exact left.lists literal false_ propagated
  waits literal true_ waits :=
    left.waits literal true_ (right.waits literal (left.holds literal true_) waits)
  covers literal covered := right.covers literal (left.covers literal covered)

theorem record (solver : Solver) (event : Event) : solver.Keeps (solver.record event) :=
  ⟨fun _ => id, fun _ _ found _ => found, fun _ _ _ => rfl, fun _ _ => id, fun _ => id⟩

theorem pushed (covered : solver.trail.Covers literal)
    (free : literal.value solver.model = .unset) : solver.Keeps (solver.pushed literal) where
  holds other true_ := (Formula.holds_setTrue_iff covered free).mpr (.inr true_)
  served _ _ found _ := found
  lists _ _ _ := rfl
  waits other true_ waits := by
    rcases Trail.Waits.of_assign waits with rfl | older
    · rw [free] at true_
      cases true_
    · exact older
  covers _ := id

theorem forced (ref : ClauseRef) (covered : solver.trail.Covers literal)
    (free : literal.value solver.model = .unset) :
    solver.Keeps ((solver.record (.forced ref literal)).pushed literal) :=
  have pushed : (solver.record (.forced ref literal)).Keeps _ := pushed covered free
  (record solver _).trans pushed

theorem concede (solver : Solver) (literal : Literal) (reason : Conflict) :
    solver.Keeps (solver.concede literal reason) where
  holds _ := id
  served _ _ found _ := found
  lists _ _ _ := rfl
  waits _ _ waits := by
    obtain ⟨entry, taken, -⟩ := waits
    simp [Solver.concede, Solver.record, Trail.settle] at taken
  covers _ := id

theorem rewatch {slot : Slot} {position : Fin clause.literals.size}
    (false_ : falsified.value solver.model = .fails)
    (found : solver.clauses.get? ref = some clause)
    (explained : (Clause.Visit.movable slot position).Explained falsified solver.model) :
    solver.Keeps (solver.rewatch ref clause slot position) := by
  obtain ⟨watching, -, -, notFalse, notTrue⟩ := explained
  exact {
    holds := fun _ => id
    served := by
      intro other stored foundStored ⟨watch, true_⟩
      by_cases same : other = ref
      · subst same
        cases found.symm.trans foundStored
        rcases slot.eq_or_eq_other watch with rfl | rfl
        · rw [watching, false_] at true_
          cases true_
        · exact absurd true_ notTrue
      · exact (ClauseStore.get?_set_of_ne same _).trans foundStored
    lists := by
      intro other otherFalse _
      refine WatchIndex.watchedBy_watch_of_ne ?_ ref
      rintro rfl
      exact notFalse otherFalse
    waits := fun _ _ => id
    covers := by
      intro other covered
      simpa [WatchIndex.Covers, Solver.rewatch, Solver.record, WatchIndex.watch] using covered }

end Keeps

/-! ## Sweeps as runs -/

inductive Swept (falsified : Literal) :
    List ClauseRef → Solver → List ClauseRef → Solver → Option Conflict → Prop
  | done (solver : Solver) : Swept falsified [] solver [] solver none
  | stray {ref rest solver stay after conflict}
      (later : Swept falsified rest (solver.record (.strayWatch ref falsified)) stay after conflict) :
      Swept falsified (ref :: rest) solver stay after conflict
  | satisfied {ref rest solver stay after conflict} {clause : Clause}
      (found : solver.clauses.get? ref = some clause)
      (visited : clause.visit falsified solver.model = .satisfied)
      (later : Swept falsified rest solver stay after conflict) :
      Swept falsified (ref :: rest) solver (ref :: stay) after conflict
  | moved {ref rest solver stay after conflict} {clause : Clause} {slot position}
      (found : solver.clauses.get? ref = some clause)
      (visited : clause.visit falsified solver.model = .movable slot position)
      (later : Swept falsified rest (solver.rewatch ref clause slot position) stay after conflict) :
      Swept falsified (ref :: rest) solver stay after conflict
  | forced {ref rest solver stay after conflict} {clause : Clause} {literal}
      (found : solver.clauses.get? ref = some clause)
      (visited : clause.visit falsified solver.model = .forcing literal)
      (covered : solver.trail.Covers literal)
      (later : Swept falsified rest ((solver.record (.forced ref literal)).pushed literal) stay after
        conflict) :
      Swept falsified (ref :: rest) solver (ref :: stay) after conflict
  | refuted {ref rest solver} {clause : Clause}
      (found : solver.clauses.get? ref = some clause)
      (visited : clause.visit falsified solver.model = .refuted) :
      Swept falsified (ref :: rest) solver (ref :: rest) solver (some (.clause ref))

variable {solver next again after : Solver} {literal falsified : Literal}
  {refs stay : List ClauseRef} {kept : Array ClauseRef} {swept : Sweep} {conflict : Option Conflict}

theorem push_eq_ok_of_unset (free : literal.value solver.model = .unset)
    (done : solver.push literal = .ok (conflict, next)) :
    solver.trail.Covers literal ∧ conflict = none ∧ next = solver.pushed literal := by
  by_cases covered : solver.trail.Covers literal
  · rw [push_of_unset covered free] at done
    cases done
    exact ⟨covered, rfl, rfl⟩
  · have value : literal.value solver.trail.values = .unset := free
    simp [push, Trail.judge, value, covered] at done

theorem unset_of_forcing {clause : Clause} {values : Valuation}
    (visited : clause.visit falsified values = .forcing literal) :
    literal.value values = .unset := by
  obtain ⟨slot, -, -, free, -⟩ := Clause.explained_of_visit visited
  exact free

private theorem exists_swept (done : sweep falsified refs kept solver = .ok swept) :
    ∃ stay, Swept falsified refs solver stay swept.solver swept.conflict ∧
      swept.kept = kept ++ stay.toArray := by
  induction refs generalizing kept solver with
  | nil => cases done; exact ⟨[], .done solver, by simp⟩
  | cons ref rest ih =>
      unfold sweep at done
      split at done
      · cases done
      · next clause found =>
        split at done
        · obtain ⟨stay, later, same⟩ := ih done
          exact ⟨stay, .stray later, same⟩
        · next visited =>
          obtain ⟨stay, later, same⟩ := ih done
          exact ⟨ref :: stay, .satisfied found visited later, by simp [same]⟩
        · next visited =>
          split at done
          · obtain ⟨stay, later, same⟩ := ih done
            exact ⟨stay, .moved found visited later, same⟩
          · cases done
        · next literal visited =>
          have free : literal.value (solver.record (.forced ref literal)).model = .unset :=
            unset_of_forcing visited
          split at done
          · cases done
          · next pushes =>
            obtain ⟨covered, -, rfl⟩ := push_eq_ok_of_unset free pushes
            obtain ⟨stay, later, same⟩ := ih done
            exact ⟨ref :: stay, .forced found visited covered later, by simp [same]⟩
          · next pushes =>
            obtain ⟨-, impossible, -⟩ := push_eq_ok_of_unset free pushes
            cases impossible
        · next visited =>
          cases done
          exact ⟨ref :: rest, .refuted found visited, by simp⟩

namespace Swept

theorem keeps (run : Swept falsified refs solver stay after conflict)
    (false_ : falsified.value solver.model = .fails) : solver.Keeps after := by
  induction run with
  | done solver => exact .refl solver
  | stray _ ih => exact (Keeps.record _ _).trans (ih false_)
  | satisfied _ _ _ ih => exact ih false_
  | moved found visited _ ih =>
      have moved := Keeps.rewatch false_ found (Clause.explained_of_visit visited)
      exact moved.trans (ih (moved.fails false_))
  | @forced ref _ _ _ _ _ _ _ _ visited covered _ ih =>
      have forced := Keeps.forced ref covered (unset_of_forcing visited)
      exact forced.trans (ih (forced.fails false_))
  | refuted => exact .refl _

/-- A visit that forces a literal leaves the clause with a true watched literal. -/
theorem served_of_forcing {clause : Clause} (ref : ClauseRef)
    (visited : clause.visit falsified solver.model = .forcing literal)
    (covered : solver.trail.Covers literal) :
    clause.Served ((solver.record (.forced ref literal)).pushed literal).model := by
  obtain ⟨slot, -, rfl, -, -⟩ := Clause.explained_of_visit visited
  exact ⟨slot.other, Formula.value_setTrue_self covered⟩

private theorem served_of_satisfied {clause : Clause}
    (visited : clause.visit falsified solver.model = .satisfied) : clause.Served solver.model := by
  obtain ⟨slot, -, true_⟩ := Clause.explained_of_visit visited
  exact ⟨slot.other, true_⟩

/-- After a sweep without conflict, every clause that stays in the list has a true watched literal. -/
theorem served (run : Swept falsified refs solver stay after conflict)
    (false_ : falsified.value solver.model = .fails) (peaceful : conflict = none) :
    ∀ ref ∈ stay, ∃ clause, after.clauses.get? ref = some clause ∧ clause.Served after.model := by
  induction run with
  | done => simp
  | stray _ ih => exact ih false_ peaceful
  | satisfied found visited later ih =>
      have keeps := later.keeps false_
      have served := served_of_satisfied visited
      exact List.forall_mem_cons.mpr
        ⟨⟨_, keeps.served _ _ found served, keeps.served_after served⟩, ih false_ peaceful⟩
  | moved found visited _ ih =>
      exact ih ((Keeps.rewatch false_ found (Clause.explained_of_visit visited)).fails false_) peaceful
  | @forced ref _ _ _ _ _ _ _ found visited covered later ih =>
      have false_ := (Keeps.forced ref covered (unset_of_forcing visited)).fails false_
      have keeps := later.keeps false_
      have served := served_of_forcing ref visited covered
      exact List.forall_mem_cons.mpr
        ⟨⟨_, keeps.served _ _ found served, keeps.served_after served⟩, ih false_ peaceful⟩
  | refuted => cases peaceful

end Swept

structure Unmoved (before after : Solver) : Prop where
  clauses : after.clauses = before.clauses
  watches : after.watches = before.watches
  variableCount : after.statistics.variableCount = before.statistics.variableCount

theorem Unmoved.trans {first second third : Solver} (left : first.Unmoved second)
    (right : second.Unmoved third) : first.Unmoved third :=
  ⟨right.clauses.trans left.clauses, right.watches.trans left.watches,
    right.variableCount.trans left.variableCount⟩

/-- A sweep over the clauses that stayed in the list, as the first sweep left them, visits each of them
to the same effect. -/
theorem Swept.replay (run : Swept falsified refs solver stay after conflict)
    (false_ : falsified.value solver.model = .fails) (trail : again.trail = solver.trail)
    (same : ∀ ref ∈ stay, again.clauses.get? ref = after.clauses.get? ref)
    (prior : Array ClauseRef) :
    ∃ final, sweep falsified stay prior again = .ok ⟨final, prior ++ stay.toArray, conflict⟩ ∧
      final.trail = after.trail ∧ again.Unmoved final := by
  induction run generalizing again prior with
  | done => exact ⟨again, by simp [sweep], trail, rfl, rfl, rfl⟩
  | stray _ ih => exact ih false_ trail same prior
  | @satisfied ref _ solver _ _ _ _ found visited later ih =>
      obtain ⟨here, there⟩ := List.forall_mem_cons.mp same
      have stored := here.trans
        ((later.keeps false_).served _ _ found (served_of_satisfied visited))
      have model : again.model = solver.model := congrArg Trail.values trail
      obtain ⟨final, swept, result⟩ := ih false_ trail there (prior.push ref)
      refine ⟨final, ?_, result⟩
      simp only [sweep, stored, model, visited, swept, List.push_append_toArray]
  | moved found visited _ ih =>
      exact ih ((Keeps.rewatch false_ found (Clause.explained_of_visit visited)).fails false_) trail
        same prior
  | @forced ref _ solver _ _ _ _ literal found visited covered later ih =>
      obtain ⟨here, there⟩ := List.forall_mem_cons.mp same
      have false_ := (Keeps.forced ref covered (unset_of_forcing visited)).fails false_
      have stored := here.trans
        ((later.keeps false_).served _ _ found (served_of_forcing ref visited covered))
      have model : again.model = solver.model := congrArg Trail.values trail
      have pushes : (again.record (.forced ref literal)).push literal = _ :=
        push_of_unset (trail ▸ covered) (model ▸ unset_of_forcing visited)
      have assigned : ((again.record (.forced ref literal)).pushed literal).trail =
          ((solver.record (.forced ref literal)).pushed literal).trail :=
        congrArg (Trail.assign · literal) trail
      obtain ⟨final, swept, ended, unmoved⟩ := ih false_ assigned there (prior.push ref)
      refine ⟨final, ?_, ended, unmoved.clauses, unmoved.watches, unmoved.variableCount⟩
      simp only [sweep, stored, model, visited, pushes, swept, List.push_append_toArray]
  | @refuted _ _ solver _ found visited =>
      have stored := (same _ (.head _)).trans found
      have model : again.model = solver.model := congrArg Trail.values trail
      refine ⟨again, ?_, trail, rfl, rfl, rfl⟩
      simp only [sweep, stored, model, visited, List.push_append_toArray]

/-! ## Rounds of propagation -/

theorem exists_swept_of_propagateLiteral
    (done : solver.propagateLiteral literal = .ok (conflict, next)) :
    solver.watches.Covers literal.negate ∧ ∃ stay after,
      Swept literal.negate (solver.watches.watchedBy literal.negate).toList
        (solver.setWatchList literal.negate #[]) stay after conflict ∧
      next = after.setWatchList literal.negate stay.toArray := by
  unfold propagateLiteral at done
  split at done
  · next covered =>
    split at done
    · cases done
    · next swept sweeps =>
      split at done
      · cases done
        obtain ⟨stay, run, same⟩ := exists_swept sweeps
        exact ⟨covered, stay, swept.solver, run, by simp [same]⟩
      · cases done
  · cases done

private theorem covers_setWatchList {other : Literal} {list : Array ClauseRef} :
    (solver.setWatchList literal list).watches.Covers other ↔ solver.watches.Covers other := by
  simp [WatchIndex.Covers, setWatchList, WatchIndex.replace]

namespace Swept

/-- A sweep for a literal that was the first to wait. Only its own list is put together anew. -/
theorem keeps_restored (run : Swept literal.negate refs
      (solver.dequeue.setWatchList literal.negate #[]) stay after conflict)
    (false_ : literal.negate.value solver.model = .fails) (waits : solver.trail.Waits literal) :
    solver.Keeps (after.setWatchList literal.negate stay.toArray) := by
  have keeps := run.keeps false_
  refine ⟨keeps.holds, keeps.served, ?_, ?_, ?_⟩
  · intro other otherFalse propagated
    have different : other ≠ literal.negate := by
      rintro rfl
      rw [Literal.negate_negate] at propagated
      exact propagated waits
    have same := keeps.lists other otherFalse fun waits => propagated (Trail.Waits.of_advance waits)
    exact (WatchIndex.watchedBy_replace_of_ne different _).trans
      (same.trans (WatchIndex.watchedBy_replace_of_ne different _))
  · exact fun other true_ waits => Trail.Waits.of_advance (keeps.waits other true_ waits)
  · intro other covered
    have still : solver.dequeue.watches.Covers other := covered
    exact covers_setWatchList.mpr (keeps.covers other (covers_setWatchList.mpr still))

private theorem replay_restored (run : Swept literal.negate refs
      (solver.dequeue.setWatchList literal.negate #[]) stay after conflict)
    (false_ : literal.negate.value solver.model = .fails) (trail : again.trail = solver.trail)
    (covered : again.watches.Covers literal.negate)
    (list : again.watches.watchedBy literal.negate = stay.toArray)
    (same : ∀ ref ∈ stay, again.clauses.get? ref = after.clauses.get? ref) :
    ∃ final, again.dequeue.propagateLiteral literal = .ok (conflict, final) ∧
      final.trail = after.trail ∧ again.Unmoved final := by
  have advanced : (again.dequeue.setWatchList literal.negate #[]).trail =
      (solver.dequeue.setWatchList literal.negate #[]).trail := congrArg Trail.advance trail
  obtain ⟨final, swept, ended, unmoved⟩ := run.replay false_ advanced same #[]
  have all : again.dequeue.sweepAll literal.negate = .ok ⟨final, stay.toArray, conflict⟩ := by
    have listed : again.dequeue.watches.watchedBy literal.negate = stay.toArray := list
    rw [sweepAll, listed]
    simpa using swept
  have emptied : final.watches.watchedBy literal.negate = #[] := by
    rw [unmoved.watches]
    exact WatchIndex.watchedBy_replace_self covered _
  have room : again.dequeue.watches.Covers literal.negate := covered
  refine ⟨final.setWatchList literal.negate stay.toArray, ?_, ended, unmoved.clauses, ?_,
    unmoved.variableCount⟩
  · exact propagateLiteral_of_swept room all emptied
  · change final.watches.replace _ _ = _
    rw [unmoved.watches, ← list]
    exact (WatchIndex.replace_replace ..).trans (WatchIndex.replace_watchedBy ..)

end Swept

/-- A later state of a run that holds what the run up to an earlier one has left in the watches. After
a conflict the run has ended. -/
structure Lasts (conflict : Option Conflict) (after final : Solver) : Prop where
  keeps : after.Keeps final
  ended : conflict ≠ none → final.clauses = after.clauses ∧ final.watches = after.watches

structure Recalls (again solver final : Solver) : Prop where
  trail : again.trail = solver.trail
  clauses : again.clauses = final.clauses
  watches : again.watches = final.watches
  variableCount : again.statistics.variableCount = solver.statistics.variableCount

/-- A run that goes the same way again from the watches that it left, or that were left later. -/
structure Repeats (run : Solver → Except Fault (Option Conflict × Solver)) (solver : Solver)
    (conflict : Option Conflict) (after : Solver) : Prop where
  keeps : solver.Keeps after
  again {final again : Solver} (lasts : Lasts conflict after final)
    (recalls : Recalls again solver final) :
    ∃ echo, run again = .ok (conflict, echo) ∧ echo.trail = after.trail ∧ again.Unmoved echo

variable {bound : Nat} {final : Solver}

theorem Lasts.before (lasts : Lasts conflict after final) (keeps : solver.Keeps after) :
    Lasts none solver final :=
  ⟨keeps.trans lasts.keeps, fun impossible => absurd rfl impossible⟩

theorem Recalls.proceed (recalls : Recalls again solver final) {echo : Solver}
    (trail : echo.trail = next.trail) (unmoved : again.Unmoved echo)
    (same : next.statistics.variableCount = solver.statistics.variableCount) :
    Recalls echo next final :=
  ⟨trail, unmoved.clauses.trans recalls.clauses, unmoved.watches.trans recalls.watches,
    (unmoved.variableCount.trans recalls.variableCount).trans same.symm⟩

private theorem repeats_round (faithful : solver.trail.Faithful)
    (waiting : solver.trail.next? = some literal)
    (done : solver.dequeue.propagateLiteral literal = .ok (conflict, next)) :
    Repeats (·.dequeue.propagateLiteral literal) solver conflict next := by
  obtain ⟨covered, stay, after, run, rfl⟩ := exists_swept_of_propagateLiteral done
  have waits := Trail.waits_of_next? waiting
  have true_ : literal.value solver.model = .holds := by
    obtain ⟨entry, taken, rfl⟩ := waits
    exact faithful.holds (List.mem_of_mem_take taken)
  have false_ : literal.negate.value solver.model = .fails := by
    rw [Literal.value_eq_fails_iff, Literal.negate_negate]
    exact true_
  have within := run.keeps false_
  have list : (after.setWatchList literal.negate stay.toArray).watches.watchedBy literal.negate =
      stay.toArray :=
    WatchIndex.watchedBy_replace_self (within.covers _ (covers_setWatchList.mpr covered)) _
  have keeps := run.keeps_restored false_ waits
  refine ⟨keeps, fun {final again} lasts recalls => ?_⟩
  have propagated : ¬ after.trail.Waits literal.negate.negate := by
    rw [Literal.negate_negate]
    exact fun still =>
      Trail.not_waits_advance faithful waiting (within.waits literal true_ still)
  -- After a conflict the run is over. Without one the clauses that stay in the list are served, so that
  -- nothing moves them later.
  have same : ∀ ref ∈ stay, final.clauses.get? ref = after.clauses.get? ref := by
    intro ref listed
    cases conflict with
    | none =>
        obtain ⟨clause, found, served⟩ := run.served false_ rfl ref listed
        exact (lasts.keeps.served ref clause found served).trans found.symm
    | some reason => exact congrArg (ClauseStore.get? · ref) (lasts.ended (by simp)).1
  refine run.replay_restored false_ recalls.trail ?_ ?_ (recalls.clauses ▸ same)
  · rw [recalls.watches]
    exact lasts.keeps.covers _ (keeps.covers _ covered)
  · rw [recalls.watches, ← list]
    exact lasts.keeps.lists _ (within.fails false_) propagated

/-! ## Propagation and unit clauses -/

theorem Propagating.repeats (propagating : Propagating bound solver)
    (done : solver.propagate = .ok (conflict, after)) : Repeats propagate solver conflict after := by
  induction load : solver.workload using Nat.strongRecOn generalizing solver with
  | ind bounded ih =>
      cases waiting : solver.trail.next? with
      | none =>
          rw [propagate_of_idle waiting] at done
          cases done
          refine ⟨.refl _, fun {final again} lasts recalls => ?_⟩
          exact ⟨again, propagate_of_idle (recalls.trail ▸ waiting), recalls.trail, rfl, rfl, rfl⟩
      | some literal =>
          obtain ⟨met, next, swept, -, continues, -, -, proceed, -⟩ :=
            propagating.exists_propagateLiteral waiting
          have round := repeats_round propagating.faithful waiting swept
          rw [propagate_of_swept waiting swept] at done
          cases met with
          | none =>
              have lighter : next.workload < bounded := by
                rw [workload_propagateLiteral swept, ← load]
                exact workload_dequeue waiting
              have later := ih next.workload lighter (proceed rfl) done rfl
              refine ⟨round.keeps.trans later.keeps, fun {final again} lasts recalls => ?_⟩
              obtain ⟨middle, first, trail, unmoved⟩ :=
                round.again (lasts.before later.keeps) recalls
              obtain ⟨echo, rest, ended, still⟩ := later.again lasts
                (recalls.proceed trail unmoved continues.variableCount)
              exact ⟨echo, (propagate_of_swept (recalls.trail ▸ waiting) first).trans rest, ended,
                unmoved.trans still⟩
          | some reason =>
              cases done
              have conceded := Keeps.concede next literal reason
              refine ⟨round.keeps.trans conceded, fun {final again} lasts recalls => ?_⟩
              obtain ⟨echo, first, trail, unmoved⟩ :=
                round.again ⟨conceded.trans lasts.keeps, lasts.ended⟩ recalls
              refine ⟨echo.concede literal reason,
                propagate_of_swept (recalls.trail ▸ waiting) first, ?_, unmoved.clauses,
                unmoved.watches, unmoved.variableCount⟩
              exact congrArg Trail.settle trail

private theorem Resting.repeats_assign (resting : solver.Resting)
    (guarded : solver.clauses.Guarded solver.trail.entries bound 0)
    (covered : solver.trail.Covers literal)
    (done : solver.assign literal = .ok (conflict, after)) :
    Repeats (·.assign literal) solver conflict after := by
  have room := resting.toIntact.room covered
  have roomAgain {again final : Solver} (recalls : Recalls again solver final) :
      literal.var + 1 ≤ again.statistics.variableCount := recalls.variableCount ▸ room
  have model {again final : Solver} (recalls : Recalls again solver final) :
      again.model = solver.model := congrArg Trail.values recalls.trail
  cases value : literal.value solver.model with
  | holds =>
      have idle := (Trail.next?_eq_none_iff resting.faithful).mpr resting.idle
      cases ((assign_of_holds room value).trans (propagate_of_idle idle)).symm.trans done
      refine ⟨.refl _, fun {final again} lasts recalls => ⟨again, ?_, recalls.trail, rfl, rfl, rfl⟩⟩
      exact (assign_of_holds (roomAgain recalls) (model recalls ▸ value)).trans
        (propagate_of_idle (recalls.trail ▸ idle))
  | fails =>
      cases (assign_of_fails room value).symm.trans done
      refine ⟨.record _ _, fun {final again} lasts recalls => ?_⟩
      exact ⟨_, assign_of_fails (roomAgain recalls) (model recalls ▸ value), recalls.trail, rfl, rfl,
        rfl⟩
  | unset =>
      rw [assign_of_unset room covered value] at done
      have later := (resting.propagating guarded covered value).repeats done
      refine ⟨(Keeps.pushed covered value).trans later.keeps, fun {final again} lasts recalls => ?_⟩
      have pushed : Recalls (again.pushed literal) (solver.pushed literal) final :=
        ⟨congrArg (Trail.assign · literal) recalls.trail, recalls.clauses, recalls.watches,
          recalls.variableCount⟩
      obtain ⟨echo, run, ended, unmoved⟩ := later.again lasts pushed
      refine ⟨echo, ?_, ended, unmoved.clauses, unmoved.watches, unmoved.variableCount⟩
      exact (assign_of_unset (roomAgain recalls) (recalls.trail ▸ covered)
        (model recalls ▸ value)).trans run

/-- The unit clauses have the same consequences again, in the same order and up to the same conflict. -/
theorem Rooting.repeats_assignAll {problem : Problem} (rooting : Rooting problem solver)
    {literals : List Literal} (units : ∀ literal ∈ literals, [literal] ∈ problem.formula)
    (done : solver.assignAll literals = .ok (conflict, after)) :
    Repeats (·.assignAll literals) solver conflict after := by
  induction literals generalizing solver with
  | nil =>
      cases done
      exact ⟨.refl _, fun {final again} lasts recalls =>
        ⟨again, rfl, recalls.trail, rfl, rfl, rfl⟩⟩
  | cons literal rest ih =>
      have unit := units literal (.head _)
      obtain ⟨met, next, assigned, outcome⟩ := rooting.exists_assign unit
      have first := rooting.toResting.repeats_assign (rooting.guarded (solver.level + 1))
        (rooting.covers_unit unit) assigned
      simp only [assignAll, assigned] at done
      cases met with
      | some reason =>
          cases done
          refine ⟨first.keeps, fun {final again} lasts recalls => ?_⟩
          obtain ⟨echo, run, result⟩ := first.again lasts recalls
          exact ⟨echo, by simp only [assignAll, run], result⟩
      | none =>
          have later := ih outcome.1 (fun other member => units other (.tail _ member)) done
          refine ⟨first.keeps.trans later.keeps, fun {final again} lasts recalls => ?_⟩
          obtain ⟨middle, run, trail, unmoved⟩ := first.again (lasts.before later.keeps) recalls
          have count : next.statistics.variableCount = solver.statistics.variableCount :=
            congrArg Problem.variableCount (outcome.1.same.trans rooting.same.symm)
          obtain ⟨echo, rerun, ended, still⟩ :=
            later.again lasts (recalls.proceed trail unmoved count)
          exact ⟨echo, by simp only [assignAll, run, rerun], ended, unmoved.trans still⟩

/-! ## Searching again -/

def onlyLiteral? : List Literal → Option Literal
  | [literal] => some literal
  | _ => none

private theorem onlyLiteral?_eq_some_iff {clause : List Literal} :
    onlyLiteral? clause = some literal ↔ clause = [literal] := by
  unfold onlyLiteral?
  split <;> simp_all

private theorem units_eq_of_formula_eq {left right : Solver} (same : left.formula = right.formula) :
    left.units = right.units := by
  have read (solver : Solver) : solver.units = solver.formula.filterMap onlyLiteral? := by
    simp only [units, formula, List.filterMap_map]
    congr 1
    funext clause
    refine Option.ext fun literal => ?_
    rw [unit?_eq_some_iff, Function.comp_apply, onlyLiteral?_eq_some_iff]
  rw [read, read, same]

theorem Rooting.begin_repeats {problem : Problem} (rooting : Rooting problem solver)
    (nonempty : problem.hasEmptyClause = false)
    (begun : solver.begin = .ok (.finished .unsat after))
    (recalls : Recalls again solver after) (same : again.problem = problem) :
    ∃ echo, again.begin = .ok (.finished .unsat echo) ∧ echo.trail = after.trail := by
  have given : solver.hasEmptyClause = false :=
    (congrArg Problem.hasEmptyClause rooting.same).trans nonempty
  have givenAgain : again.hasEmptyClause = false :=
    (congrArg Problem.hasEmptyClause same).trans nonempty
  have units : again.units = solver.units :=
    units_eq_of_formula_eq (congrArg Problem.formula (same.trans rooting.same.symm))
  obtain ⟨conflict, next, assigned, -⟩ := rooting.exists_assignAll solver.units
    fun literal member => rooting.formula ▸ mem_units_iff.mp member
  have repeats := rooting.repeats_assignAll
    (fun literal member => rooting.formula ▸ mem_units_iff.mp member) assigned
  simp only [begin, given, assigned, Bool.false_eq_true, ↓reduceIte] at begun
  cases conflict with
  | none => cases begun
  | some reason =>
      cases begun
      obtain ⟨echo, run, trail, -⟩ := repeats.again ⟨.refl _, fun _ => ⟨rfl, rfl⟩⟩ recalls
      refine ⟨echo, ?_, trail⟩
      simp only [begin, givenAgain, units, run, Bool.false_eq_true, ↓reduceIte]

private theorem Cleared.trail_eq (cleared : solver.Cleared) : solver.trail =
    { values := .ofEntries solver.statistics.variableCount [] } := by
  have values : solver.trail.values = _ := cleared.toIntact.model_eq
  have entries := cleared.entries
  have level := cleared.level
  have idle := cleared.idle
  rw [entries] at values
  cases shape : solver.trail with
  | mk _ _ _ _ =>
      rw [shape] at values entries level idle
      cases values
      cases entries
      cases level
      cases idle
      rfl

/-- Two restarts on one formula begin with the same trail. -/
theorem Resting.recalls_restart {left right : Solver} (leftResting : left.Resting)
    (rightResting : right.Resting) (same : right.problem = left.problem) :
    Recalls right.restart left.restart right := by
  have counts : right.statistics.variableCount = left.statistics.variableCount :=
    congrArg Problem.variableCount same
  refine ⟨?_, clauses_popTo right 0, watches_popTo right 0, ?_⟩
  · change right.reset.trail = left.reset.trail
    rw [rightResting.reset.trail_eq, leftResting.reset.trail_eq]
    change Trail.mk (.ofEntries (right.popTo 0).statistics.variableCount []) [] 0 0 =
      Trail.mk (.ofEntries (left.popTo 0).statistics.variableCount []) [] 0 0
    rw [statistics_popTo, statistics_popTo, counts]
  · change (right.popTo 0).statistics.variableCount = (left.popTo 0).statistics.variableCount
    rw [statistics_popTo, statistics_popTo, counts]

end Solver

end Dpll
