import Dpll.Proofs.Compaction
import Dpll.Proofs.Consistency
import Dpll.Proofs.Termination

/-!
# A search is never refused a literal

Making a false literal true is refused, and so ends a request with a conflict that names no clause. A
search never asks for it. The literal of a unit clause is not false as long as no clause is refuted, the
literals of decisions are undecided, and so are the forced ones (`Solver.Pushes` lists these calls). All
conflicts of a search are therefore clauses that are false in all literals, and the events that it adds
to the journal speak of no refusal. Nor does a search run out of variables with a clause left open.
-/

set_option autoImplicit false

namespace Dpll

def Event.isRejection : Event → Bool
  | .rejected _ _ => true
  | .conflicted _ (.assignment _) => true
  | _ => false

namespace Solver

variable {problem : Problem} {origin solver state current failed next after stopped : Solver}
  {clock : Clock} {status : Status} {literal falsified : Literal}
  {taken : List Literal} {conflict : Option Conflict} {refs stay : List ClauseRef}
  {decisions : List Decision} {found : Bool} {turns : Nat} {step : Step}

/-! ## Pushing literals -/

/-- The literals that a request pushes onto the trail, each with the state at that moment: those it sets
out to make true, and those that a visited clause forces. -/
inductive Pushes (clock : Clock) (origin : Solver) (command : Command) : Solver → Literal → Prop where
  | assigned {state wide : Solver} {literal : Literal} :
      Assigns clock origin command state literal →
      state.ensureVariables (literal.var + 1) = .ok wide → Pushes clock origin command wide literal
  | forced {state solver : Solver} {current literal : Literal} {stops : List Stop}
      {ref : ClauseRef} {rest : List ClauseRef} {clause : Clause} :
      Propagates clock origin command state → state.trail.next? = some current →
      Tour current.negate (state.watches.watchedBy current.negate).toList
        (state.dequeue.setWatchList current.negate #[]) stops (ref :: rest) solver →
      solver.clauses.get? ref = some clause →
      clause.visit current.negate solver.model = .forcing literal →
      Pushes clock origin command (solver.record (.forced ref literal)) literal

private theorem push_of_not_fails (covered : solver.trail.Covers literal)
    (possible : literal.value solver.model ≠ .fails) :
    ∃ next, solver.push literal = .ok (none, next) := by
  cases value : literal.value solver.model with
  | unset => exact ⟨_, push_of_unset covered value⟩
  | fails => exact absurd value possible
  | holds =>
      have value : literal.value solver.trail.values = .holds := value
      exact ⟨solver, by simp only [push, Trail.judge, value]⟩

private theorem Pushes.exists_push (pushes : Pushes clock origin .solve state literal)
    (resting : origin.Resting) : ∃ next, state.push literal = .ok (none, next) := by
  cases pushes with
  | assigned assigns grown =>
      obtain ⟨settled, covered, possible⟩ := assigns.ready resting
      rw [ensureVariables_of_le (settled.toIntact.room covered)] at grown
      cases grown
      exact push_of_not_fails covered possible
  | forced propagates waiting tour found visited =>
      have sweeping := tour.sweeping ((propagates.propagating resting).sweeping waiting)
      obtain ⟨free, covered, -⟩ := sweeping.forced found (Clause.explained_of_visit visited)
      exact ⟨_, push_of_unset covered free⟩

theorem Assigns.exists_assign (assigns : Assigns clock origin .solve state literal)
    (resting : origin.Resting) :
    ∃ conflict after, state.assign literal = .ok (conflict, after) ∧
      ∀ reason, conflict = some reason → after.Refutes reason := by
  obtain ⟨settled, covered, possible⟩ := assigns.ready resting
  obtain ⟨conflict, after, done, assigned⟩ :=
    settled.toResting.exists_assign_of_covers (settled.guarded 0) covered
  refine ⟨conflict, after, done, ?_⟩
  unfold Assigned at assigned
  split at assigned
  · rintro reason rfl
    cases assigned.1
  · next false_ => exact absurd false_ possible
  · exact assigned.refutes

/-! ## The journal -/

/-- Events were added to the journal, and none of them is about a refused literal. -/
def Accepts (before after : Solver) : Prop :=
  ∃ added, after.journal.events = added ++ before.journal.events ∧
    ∀ event ∈ added, event.isRejection = false

namespace Accepts

variable {first second third : Solver}

theorem refl (solver : Solver) : Accepts solver solver := ⟨[], rfl, by simp⟩

theorem trans (left : Accepts first second) (right : Accepts second third) :
    Accepts first third := by
  obtain ⟨older, below, oldAccepted⟩ := left
  obtain ⟨newer, above, newAccepted⟩ := right
  refine ⟨newer ++ older, ?_, ?_⟩
  · rw [above, below, List.append_assoc]
  · intro event member
    rcases List.mem_append.mp member with new | old
    · exact newAccepted event new
    · exact oldAccepted event old

private theorem of_events_eq (same : after.journal.events = solver.journal.events) :
    Accepts solver after :=
  ⟨[], by rw [same, List.nil_append], by simp⟩

private theorem of_record {event : Event} (noted : after.journal = solver.journal.record event)
    (accepted : event.isRejection = false) : Accepts solver after := by
  unfold Journal.record at noted
  split at noted
  · exact ⟨[event], by rw [noted, List.singleton_append], by simpa using accepted⟩
  · exact .of_events_eq (congrArg Journal.events noted)

theorem popTo (solver : Solver) (level : Nat) : Accepts solver (solver.popTo level) := by
  simp only [Solver.popTo]
  split
  · exact .of_events_eq rfl
  · exact .of_record rfl rfl

theorem pushed (solver : Solver) (literal : Literal) : Accepts solver (solver.pushed literal) :=
  .of_record rfl rfl

end Accepts

private theorem Swept.accepts (run : Swept falsified refs solver stay after conflict) :
    Accepts solver after := by
  induction run with
  | done solver => exact .refl solver
  | stray _ ih => exact .trans (.of_record rfl rfl) ih
  | satisfied _ _ _ ih => exact ih
  | moved _ _ _ ih => exact .trans (.of_record rfl rfl) ih
  | @forced ref _ solver _ _ _ _ literal _ _ _ _ ih =>
      have noted : Accepts solver (solver.record (.forced ref literal)) := .of_record rfl rfl
      exact (noted.trans (.pushed _ literal)).trans ih
  | refuted => exact .refl _

theorem Swept.exists_clause (run : Swept falsified refs solver stay after conflict)
    {reason : Conflict} (met : conflict = some reason) : ∃ ref, reason = .clause ref := by
  induction run with
  | done => cases met
  | refuted =>
      cases met
      exact ⟨_, rfl⟩
  | stray _ ih => exact ih met
  | satisfied _ _ _ ih => exact ih met
  | moved _ _ _ ih => exact ih met
  | forced _ _ _ _ ih => exact ih met

private theorem Drains.accepts (run : Drains solver taken conflict after) : Accepts solver after := by
  induction run with
  | idle => exact .refl _
  | @conflict solver next literal reason _ swept =>
      obtain ⟨-, stay, ended, visits, rfl⟩ := exists_swept_of_propagateLiteral swept
      obtain ⟨ref, rfl⟩ := visits.exists_clause rfl
      have quiet : Accepts solver ended := visits.accepts
      exact quiet.trans (.of_record rfl rfl)
  | @proceed solver next _ _ _ _ _ swept _ ih =>
      obtain ⟨-, stay, ended, visits, rfl⟩ := exists_swept_of_propagateLiteral swept
      have quiet : Accepts solver ended := visits.accepts
      exact quiet.trans ih

private theorem accepts_propagate (done : solver.propagate = .ok (conflict, after)) :
    Accepts solver after := by
  obtain ⟨taken, run⟩ := exists_drains done
  exact run.accepts

private theorem Assigns.accepts (assigns : Assigns clock origin .solve state literal)
    (resting : origin.Resting) (done : state.assign literal = .ok (conflict, after)) :
    Accepts state after := by
  obtain ⟨settled, covered, possible⟩ := assigns.ready resting
  have room := settled.toIntact.room covered
  cases value : literal.value state.model with
  | fails => exact absurd value possible
  | holds =>
      rw [assign_of_holds room value] at done
      exact accepts_propagate done
  | unset =>
      rw [assign_of_unset room covered value] at done
      exact (Accepts.pushed state literal).trans (accepts_propagate done)

private theorem assignAll_append {first second : List Literal}
    (before : solver.assignAll first = .ok (none, next)) :
    solver.assignAll (first ++ second) = next.assignAll second := by
  induction first generalizing solver with
  | nil =>
      cases before
      rfl
  | cons literal rest ih =>
      unfold assignAll at before
      split at before
      · cases before
      · cases before
      · next assigned =>
        simp only [List.cons_append, assignAll, assigned]
        exact ih before

/-- Each unit clause is followed in a state that the ones before it have led to. -/
theorem Resting.accepts_assignAll (resting : origin.Resting)
    (nonempty : origin.restart.hasEmptyClause = false) {earlier literals : List Literal}
    (split : origin.restart.units = earlier ++ literals)
    (before : origin.restart.assignAll earlier = .ok (none, solver))
    (done : solver.assignAll literals = .ok (conflict, after)) : Accepts solver after := by
  induction literals generalizing earlier solver with
  | nil =>
      cases done
      exact .refl _
  | cons literal rest ih =>
      have assigns : Assigns Clock.stopped origin .solve solver literal :=
        .unit nonempty split before
      unfold assignAll at done
      split at done
      · cases done
      · next assigned =>
        cases done
        exact assigns.accepts resting assigned
      · next following assigned =>
        have longer : origin.restart.units = (earlier ++ [literal]) ++ rest := by
          rw [split, List.append_assoc, List.singleton_append]
        have followed : origin.restart.assignAll (earlier ++ [literal]) = .ok (none, following) :=
          (assignAll_append before).trans (by simp only [assignAll, assigned])
        exact (assigns.accepts resting assigned).trans (ih longer followed done)

/-! ## Whole searches -/

private theorem accepts_restart (origin : Solver) : Accepts origin origin.restart :=
  (Accepts.popTo origin 0).trans (.of_events_eq rfl)

private theorem Resting.accepts_begin (resting : origin.Resting)
    (begun : origin.restart.begin = .ok step) : Accepts origin step.solver := by
  apply (accepts_restart origin).trans
  unfold begin at begun
  split at begun
  · cases begun
    exact .refl _
  · next nonempty =>
    have none_ : origin.restart.hasEmptyClause = false := Bool.eq_false_iff.mpr nonempty
    split at begun
    · cases begun
    · next assigned =>
      cases begun
      exact resting.accepts_assignAll none_ (List.nil_append _).symm rfl assigned
    · next assigned =>
      cases begun
      exact resting.accepts_assignAll none_ (List.nil_append _).symm rfl assigned

private theorem accepts_branched (solver : Solver) (var : Var) (literal : Literal) :
    Accepts solver (solver.branched var literal) := by
  have reported (state : Solver) : Accepts state state.reportProgress := by
    unfold reportProgress
    split <;> exact .of_events_eq rfl
  have decided (state : Solver) : Accepts state (state.deepened literal) := .of_record rfl rfl
  exact Accepts.trans (reported { solver with
    decisions := { var, level := solver.level + 1, flipped := false } :: solver.decisions })
    (decided _)

/-- A branch sets out to make the positive literal of its variable true. -/
theorem Round.exists_assigns (round : Round clock origin current)
    (early : current.limitReached (clock current.statistics.decisions) = false)
    (open_ : current.clauses.allSatisfied current.model = false) {var : Var}
    (choice : current.model.firstUnset? = some var)
    (branched : current.branch var = .ok (conflict, after)) :
    ∃ literal, Assigns clock origin .solve (current.branched var literal) literal ∧
      (current.branched var literal).assign literal = .ok (conflict, after) := by
  obtain ⟨literal, made, -⟩ := exists_of_bind_eq_ok branched
  rw [branch_eq_assign made] at branched
  exact ⟨literal, .branch round early open_ choice made, branched⟩

private theorem Round.accepts_branch (round : Round clock origin current) (resting : origin.Resting)
    (early : current.limitReached (clock current.statistics.decisions) = false)
    (open_ : current.clauses.allSatisfied current.model = false) {var : Var}
    (choice : current.model.firstUnset? = some var)
    (branched : current.branch var = .ok (conflict, after)) : Accepts current after := by
  obtain ⟨literal, assigns, done⟩ := round.exists_assigns early open_ choice branched
  exact (accepts_branched current var literal).trans (assigns.accepts resting done)

private theorem Undoes.accepts_turn {decision : Decision} {outer : List Decision}
    (undoes : Undoes clock origin (decision :: outer) solver) (resting : origin.Resting)
    (fresh : decision.flipped = false) (done : solver.turn decision outer = .ok (conflict, next)) :
    Accepts solver next := by
  have stranded := undoes.stranded resting
  obtain ⟨literal, made, -⟩ := stranded.exists_trying fresh
  rw [turn_eq_assign made (stranded.faithful.checkUndo _)] at done
  have turned : Accepts solver (solver.turned decision outer) :=
    (Accepts.popTo solver decision.level).trans (.of_record rfl rfl)
  exact turned.trans ((Assigns.turn undoes fresh made).accepts resting done)

private theorem Retreats.accepts (run : Retreats turns decisions solver found after)
    (undoes : Undoes clock origin decisions solver) (resting : origin.Resting) :
    Accepts solver after := by
  induction run with
  | exhausted => exact .refl _
  | turned fresh turned => exact undoes.accepts_turn resting fresh turned
  | failed fresh turned _ ih =>
      exact (undoes.accepts_turn resting fresh turned).trans (ih (.failed undoes fresh turned))
  | @closed _ decision outer _ solver _ _ flipped abandoned _ ih =>
      obtain ⟨done, -⟩ := (undoes.stranded resting).exists_abandon flipped
      cases abandoned.symm.trans done
      have closed : Accepts solver (solver.closed decision outer) :=
        (Accepts.popTo solver decision.level).trans (.of_events_eq rfl)
      exact closed.trans (ih (.closed undoes flipped abandoned))

private theorem DeadEnd.accepts
    (deadEnd : DeadEnd current (clock current.statistics.decisions) failed)
    (round : Round clock origin current) (resting : origin.Resting) : Accepts current failed := by
  cases deadEnd with
  | conflict early open_ choice branched =>
      exact round.accepts_branch resting early open_ choice branched
  | complete => exact .refl current

private theorem DeadEnd.accepts_flipLast
    (deadEnd : DeadEnd current (clock current.statistics.decisions) failed)
    (round : Round clock origin current) (resting : origin.Resting)
    (flipped : failed.flipLast = .ok (found, after)) : Accepts current after := by
  obtain ⟨turns, run⟩ := exists_retreats flipped
  have undone : Accepts failed.counted after := run.accepts (.deadEnd round deadEnd) resting
  exact (deadEnd.accepts round resting).trans undone

private theorem Round.accepts_step (round : Round clock origin current) (resting : origin.Resting)
    (done : current.step (clock current.statistics.decisions) = .ok step) :
    Accepts current step.solver := by
  cases takes_of_step done with
  | limit => exact .of_record rfl rfl
  | model => exact .refl current
  | branch early open_ choice branched =>
      exact round.accepts_branch resting early open_ choice branched
  | turn deadEnd flipped => exact deadEnd.accepts_flipLast round resting flipped
  | refute deadEnd flipped => exact deadEnd.accepts_flipLast round resting flipped

private theorem Round.accepts (round : Round clock origin current) (resting : origin.Resting) :
    Accepts origin current := by
  induction round with
  | first begun => exact resting.accepts_begin begun
  | next round done ih => exact ih.trans (round.accepts_step resting done)

private theorem Halts.accepts (halts : Halts clock origin status stopped) (resting : origin.Resting) :
    Accepts origin stopped := by
  cases halts with
  | atStart begun => exact resting.accepts_begin begun
  | inRound round done => exact (round.accepts resting).trans (round.accepts_step resting done)

/-- As long as a clause has no true literal, there is a variable to branch on. -/
theorem Searching.exists_firstUnset? (searching : Searching problem solver) {clause : Clause}
    (member : clause ∈ solver.clauses)
    (open_ : ∀ literal ∈ clause.literals, literal.value solver.model ≠ .holds) :
    ∃ var, solver.model.firstUnset? = some var := by
  have unsatisfied : solver.clauses.allSatisfied solver.model = false := by
    apply Bool.eq_false_iff.mpr
    intro all
    have satisfied := Array.all_eq_true_iff_forall_mem.mp all clause member
    obtain ⟨literal, inClause, true_⟩ := Array.any_eq_true'.mp satisfied
    exact open_ literal inClause (of_decide_eq_true true_)
  exact PlainSearch.exists_firstUnset? searching.fits searching.stable
    (searching.unsatisfied unsatisfied)

/-- A search is never refused a literal. Every push of it succeeds, so whatever it fails in is a stored
clause of which all literals are false, be it a single propagation or a literal that was to be made true.
It runs out of variables only when every clause has a true literal, so each of its dead ends is a branch
that met such a conflict. -/
theorem solve_never_rejects (reached : Reachable solver) (clock : Clock) :
    (∀ state literal, Pushes clock solver .solve state literal →
      ∃ next, state.push literal = .ok (none, next)) ∧
    (∀ state literal, Propagates clock solver .solve state → state.trail.next? = some literal →
      ∃ conflict after, state.dequeue.propagateLiteral literal = .ok (conflict, after) ∧
        ∀ reason, conflict = some reason → after.Refutes reason) ∧
    (∀ state literal, Assigns clock solver .solve state literal →
      ∃ conflict after, state.assign literal = .ok (conflict, after) ∧
        ∀ reason, conflict = some reason → after.Refutes reason) ∧
    (∀ current, Round clock solver current →
      (∃ clause ∈ current.clauses, ∀ literal ∈ clause.literals,
        literal.value current.model ≠ .holds) →
      ∃ var, current.model.firstUnset? = some var) ∧
    (∀ current failed, Round clock solver current →
      DeadEnd current (clock current.statistics.decisions) failed →
      ∃ var literal reason, current.model.firstUnset? = some var ∧
        Assigns clock solver .solve (current.branched var literal) literal ∧
        (current.branched var literal).assign literal = .ok (some reason, failed) ∧
        failed.Refutes reason) ∧
    ∃ status final added, solver.solve clock = .ok (status, final) ∧
      final.journal.events = added ++ solver.journal.events ∧
      ∀ event ∈ added, event.isRejection = false := by
  have resting := reached.resting
  refine ⟨?_, ?_, ?_, ?_, ?_, ?_⟩
  · intro state literal pushes
    exact pushes.exists_push resting
  · intro state literal propagates waiting
    obtain ⟨conflict, after, done, -, -, -, -, -, stop⟩ :=
      (propagates.propagating resting).exists_propagateLiteral waiting
    exact ⟨conflict, after, done, fun reason met => (stop reason met).1⟩
  · intro state literal assigns
    exact assigns.exists_assign resting
  · rintro current round ⟨clause, member, open_⟩
    exact (round.searching resting).exists_firstUnset? member open_
  · intro current failed round deadEnd
    cases deadEnd with
    | @conflict var reason _ early open_ choice branched =>
        obtain ⟨literal, assigns, done⟩ := round.exists_assigns early open_ choice branched
        obtain ⟨met, after, same, refutes⟩ := assigns.exists_assign resting
        cases done.symm.trans same
        exact ⟨var, literal, reason, choice, assigns, done, refutes reason rfl⟩
    | complete _ open_ none_ =>
        have searching := round.searching resting
        obtain ⟨var, choice⟩ := PlainSearch.exists_firstUnset? searching.fits searching.stable
          (searching.unsatisfied open_)
        rw [none_] at choice
        cases choice
  · obtain ⟨status, stopped, done, halts, -⟩ := resting.exists_halts clock
    have concluded : Accepts stopped (stopped.conclude status) := .of_record rfl rfl
    obtain ⟨added, events, accepted⟩ := (halts.accepts resting).trans concluded
    exact ⟨status, _, added, done, events, accepted⟩

/-- After a unit clause the search branches on the second variable, whose positive literal forces the
third. The last clause is then false, and the search turns to a model. All this is in the journal. -/
theorem solve_never_rejects_at_dead_end :
    let literal : Literal := ⟨2, by decide⟩
    ∃ solver current failed final : Solver, Reachable solver ∧
      Assigns Clock.stopped solver .solve (current.branched 1 literal) literal ∧
      (current.branched 1 literal).assign literal = .ok (some (.clause ⟨2⟩), failed) ∧
      failed.Refutes (.clause ⟨2⟩) ∧ solver.solve Clock.stopped = .ok (.sat, final) ∧
      ∃ added, final.journal.events = added ++ solver.journal.events ∧ added.length = 10 ∧
        ∀ event ∈ added, event.isRejection = false := by
  intro literal
  let commands : List Command :=
    [.addClause #[⟨0, by decide⟩], .addClause #[⟨3, by decide⟩, ⟨4, by decide⟩],
      .addClause #[⟨3, by decide⟩, ⟨5, by decide⟩]]
  have computed : ((run Clock.stopped { journal := { recording := true } } commands).toOption.bind
      fun solver => (solver.solve Clock.stopped).toOption.map fun result =>
        (result.1, solver.journal.events.length, result.2.journal.events.length)) =
      some (.sat, 3, 13) := by
    decide +kernel
  have branches : ((run Clock.stopped { journal := { recording := true } } commands).toOption.bind
      fun solver => (solver.round? Clock.stopped 0).map fun current =>
        (current.limitReached 0, current.clauses.allSatisfied current.model,
          current.model.firstUnset?,
          ((current.branched 1 literal).assign literal).toOption.map Prod.fst)) =
      some (false, false, some 1, some (some (.clause ⟨2⟩))) := by
    decide +kernel
  cases done : run Clock.stopped { journal := { recording := true } } commands with
  | error fault => simp [done, Except.toOption] at computed
  | ok solver =>
      have reached := (Reachable.start {} { recording := true }).run done
      simp only [done, Except.toOption, Option.bind_some] at computed branches
      obtain ⟨current, found, facts⟩ := Option.map_eq_some_iff.mp branches
      simp only [Prod.mk.injEq] at facts
      obtain ⟨early, open_, choice, met⟩ := facts
      have assigns : Assigns Clock.stopped solver .solve (current.branched 1 literal) literal :=
        .branch (Round.of_round? found) early open_ choice rfl
      obtain ⟨-, -, assigning, -, -, status, final, added, solved, events, accepted⟩ :=
        solve_never_rejects reached Clock.stopped
      obtain ⟨conflict, failed, assigned, refutes⟩ := assigning _ literal assigns
      simp only [assigned, Option.map_some, Option.some.injEq] at met
      simp only [solved, Option.map_some, Option.some.injEq, Prod.mk.injEq] at computed
      obtain ⟨rfl, before, later⟩ := computed
      subst met
      refine ⟨solver, current, failed, final, reached, assigns, assigned, refutes _ rfl, solved, added,
        events, ?_, accepted⟩
      rw [events, List.length_append, before] at later
      omega

end Solver

end Dpll
