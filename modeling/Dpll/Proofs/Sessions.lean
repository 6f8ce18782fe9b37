import Dpll.Engine.Session
import Dpll.Proofs.Solving

/-!
# Sessions

What a request does is said once, for every solver at rest: it is carried out if its variables fit into
the tables, it leaves a solver at rest, and it adds to the formula what it was given. From this follow,
by induction over the requests, the states that a session can reach. `Solver.Disciplined` singles out
the sessions in which every conflict is recovered from at once; only in these the watches are guarded
all the time.
-/

set_option autoImplicit false

namespace Dpll

/-! ## Requests and replies -/

/-- The variables of a request fit into the tables. -/
def Command.Admissible : Command → Prop
  | .createVariables count => count < variableLimit
  | .addClause literals => ∀ literal ∈ literals, literal.var + 1 < variableLimit
  | .decide literal => literal.var + 1 < variableLimit
  | .assign literal => literal.var + 1 < variableLimit
  | .backtrackTo _ => True
  | .solve => True

def Command.clause? : Command → Option (List Literal)
  | .addClause literals => some literals.toList
  | _ => none

/-- All clauses that were to be added, also the empty ones, which are refused. -/
def addedClauses (commands : List Command) : Formula := commands.filterMap Command.clause?

def Reply.isSetback : Reply → Bool
  | .propagated conflict => conflict.isSome
  | .answered status => status = .unsat
  | _ => false

/-- The request makes up for a setback: it undoes the current level, or starts anew. -/
def Command.Recovers (solver : Solver) : Command → Prop
  | .backtrackTo level => level ≤ solver.level
  | .addClause literals => literals.isEmpty = false
  | .solve => True
  | _ => False

namespace Solver

variable {solver before after : Solver} {literal : Literal} {command : Command} {reply : Reply}
  {clock : Clock}

/-- The guard that a request leaves. After a setback it does not extend to the current level. -/
def GuardedAfter (solver : Solver) : Bool → Prop
  | false => solver.Settled
  | true => solver.clauses.Guarded solver.trail.entries solver.level 0

structure Performed (before : Solver) (command : Command) (reply : Reply) (after : Solver) : Prop where
  resting : after.Resting
  options : after.options = before.options
  formula : after.formula = before.formula ++ command.clause?.toList.filter (· ≠ [])
  hasEmptyClause : after.hasEmptyClause =
    (before.hasEmptyClause || command.clause?.toList.contains [])
  guarded : ∀ setback, before.GuardedAfter setback → (setback = true → command.Recovers before) →
    after.GuardedAfter reply.isSetback

theorem Performed.quiet (silent : command.clause? = none) (resting : after.Resting)
    (options : after.options = before.options) (formula : after.formula = before.formula)
    (flag : after.hasEmptyClause = before.hasEmptyClause)
    (guarded : ∀ setback, before.GuardedAfter setback →
      (setback = true → command.Recovers before) → after.GuardedAfter reply.isSetback) :
    Performed before command reply after where
  resting := resting
  options := options
  formula := by simp [silent, formula]
  hasEmptyClause := by simp [silent, flag]
  guarded := guarded

/-! ## Carrying out a request -/

namespace Assigned

variable {bound : Nat} {conflict : Option Conflict}

theorem continues (assigned : Assigned before literal bound conflict after) :
    before.Continues after := by
  unfold Assigned at assigned
  split at assigned
  · exact assigned.2 ▸ .refl before
  · rw [assigned.2]
    exact .record before _ (by simp)
  · exact (Continues.pushed before literal).trans assigned.continues

theorem resting (assigned : Assigned before literal bound conflict after)
    (resting : before.Resting) : after.Resting := by
  unfold Assigned at assigned
  split at assigned
  · exact assigned.2 ▸ resting
  · rw [assigned.2]
    exact resting.transfer rfl rfl rfl rfl
  · exact assigned.resting

/-- Below the current level the guard survives a conflict, and without one it holds everywhere. -/
theorem guardedAfter (assigned : Assigned before literal bound conflict after)
    (settled : before.Settled) (high : before.level < bound) :
    after.GuardedAfter conflict.isSome := by
  unfold Assigned at assigned
  split at assigned
  · obtain ⟨rfl, rfl⟩ := assigned
    exact settled
  · obtain ⟨rfl, rfl⟩ := assigned
    exact settled.guarded _
  · cases conflict with
    | none => exact assigned.settled high
    | some reason =>
        change after.clauses.Guarded after.trail.entries after.trail.level 0
        rw [assigned.continues.level]
        exact assigned.guardedBelow.mono (Nat.le_min.mpr ⟨Nat.le_of_lt high, Nat.le_refl _⟩)

end Assigned

private theorem Resting.exists_assigned (resting : solver.Resting)
    (fits : literal.var + 1 < variableLimit) :
    ∃ conflict after, solver.assign literal = .ok (conflict, after) ∧ after.Resting ∧
      after.options = solver.options ∧ after.formula = solver.formula ∧
      after.hasEmptyClause = solver.hasEmptyClause ∧
      (solver.Settled → after.GuardedAfter conflict.isSome) := by
  obtain ⟨bound, guarded, high⟩ : ∃ bound, solver.clauses.Guarded solver.trail.entries bound 0 ∧
      (solver.Settled → solver.level < bound) := by
    by_cases settled : solver.Settled
    · exact ⟨solver.level + 1, settled.guarded _, fun _ => Nat.lt_succ_self _⟩
    · exact ⟨0, .zero _ _ _, fun other => absurd other settled⟩
  obtain ⟨wide, conflict, after, widened, done, assigned⟩ := resting.exists_assign guarded fits
  have wideResting := widened.resting resting.idle
  have continues := assigned.continues
  refine ⟨conflict, after, done, assigned.resting wideResting,
    continues.options.trans widened.options, continues.formula.trans widened.formula,
    continues.hasEmptyClause.trans widened.hasEmptyClause, fun settled => ?_⟩
  refine assigned.guardedAfter ⟨wideResting, fun other => widened.guarded (settled.guarded other)⟩ ?_
  change wide.trail.level < bound
  rw [widened.level]
  exact high settled

def deepened (solver : Solver) (literal : Literal) : Solver :=
  ({ solver with trail := solver.trail.newLevel }.count fun statistics =>
    { statistics with
      decisions := statistics.decisions + 1
      maxLevel := max statistics.maxLevel (solver.level + 1) }).record
        (.decided literal (solver.level + 1))

theorem Resting.deepened (resting : solver.Resting) (literal : Literal) :
    (solver.deepened literal).Resting :=
  ⟨⟨resting.faithful.newLevel, resting.tracks, resting.sized, resting.small⟩, resting.idle⟩

private theorem isValid_of_fits (fits : literal.var + 1 < variableLimit) :
    literal.isValid = true := by
  have small : literal.code / 2 + 1 < 9223372036854775808 := Nat.lt_trans fits (by decide)
  have apart : literal.code ≠ Literal.invalid.code := by
    intro same
    rw [same] at small
    exact absurd small (by decide)
  simpa [Literal.isValid] using apart

private theorem guardedAfter_of_settled {setback : Bool} {outcome : Prop}
    (keeps : before.Settled → outcome) (guarded : before.GuardedAfter setback)
    (never : setback = true → False) : outcome := by
  cases setback with
  | true => exact (never rfl).elim
  | false => exact keeps guarded

theorem Resting.exists_addClause (resting : solver.Resting) {literals : Array Literal}
    (nonempty : 0 < literals.size)
    (fits : ∀ literal ∈ literals, literal.var + 1 < variableLimit) :
    ∃ ref after, solver.addClause literals = .ok (.ok ref, after) ∧ after.Cleared ∧
      after.formula = solver.formula ++ [literals.toList] ∧
      after.options = solver.options ∧ after.hasEmptyClause = solver.hasEmptyClause ∧
      after.statistics.variableCount =
        max solver.statistics.variableCount (width literals) := by
  have some_ : literals.isEmpty = false := by
    simpa using Array.ne_empty_of_size_pos nonempty
  have valid : literals.all (·.isValid) = true := by
    simp only [Array.all_eq_true_iff_forall_mem]
    exact fun literal member => isValid_of_fits (fits literal member)
  obtain ⟨ref, after, inserted, kept⟩ := resting.exists_insert nonempty fits
  refine ⟨ref, after, ?_, kept⟩
  simp only [addClause, some_, valid, inserted, Bool.false_eq_true, ↓reduceIte]

private theorem Resting.performed_addClause (resting : solver.Resting) {literals : Array Literal}
    (fits : ∀ literal ∈ literals, literal.var + 1 < variableLimit) (clock : Clock) :
    ∃ reply after, solver.perform clock (.addClause literals) = .ok (reply, after) ∧
      Performed solver (.addClause literals) reply after := by
  cases empty : literals.isEmpty with
  | true =>
      have shape : literals = #[] := Array.isEmpty_iff.mp empty
      let index := solver.statistics.clauseCount
      refine ⟨.refused ⟨index⟩,
        { solver.record (.emptyClauseAdded index) with hasEmptyClause := true }, ?_, ?_⟩
      · simp only [perform, addClause, empty, ↓reduceIte]
        rfl
      · have kept : { solver.record (.emptyClauseAdded index) with
            hasEmptyClause := true : Solver }.Resting := resting.transfer rfl rfl rfl rfl
        exact {
          resting := kept
          options := rfl
          formula := by simp [Command.clause?, shape]; rfl
          hasEmptyClause := by simp [Command.clause?, shape]
          guarded := fun setback guarded recovers => guardedAfter_of_settled
            (fun settled : solver.Settled => ⟨kept, settled.guarded⟩) guarded
            fun met => Bool.noConfusion (empty.symm.trans (recovers met)) }
  | false =>
      have nonempty : 0 < literals.size := by
        simpa [Array.isEmpty, Nat.pos_iff_ne_zero] using empty
      obtain ⟨ref, after, added, cleared, formula, options, flag, -⟩ :=
        resting.exists_addClause nonempty fits
      have some_ : literals.toList ≠ [] := by
        simpa using Array.size_pos_iff.mp nonempty
      refine ⟨.added ref, after, by simp only [perform, added], ?_⟩
      exact {
        resting := cleared.toResting
        options := options
        formula := by simpa [Command.clause?, some_] using formula
        hasEmptyClause := by simpa [Command.clause?, Ne.symm some_] using flag
        guarded := fun _ _ _ => cleared.settled }

/-- Every admissible request is carried out. -/
theorem Resting.exists_perform (resting : solver.Resting) (admissible : command.Admissible)
    (clock : Clock) :
    ∃ reply after, solver.perform clock command = .ok (reply, after) ∧
      Performed solver command reply after := by
  cases command with
  | createVariables count =>
      obtain ⟨after, done, widened⟩ := resting.toIntact.exists_ensureVariables admissible
      have kept := widened.resting resting.idle
      refine ⟨.done, after, by simp only [perform, done], ?_⟩
      refine .quiet rfl kept widened.options widened.formula widened.hasEmptyClause ?_
      exact fun setback guarded => guardedAfter_of_settled
        (fun settled : solver.Settled =>
          ⟨kept, fun bound => widened.guarded (settled.guarded bound)⟩) guarded
  | addClause literals => exact resting.performed_addClause admissible clock
  | decide literal =>
      obtain ⟨conflict, after, done, kept, options, formula, flag, guarded⟩ :=
        (resting.deepened literal).exists_assigned admissible
      have decided : solver.decide literal = .ok (conflict, after) := done
      refine ⟨.propagated conflict, after, by simp only [perform, decided], ?_⟩
      refine .quiet rfl kept options formula flag ?_
      exact fun setback before => guardedAfter_of_settled
        (fun settled : solver.Settled => guarded ⟨resting.deepened literal, settled.guarded⟩) before
  | assign literal =>
      obtain ⟨conflict, after, done, kept, options, formula, flag, guarded⟩ :=
        resting.exists_assigned admissible
      refine ⟨.propagated conflict, after, by simp only [perform, done], ?_⟩
      refine .quiet rfl kept options formula flag ?_
      exact fun setback before => guardedAfter_of_settled guarded before
  | backtrackTo level =>
      refine ⟨.done, solver.backtrackTo level, ?_, ?_⟩
      · simp only [perform, resting.faithful.checkUndo]
      refine .quiet rfl (resting.backtrackTo level) (options_popTo solver level)
        (formula_popTo solver level) (hasEmptyClause_popTo solver level) ?_
      intro setback guarded recovers
      cases setback with
      | false =>
          have settled : solver.Settled := guarded
          exact resting.settled_backtrackTo (settled.guarded level) (Nat.le_refl level)
      | true => exact resting.settled_backtrackTo guarded (recovers rfl)
  | solve =>
      obtain ⟨status, after, done, answers⟩ := resting.exists_solve clock
      have same := answers.problem_eq
      refine ⟨.answered status, after, by simp only [perform, done], ?_⟩
      refine .quiet rfl answers.resting (congrArg Problem.options same)
        (congrArg Problem.formula same) (congrArg Problem.hasEmptyClause same) fun _ _ _ => ?_
      by_cases refuted : status = .unsat
      · subst refuted
        change after.clauses.Guarded after.trail.entries after.level 0
        rw [answers.level_eq_zero]
        exact .zero _ _ _
      · simp only [Reply.isSetback, refuted, decide_false]
        exact (answers.searching refuted).toSettled

/-! ## Reachable states -/

theorem lt_of_ensureVariables {count : Nat} (small : solver.statistics.variableCount < variableLimit)
    (done : solver.ensureVariables count = .ok after) : count < variableLimit := by
  unfold ensureVariables at done
  split at done
  · next room => exact Nat.lt_of_le_of_lt room small
  · by_cases fits : count < variableLimit
    · exact fits
    · simp [checkVariables, fits] at done

theorem fits_of_assign (small : solver.statistics.variableCount < variableLimit)
    {conflict : Option Conflict} (done : solver.assign literal = .ok (conflict, after)) :
    literal.var + 1 < variableLimit := by
  unfold assign at done
  cases grown : solver.ensureVariables (literal.var + 1) with
  | error fault => simp [grown, bind, Except.bind] at done
  | ok wide => exact lt_of_ensureVariables small grown

theorem Resting.admissible (resting : solver.Resting)
    (done : solver.perform clock command = .ok (reply, after)) : command.Admissible := by
  cases command with
  | createVariables count =>
      cases grown : solver.ensureVariables count with
      | error fault => simp [perform, grown] at done
      | ok wide => exact lt_of_ensureVariables resting.small grown
  | addClause literals =>
      cases grown : solver.reset.ensureVariables (width literals) with
      | ok wide =>
          intro literal member
          exact Nat.lt_of_le_of_lt (var_lt_width member)
            (lt_of_ensureVariables resting.reset.small grown)
      | error fault =>
          have refused : solver.insert literals = .error fault := by
            simp [insert, resting.faithful.checkUndo, grown, bind, Except.bind]
          cases empty : literals.isEmpty with
          | true => simp [Command.Admissible, Array.isEmpty_iff.mp empty]
          | false =>
              cases valid : literals.all (·.isValid) <;>
                simp [perform, addClause, empty, refused, valid] at done
  | decide literal =>
      cases decided : solver.decide literal with
      | error fault => simp [perform, decided] at done
      | ok result => exact fits_of_assign (resting.deepened literal).small decided
  | assign literal =>
      cases assigned : solver.assign literal with
      | error fault => simp [perform, assigned] at done
      | ok result => exact fits_of_assign resting.small assigned
  | backtrackTo level => trivial
  | solve => trivial

theorem Resting.performed (resting : solver.Resting)
    (done : solver.perform clock command = .ok (reply, after)) :
    Performed solver command reply after := by
  obtain ⟨_, _, same, performed⟩ := resting.exists_perform (resting.admissible done) clock
  rw [done] at same
  cases same
  exact performed

/-- The solvers that a session can lead to. Each request may see a clock of its own. -/
inductive Reachable : Solver → Prop where
  | start (options : Options) (journal : Journal) : Reachable { options, journal }
  | step {solver after : Solver} {clock : Clock} {command : Command} {reply : Reply} :
      Reachable solver → solver.perform clock command = .ok (reply, after) → Reachable after

/-- The solvers that a session can lead to in which every setback is recovered from by the next
request. The flag tells whether the last request was a setback. -/
inductive Disciplined : Solver → Bool → Prop where
  | start (options : Options) (journal : Journal) : Disciplined { options, journal } false
  | step {solver after : Solver} {setback : Bool} {clock : Clock} {command : Command}
      {reply : Reply} :
      Disciplined solver setback → (setback = true → command.Recovers solver) →
      solver.perform clock command = .ok (reply, after) → Disciplined after reply.isSetback

theorem cleared_start (options : Options) (journal : Journal) :
    Solver.Cleared { options, journal } where
  faithful := .empty
  tracks := .empty
  sized := rfl
  small := (by decide : 0 < variableLimit)
  idle := rfl
  entries := rfl
  level := rfl
  decisions := rfl

theorem Reachable.resting (reachable : Reachable solver) : solver.Resting := by
  induction reachable with
  | start options journal => exact (cleared_start options journal).toResting
  | step _ done resting => exact (resting.performed done).resting

theorem Disciplined.reachable {setback : Bool} (disciplined : Disciplined solver setback) :
    Reachable solver := by
  induction disciplined with
  | start options journal => exact .start options journal
  | step _ _ done ih => exact .step ih done

/-- In a disciplined session the guard is kept from request to request. -/
theorem Disciplined.guardedAfter {setback : Bool} (disciplined : Disciplined solver setback) :
    solver.GuardedAfter setback := by
  induction disciplined with
  | start options journal => exact (cleared_start options journal).settled
  | step earlier recovers done guarded =>
      exact (earlier.reachable.resting.performed done).guarded _ guarded recovers

theorem Reachable.run {commands : List Command} (reachable : Reachable solver)
    (done : solver.run clock commands = .ok after) : Reachable after := by
  induction commands generalizing solver with
  | nil =>
      cases done
      exact reachable
  | cons command rest ih =>
      cases step : solver.perform clock command with
      | error fault => simp [Solver.run, step] at done
      | ok result => exact ih (.step reachable step) (by simpa [Solver.run, step] using done)

theorem exists_reachable {α : Type} {commands : List Command} {view : Solver → Option α} {value : α}
    (computed : (run clock {} commands).toOption.bind view = some value) :
    ∃ solver, Reachable solver ∧ view solver = some value := by
  cases done : run clock {} commands with
  | error fault =>
      rw [done] at computed
      cases computed
  | ok solver =>
      rw [done] at computed
      exact ⟨solver, (Reachable.start {} {}).run done, computed⟩

def runTimed (solver : Solver) : List (Clock × Command) → Except Fault Solver
  | [] => .ok solver
  | (clock, command) :: rest =>
    match solver.perform clock command with
    | .error fault => .error fault
    | .ok (_, solver) => solver.runTimed rest

theorem run_eq_runTimed (solver : Solver) (clock : Clock) (commands : List Command) :
    solver.run clock commands = solver.runTimed (commands.map (clock, ·)) := by
  induction commands generalizing solver with
  | nil => rfl
  | cons command rest ih =>
      simp only [run, List.map_cons, runTimed]
      cases solver.perform clock command with
      | error fault => rfl
      | ok result => exact ih result.2

/-- A session of admissible requests is carried out to its end, and adds the clauses given. -/
theorem Resting.exists_runTimed (resting : solver.Resting) {requests : List (Clock × Command)}
    (admissible : ∀ request ∈ requests, request.2.Admissible) :
    ∃ after, solver.runTimed requests = .ok after ∧ after.Resting ∧
      after.options = solver.options ∧
      after.formula =
        solver.formula ++ (addedClauses (requests.map Prod.snd)).filter (· ≠ []) ∧
      after.hasEmptyClause =
        (solver.hasEmptyClause || (addedClauses (requests.map Prod.snd)).contains []) := by
  induction requests generalizing solver with
  | nil => exact ⟨solver, rfl, resting, rfl, by simp [addedClauses], by simp [addedClauses]⟩
  | cons request rest ih =>
      obtain ⟨clock, command⟩ := request
      obtain ⟨reply, next, done, performed⟩ :=
        resting.exists_perform (admissible (clock, command) (.head _)) clock
      obtain ⟨after, finished, kept, options, formula, flag⟩ :=
        ih performed.resting fun other member => admissible other (.tail _ member)
      have added : addedClauses (((clock, command) :: rest).map Prod.snd) =
          command.clause?.toList ++ addedClauses (rest.map Prod.snd) := by
        cases clause : command.clause? <;> simp [addedClauses, clause]
      refine ⟨after, by simp only [runTimed, done, finished], kept,
        options.trans performed.options, ?_, ?_⟩
      · rw [formula, performed.formula, added, List.filter_append, List.append_assoc]
      · rw [flag, performed.hasEmptyClause, added, List.contains_append, Bool.or_assoc]

/-! ## The watches in a disciplined session -/

/-- What lazy watching promises of a state in which propagation is complete. A false watched literal
has a true partner, assigned at its level or below. No clause is false in all literals, and one of
several literals, none of them true, has two undecided positions. -/
structure WatchInvariant (solver : Solver) : Prop where
  partner : ∀ clause ∈ solver.clauses, ∀ slot,
    (clause.watched slot).value solver.model = .fails →
      (clause.watched slot.other).value solver.model = .holds ∧
      ∃ low high, low ≤ high ∧ ⟨clause.watched slot.other, low⟩ ∈ solver.trail.entries ∧
        ⟨(clause.watched slot).negate, high⟩ ∈ solver.trail.entries
  notRefuted : ∀ clause ∈ solver.clauses, ∃ literal ∈ clause.literals,
    literal.value solver.model ≠ .fails
  twoUnset : ∀ clause ∈ solver.clauses, 2 ≤ clause.literals.size →
    (∀ literal ∈ clause.literals, literal.value solver.model ≠ .holds) →
      ∃ left right : Fin clause.literals.size, left ≠ right ∧
        (clause.literalAt left).value solver.model = .unset ∧
        (clause.literalAt right).value solver.model = .unset

/-- The watch invariant holds after every request of a disciplined session that was no setback. -/
theorem Disciplined.watchInvariant (disciplined : Disciplined solver false) :
    solver.WatchInvariant := by
  have settled : solver.Settled := disciplined.guardedAfter
  exact {
    partner := fun _ member _ false_ =>
      ⟨settled.partner_holds member false_, settled.exists_partner member false_⟩
    notRefuted := fun _ member => settled.exists_not_fails member
    twoUnset := fun _ member long noneTrue => settled.two_unset member long noneTrue }

instance (solver : Solver) : (command : Command) → Decidable (command.Recovers solver)
  | .backtrackTo level => inferInstanceAs (Decidable (level ≤ solver.level))
  | .addClause literals => inferInstanceAs (Decidable (literals.isEmpty = false))
  | .solve => .isTrue trivial
  | .createVariables _ | .decide _ | .assign _ => .isFalse id

def follow? (clock : Clock) (solver : Solver) (setback : Bool) : List Command → Option (Solver × Bool)
  | [] => some (solver, setback)
  | command :: rest =>
    if setback = true → command.Recovers solver then
      match solver.perform clock command with
      | .error _ => none
      | .ok (reply, after) => after.follow? clock reply.isSetback rest
    else none

theorem Disciplined.follow? {setback flag : Bool} {commands : List Command}
    (disciplined : Disciplined solver setback)
    (done : solver.follow? clock setback commands = some (after, flag)) :
    Disciplined after flag := by
  induction commands generalizing solver setback with
  | nil =>
      cases done
      exact disciplined
  | cons command rest ih =>
      simp only [Solver.follow?] at done
      split at done
      · next recovers =>
        split at done
        · cases done
        · next performed => exact ih (.step disciplined recovers performed) done
      · cases done

/-- A session of a conflict, a recovery and a decision that leaves a watched literal false. -/
theorem disciplined_watchInvariant_after_recovery :
    ∃ solver, Disciplined solver false ∧ solver.model = #[.holds, .fails] ∧
      solver.WatchInvariant := by
  let commands : List Command :=
    [.addClause #[⟨0, by decide⟩, ⟨2, by decide⟩], .addClause #[⟨0, by decide⟩, ⟨3, by decide⟩],
      .decide ⟨1, by decide⟩, .backtrackTo 1, .decide ⟨3, by decide⟩]
  have computed : ((follow? Clock.stopped {} false commands).map fun result =>
      (result.1.model, result.2)) = some (#[.holds, .fails], false) := by
    decide +kernel
  obtain ⟨⟨solver, flag⟩, followed, same⟩ := Option.map_eq_some_iff.mp computed
  obtain ⟨model, rfl⟩ := Prod.mk.inj same
  have disciplined := (Disciplined.start {} {}).follow? followed
  exact ⟨solver, disciplined, model, disciplined.watchInvariant⟩

end Solver

end Dpll
