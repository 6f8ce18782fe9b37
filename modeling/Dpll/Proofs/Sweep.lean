import Dpll.Engine.Propagation
import Dpll.Proofs.State

/-!
# Sweeping a watch list

A visit to a clause has four outcomes, each with its reason (`Clause.Visit.Explained`). An invariant
that every visit keeps holds at the end of a sweep (`Solver.exists_sweep`), and `Solver.Sweeping` is
the invariant that serves propagation: the index tracks the clauses as if the list were put together
again, every clause kept in the list has a true watched literal, and all older literals are guarded.
-/

set_option autoImplicit false

namespace Dpll

namespace Clause

def OthersFail (clause : Clause) (values : Valuation) : Prop :=
  ∀ position, position ≠ clause.first → position ≠ clause.second →
    (clause.literalAt position).value values = .fails

def Visit.Explained {clause : Clause} (falsified : Literal) (values : Valuation) :
    Visit clause → Prop
  | .stray => ∀ slot, clause.watched slot ≠ falsified
  | .satisfied => ∃ slot, clause.watched slot = falsified ∧
      (clause.watched slot.other).value values = .holds
  | .movable slot position => clause.watched slot = falsified ∧ position ≠ clause.first ∧
      position ≠ clause.second ∧ (clause.literalAt position).value values ≠ .fails ∧
      (clause.watched slot.other).value values ≠ .holds
  | .forcing literal => ∃ slot, clause.watched slot = falsified ∧
      clause.watched slot.other = literal ∧ literal.value values = .unset ∧
      clause.OthersFail values
  | .refuted => ∃ slot, clause.watched slot = falsified ∧
      (clause.watched slot.other).value values = .fails ∧ clause.OthersFail values

variable {clause : Clause} {values : Valuation} {literal falsified : Literal}

private theorem slotOf?_eq_some {slot : Slot} (found : clause.slotOf? literal = some slot) :
    clause.watched slot = literal := by
  unfold slotOf? at found
  split at found
  · cases found; assumption
  · split at found
    · cases found; assumption
    · cases found

private theorem slotOf?_eq_none (missing : clause.slotOf? literal = none) (slot : Slot) :
    clause.watched slot ≠ literal := by
  unfold slotOf? at missing
  split at missing
  · cases missing
  · split at missing
    · cases missing
    · cases slot <;> assumption

private theorem replacement?_eq_some {position : Fin clause.literals.size}
    (found : clause.replacement? values = some position) :
    position ≠ clause.first ∧ position ≠ clause.second ∧
      (clause.literalAt position).value values ≠ .fails := by
  have accepted := List.find?_some found
  simpa [and_assoc] using accepted

private theorem replacement?_eq_none (missing : clause.replacement? values = none) :
    clause.OthersFail values := by
  intro position notFirst notSecond
  have refused := List.find?_eq_none.mp missing position (List.mem_finRange position)
  simpa [notFirst, notSecond] using refused

theorem visit_explained (clause : Clause) (falsified : Literal) (values : Valuation) :
    (clause.visit falsified values).Explained falsified values := by
  unfold visit
  cases slotFound : clause.slotOf? falsified with
  | none => exact slotOf?_eq_none slotFound
  | some slot =>
      have watching := slotOf?_eq_some slotFound
      dsimp only
      split
      · exact ⟨slot, watching, ‹_›⟩
      · rename_i notTrue
        cases place : clause.replacement? values with
        | some position =>
            obtain ⟨notFirst, notSecond, notFalse⟩ := replacement?_eq_some place
            exact ⟨watching, notFirst, notSecond, notFalse, notTrue⟩
        | none =>
            have others := replacement?_eq_none place
            dsimp only
            split
            · exact ⟨slot, watching, rfl, ‹_›, others⟩
            · refine ⟨slot, watching, ?_, others⟩
              cases value : (clause.watched slot.other).value values <;> simp_all

private theorem position_eq_or_eq_other (slot : Slot) {position : Fin clause.literals.size}
    (watched : position = clause.first ∨ position = clause.second) :
    position = clause.position slot ∨ position = clause.position slot.other := by
  cases slot
  · exact watched
  · exact watched.symm

theorem fails_of_refuted (false_ : falsified.value values = .fails)
    (refuted : (Visit.refuted : Visit clause).Explained falsified values) :
    ∀ literal ∈ clause.literals, literal.value values = .fails := by
  obtain ⟨slot, watching, partner, others⟩ := refuted
  intro literal member
  obtain ⟨position, rfl⟩ := exists_literalAt member
  by_cases watched : position = clause.first ∨ position = clause.second
  · rcases position_eq_or_eq_other slot watched with rfl | rfl
    · exact (congrArg (Literal.value values) watching).trans false_
    · exact partner
  · exact others position (fun first => watched (.inl first)) fun second => watched (.inr second)

/-- A clause that forces a literal has a position for it, and all others are false. -/
theorem forcing_position (false_ : falsified.value values = .fails)
    (forcing : (Visit.forcing literal : Visit clause).Explained falsified values) :
    2 ≤ clause.literals.size ∧ ∃ position : Fin clause.literals.size,
      clause.literalAt position = literal ∧
        ∀ place, place ≠ position → (clause.literalAt place).value values = .fails := by
  obtain ⟨slot, watching, rfl, free, others⟩ := forcing
  have different : clause.position slot ≠ clause.position slot.other := by
    intro same
    have equal : clause.watched slot.other = falsified := by
      rw [← watching, watched, watched, same]
    rw [equal, false_] at free
    cases free
  refine ⟨?_, clause.position slot.other, rfl, ?_⟩
  · have left := (clause.position slot).isLt
    have right := (clause.position slot.other).isLt
    have apart : (clause.position slot).val ≠ (clause.position slot.other).val :=
      fun same => different (Fin.ext same)
    omega
  · intro place notOther
    by_cases watched : place = clause.first ∨ place = clause.second
    · rcases position_eq_or_eq_other slot watched with rfl | same
      · exact (congrArg (Literal.value values) watching).trans false_
      · exact absurd same notOther
    · exact others place (fun first => watched (.inl first)) fun second => watched (.inr second)

end Clause

namespace Solver

def pushed (solver : Solver) (literal : Literal) : Solver :=
  { solver with trail := solver.trail.assign literal }.record (.assigned literal solver.level)

theorem Continues.pushed (solver : Solver) (literal : Literal) :
    solver.Continues (solver.pushed literal) :=
  ⟨rfl, rfl, rfl, rfl, rfl, rfl, fun orderly => orderly.record (by simp)⟩

theorem push_of_unset {solver : Solver} {literal : Literal} (covered : solver.trail.Covers literal)
    (free : literal.value solver.model = .unset) :
    solver.push literal = .ok (none, solver.pushed literal) := by
  have judged : solver.trail.judge literal = .ok .free := by
    have value : literal.value solver.trail.values = .unset := free
    simp [Trail.judge, value, covered]
  simp only [push, judged]
  rfl

/-- An invariant of visits holds at the end of a sweep. If a clause turned out to be false in all
literals, it holds as it was before the visit to that clause. -/
theorem exists_sweep {falsified : Literal}
    {invariant : List ClauseRef → Array ClauseRef → Solver → Prop}
    (visit : ∀ ref rest kept solver, invariant (ref :: rest) kept solver →
      ∃ clause, solver.clauses.get? ref = some clause ∧
        match clause.visit falsified solver.model with
        | .stray => False
        | .satisfied => invariant rest (kept.push ref) solver
        | .movable slot position =>
            solver.watches.Covers (clause.literalAt position) ∧
              invariant rest kept (solver.rewatch ref clause slot position)
        | .forcing literal =>
            literal.value solver.model = .unset ∧ solver.trail.Covers literal ∧
              invariant rest (kept.push ref) ((solver.record (.forced ref literal)).pushed literal)
        | .refuted => True)
    {refs : List ClauseRef} {kept : Array ClauseRef} {solver : Solver}
    (start : invariant refs kept solver) :
    ∃ swept, sweep falsified refs kept solver = .ok swept ∧
      ((swept.conflict = none ∧ invariant [] swept.kept swept.solver) ∨
        ∃ ref rest before clause, swept.conflict = some (.clause ref) ∧
          swept.kept = before ++ (ref :: rest).toArray ∧
          invariant (ref :: rest) before swept.solver ∧
          swept.solver.clauses.get? ref = some clause ∧
          clause.visit falsified swept.solver.model = .refuted) := by
  induction refs generalizing kept solver with
  | nil => exact ⟨⟨solver, kept, none⟩, rfl, .inl ⟨rfl, start⟩⟩
  | cons ref rest ih =>
      obtain ⟨clause, found, outcome⟩ := visit ref rest kept solver start
      rw [sweep, found]
      dsimp only
      cases visited : clause.visit falsified solver.model with
      | stray => rw [visited] at outcome; exact outcome.elim
      | satisfied => rw [visited] at outcome; exact ih outcome
      | movable slot position =>
          rw [visited] at outcome
          obtain ⟨covered, next⟩ := outcome
          simpa only [covered, ↓reduceIte] using ih next
      | forcing literal =>
          rw [visited] at outcome
          obtain ⟨free, covered, next⟩ := outcome
          have pushes : (solver.record (.forced ref literal)).push literal = _ :=
            push_of_unset covered free
          simpa only [pushes] using ih next
      | refuted =>
          refine ⟨_, rfl, .inr ⟨ref, rest, kept, clause, rfl, ?_, start, found, visited⟩⟩
          simp

/-- A sweep for a literal under way: some clauses of its list are still to be visited and others are
kept. The entry that made the literal false is the oldest one not fully propagated. -/
structure Sweeping (origin : Solver) (falsified : Literal) (bound : Nat) (rest : List ClauseRef)
    (kept : Array ClauseRef) (solver : Solver) : Prop where
  faithful : solver.trail.Faithful
  tracks : (solver.watches.replace falsified (kept ++ rest.toArray)).Tracks solver.clauses
    solver.statistics.variableCount
  emptied : solver.watches.watchedBy falsified = #[]
  sized : solver.trail.values.size = solver.statistics.variableCount
  continues : origin.Continues solver
  conflicts : solver.statistics.conflicts = origin.statistics.conflicts
  growth : Growth origin.formula origin.level origin.trail.entries solver.trail.entries
  uniform : ∀ entry ∈ solver.trail.entries.take solver.trail.pending, entry.level = solver.level
  current : solver.trail.entries[solver.trail.pending]? = some ⟨falsified.negate, solver.level⟩
  guarded : solver.clauses.Guarded solver.trail.entries bound (solver.trail.pending + 1)
  served : ∀ ref ∈ kept, ∀ clause, solver.clauses.get? ref = some clause →
    ∃ slot, (clause.watched slot).value solver.model = .holds

private theorem formula_rewatch {solver : Solver} {ref : ClauseRef} {clause : Clause}
    (found : solver.clauses.get? ref = some clause) (slot : Slot)
    (position : Fin clause.literals.size) :
    (solver.rewatch ref clause slot position).formula = solver.formula := by
  obtain ⟨inside, here⟩ := Array.getElem?_eq_some_iff.mp found
  apply List.ext_getElem?
  intro index
  simp only [formula, rewatch, record, List.getElem?_map, Array.getElem?_toList,
    Array.getElem?_setIfInBounds]
  by_cases same : ref.index = index
  · subst same
    simp [inside, here]
  · simp [same]

namespace Sweeping

variable {origin solver : Solver} {falsified literal : Literal} {bound : Nat} {ref : ClauseRef}
  {rest : List ClauseRef} {kept : Array ClauseRef} {clause : Clause}

private theorem current_mem (sweeping : Sweeping origin falsified bound rest kept solver) :
    ⟨falsified.negate, solver.level⟩ ∈ solver.trail.entries :=
  List.mem_of_getElem? sweeping.current

theorem fails (sweeping : Sweeping origin falsified bound rest kept solver) :
    falsified.value solver.model = .fails :=
  sweeping.faithful.fails_iff.mpr ⟨_, sweeping.current_mem⟩

theorem covers (sweeping : Sweeping origin falsified bound rest kept solver) :
    solver.watches.Covers falsified := by
  have small : falsified.var < solver.statistics.variableCount := by
    rw [← sweeping.sized, ← Literal.var_negate]
    exact sweeping.faithful.covers sweeping.current_mem
  simpa [WatchIndex.Covers, WatchIndex.replace] using sweeping.tracks.covers small

theorem watches (sweeping : Sweeping origin falsified bound (ref :: rest) kept solver) :
    ∃ clause, solver.clauses.get? ref = some clause ∧
      ∃ slot, clause.watched slot = falsified := by
  apply sweeping.tracks.watches_of_listed
  rw [WatchIndex.watchedBy_replace_self sweeping.covers]
  simp

theorem satisfied (sweeping : Sweeping origin falsified bound (ref :: rest) kept solver)
    (found : solver.clauses.get? ref = some clause)
    (explained : (Clause.Visit.satisfied : Clause.Visit clause).Explained falsified solver.model) :
    Sweeping origin falsified bound rest (kept.push ref) solver where
  faithful := sweeping.faithful
  tracks := by simpa using sweeping.tracks
  emptied := sweeping.emptied
  sized := sweeping.sized
  continues := sweeping.continues
  conflicts := sweeping.conflicts
  growth := sweeping.growth
  uniform := sweeping.uniform
  current := sweeping.current
  guarded := sweeping.guarded
  served other member stored foundOther := by
    rcases Array.mem_push.mp member with old | rfl
    · exact sweeping.served other old stored foundOther
    · rw [found] at foundOther
      cases foundOther
      obtain ⟨slot, -, true_⟩ := explained
      exact ⟨slot.other, true_⟩

/-- A clause that moves a watch away from the literal has no false watch that the move could leave
without its partner: the partner would be the literal itself, which is false. -/
theorem moved {slot : Slot} {position : Fin clause.literals.size}
    (sweeping : Sweeping origin falsified bound (ref :: rest) kept solver)
    (found : solver.clauses.get? ref = some clause)
    (explained : (Clause.Visit.movable slot position).Explained falsified solver.model) :
    solver.watches.Covers (clause.literalAt position) ∧
      Sweeping origin falsified bound rest kept (solver.rewatch ref clause slot position) := by
  obtain ⟨watching, notFirst, notSecond, notFalse, notTrue⟩ := explained
  have member := ClauseStore.mem_of_get? found
  have different : clause.literalAt position ≠ falsified := by
    intro same
    rw [same] at notFalse
    exact notFalse sweeping.fails
  refine ⟨?_, ?_⟩
  · simpa [WatchIndex.Covers, WatchIndex.replace] using
      sweeping.tracks.covers_of_mem member (clause.literalAt_mem position)
  · exact {
      faithful := sweeping.faithful
      tracks := sweeping.tracks.rewatch found watching notFirst notSecond different
      emptied :=
        (WatchIndex.watchedBy_watch_of_ne (Ne.symm different) ref).trans sweeping.emptied
      sized := sweeping.sized
      continues := sweeping.continues.trans
        ⟨rfl, rfl, formula_rewatch found slot position, rfl, rfl, rfl,
          fun orderly => orderly.record (by simp)⟩
      conflicts := sweeping.conflicts
      growth := sweeping.growth
      uniform := sweeping.uniform
      current := sweeping.current
      guarded := by
        intro stored inStore watch high below negated
        rcases Array.mem_or_eq_of_mem_setIfInBounds inStore with old | rfl
        · exact sweeping.guarded stored old watch high below negated
        · rcases slot.eq_or_eq_other watch with rfl | rfl
          · rw [Clause.watched_move_self] at negated
            exact absurd (sweeping.faithful.fails_iff.mpr ⟨high, List.mem_of_mem_drop negated⟩)
              notFalse
          · rw [Clause.watched_move_other] at negated
            obtain ⟨low, -, partner⟩ :=
              sweeping.guarded clause member slot.other high below negated
            rw [Slot.other_other, watching] at partner
            exact absurd sweeping.current_mem (sweeping.faithful.not_mem_negate partner)
      served := by
        intro other inKept stored foundStored
        by_cases same : other = ref
        · subst same
          obtain ⟨watch, true_⟩ := sweeping.served other inKept clause found
          rcases slot.eq_or_eq_other watch with rfl | rfl
          · rw [watching, sweeping.fails] at true_
            cases true_
          · exact absurd true_ notTrue
        · exact sweeping.served other inKept stored
            ((ClauseStore.get?_set_of_ne same _).symm.trans foundStored) }

theorem forced (sweeping : Sweeping origin falsified bound (ref :: rest) kept solver)
    (found : solver.clauses.get? ref = some clause)
    (explained : (Clause.Visit.forcing literal : Clause.Visit clause).Explained falsified
      solver.model) :
    literal.value solver.model = .unset ∧ solver.trail.Covers literal ∧
      Sweeping origin falsified bound rest (kept.push ref)
        ((solver.record (.forced ref literal)).pushed literal) := by
  obtain ⟨long, position, here, others⟩ := Clause.forcing_position sweeping.fails explained
  obtain ⟨slot, watching, partner, free, -⟩ := explained
  have member := ClauseStore.mem_of_get? found
  have covered : solver.trail.Covers literal := by
    change literal.var < solver.trail.values.size
    rw [sweeping.sized]
    exact sweeping.tracks.inside clause member literal (partner ▸ clause.watched_mem _)
  have grown : ∀ other : Literal, other.value solver.model = .holds →
      other.value (solver.trail.assign literal).values = .holds :=
    fun other true_ => (Formula.holds_setTrue_iff covered free).mpr (.inr true_)
  refine ⟨free, covered, ?_⟩
  exact {
    faithful := sweeping.faithful.assign covered free
    tracks := by
      rw [show kept.push ref ++ rest.toArray = kept ++ (ref :: rest).toArray by simp]
      exact sweeping.tracks
    emptied := sweeping.emptied
    sized := (Formula.size_setTrue _ _).trans sweeping.sized
    continues := sweeping.continues.trans
      ((Continues.record solver (.forced ref literal) (by simp)).trans (.pushed _ literal))
    conflicts := sweeping.conflicts
    growth := by
      have inFormula : clause.literals.toList ∈ origin.formula := by
        rw [← sweeping.continues.formula]
        exact mem_formula member
      have extended := sweeping.growth.force inFormula (by simpa using long)
        (show clause.literals.toList[position.val]? = some literal by
          rw [← here]; simp [Clause.literalAt]) (by
          intro place other elsewhere atPlace
          rw [Array.getElem?_toList] at atPlace
          obtain ⟨inside, rfl⟩ := Array.getElem?_eq_some_iff.mp atPlace
          exact sweeping.faithful.fails_iff.mp
            (others ⟨place, inside⟩ fun same => elsewhere (congrArg Fin.val same)))
      have sameLevel : solver.trail.level = origin.level := sweeping.continues.level
      change Growth _ _ _ (⟨literal, solver.trail.level⟩ :: solver.trail.entries)
      rw [sameLevel]
      exact extended
    uniform := by
      intro entry taken
      rcases List.mem_cons.mp taken with rfl | older
      · rfl
      · exact sweeping.uniform entry older
    current := sweeping.current
    guarded := by
      intro stored inStore watch high below negated
      obtain ⟨low, order, other⟩ := sweeping.guarded stored inStore watch high below negated
      exact ⟨low, order, .tail _ other⟩
    served := by
      intro other inKept stored foundStored
      rcases Array.mem_push.mp inKept with old | rfl
      · obtain ⟨watch, true_⟩ := sweeping.served other old stored foundStored
        exact ⟨watch, grown _ true_⟩
      · rw [show stored = clause from Option.some.inj (foundStored.symm.trans found)]
        refine ⟨slot.other, ?_⟩
        rw [partner]
        exact Formula.value_setTrue_self covered }

/-- A whole sweep, from the state in which the list has been taken apart. -/
theorem run (sweeping : Sweeping origin falsified bound rest kept solver) :
    ∃ swept, sweep falsified rest kept solver = .ok swept ∧
      ((swept.conflict = none ∧ Sweeping origin falsified bound [] swept.kept swept.solver) ∨
        ∃ ref remaining before clause, swept.conflict = some (.clause ref) ∧
          swept.kept = before ++ (ref :: remaining).toArray ∧
          Sweeping origin falsified bound (ref :: remaining) before swept.solver ∧
          swept.solver.clauses.get? ref = some clause ∧
          clause.visit falsified swept.solver.model = .refuted) := by
  refine exists_sweep ?_ sweeping
  intro ref rest kept solver sweeping
  obtain ⟨clause, found, slot, watching⟩ := sweeping.watches
  refine ⟨clause, found, ?_⟩
  have explained := clause.visit_explained falsified solver.model
  cases visited : clause.visit falsified solver.model with
  | stray => rw [visited] at explained; exact explained slot watching
  | satisfied => rw [visited] at explained; exact sweeping.satisfied found explained
  | movable slot position => rw [visited] at explained; exact sweeping.moved found explained
  | forcing literal => rw [visited] at explained; exact sweeping.forced found explained
  | refuted => trivial

end Sweeping

end Solver

end Dpll
