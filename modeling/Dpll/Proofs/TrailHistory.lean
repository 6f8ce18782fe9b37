import Dpll.Proofs.Consistency

/-!
# Histories of a trail

A trail is used through seven operations. Whatever sequence of them has led to it, its table and its
entries say the same of every variable, also of one beyond the table, and levels never fall towards the
newest entry (`Trail.Coherent`). Undoing looks only at the newest entries and stops at the first one of
a lower level; on such a trail it removes all entries of the level or above it and nothing else, and
undoing twice is undoing once.
-/

set_option autoImplicit false

namespace Dpll.Trail

inductive Operation where
  | grow (count : Nat)
  | push (literal : Literal)
  | newLevel
  | popTo (level : Nat)
  | next
  | settle
  | lowerLevel (level : Nat)
deriving DecidableEq

inductive Answer where
  | done
  | judged (verdict : Verdict)
  | opened (level : Nat)
  | undone (count : Nat)
  | dequeued (literal : Option Literal)
deriving DecidableEq

def perform (trail : Trail) : Operation → Except Fault (Answer × Trail)
  | .grow count => .ok (.done, trail.grow count)
  | .push literal =>
    match trail.push literal with
    | .error fault => .error fault
    | .ok (verdict, trail) => .ok (.judged verdict, trail)
  | .newLevel => .ok (.opened trail.newLevel.level, trail.newLevel)
  | .popTo level =>
    match trail.checkUndo level with
    | .error fault => .error fault
    | .ok () => .ok (.undone (above trail.entries level).length, trail.popTo level)
  | .next => .ok (.dequeued trail.next?, trail.advance)
  | .settle => .ok (.done, trail.settle)
  | .lowerLevel level =>
    match trail.lowerLevel level with
    | .error fault => .error fault
    | .ok trail => .ok (.done, trail)

def run (trail : Trail) : List Operation → Except Fault Trail
  | [] => .ok trail
  | operation :: rest =>
    match trail.perform operation with
    | .error fault => .error fault
    | .ok (_, trail) => trail.run rest

/-- What a request relies on: a literal to be pushed has a place in the table, and no entry stands above
the level that the trail is lowered to. -/
def Operation.Permitted (trail : Trail) : Operation → Prop
  | .push literal => trail.Covers literal
  | .lowerLevel level => ∀ entry, trail.entries.head? = some entry → entry.level ≤ level
  | _ => True

/-- The number of entries that have been propagated, which is the place of the next one to be, counted
from the oldest. -/
def head (trail : Trail) : Nat := trail.entries.length - trail.pending

/-- Where an operation leaves the head of a trail, given how many entries there are afterwards. Only
taking a literal from the queue and skipping the queue move it on, and undoing draws it back to the
entries that are left. -/
def Operation.headAfter (trail : Trail) (remaining : Nat) : Operation → Nat
  | .popTo _ => min trail.head remaining
  | .next => if trail.head < trail.entries.length then trail.head + 1 else trail.head
  | .settle => trail.entries.length
  | _ => trail.head

variable {trail after : Trail} {literal : Literal} {level : Nat} {operation : Operation}
  {answer : Answer}

/-! ## One operation -/

inductive Performs (trail : Trail) : Operation → Answer → Trail → Prop where
  | grow {count : Nat} : Performs trail (.grow count) .done (trail.grow count)
  | present {literal : Literal} : literal.value trail.values = .holds →
      Performs trail (.push literal) (.judged .present) trail
  | rejected {literal : Literal} : literal.value trail.values = .fails →
      Performs trail (.push literal) (.judged .rejected) trail
  | free {literal : Literal} : literal.value trail.values = .unset → trail.Covers literal →
      Performs trail (.push literal) (.judged .free) (trail.assign literal)
  | newLevel : Performs trail .newLevel (.opened (trail.level + 1)) trail.newLevel
  | popTo {level : Nat} : trail.checkUndo level = .ok () →
      Performs trail (.popTo level) (.undone (above trail.entries level).length) (trail.popTo level)
  | next : Performs trail .next (.dequeued trail.next?) trail.advance
  | settle : Performs trail .settle .done trail.settle
  | lowerLevel {level : Nat} :
      (∀ entry, trail.entries.head? = some entry → entry.level ≤ level) →
      Performs trail (.lowerLevel level) .done { trail with level := min trail.level level }

private theorem lowerLevel_eq_ok_iff : trail.lowerLevel level = .ok after ↔
    (∀ entry, trail.entries.head? = some entry → entry.level ≤ level) ∧
      after = { trail with level := min trail.level level } := by
  unfold lowerLevel
  cases newest : trail.entries.head? with
  | none => simp [eq_comm]
  | some entry => by_cases low : entry.level ≤ level <;> simp [low, eq_comm]

private theorem perform_eq_ok_iff : trail.perform operation = .ok (answer, after) ↔
    Performs trail operation answer after := by
  constructor
  · intro done
    cases operation with
    | grow count =>
        cases done
        exact .grow
    | push literal =>
        unfold perform push judge at done
        cases value : literal.value trail.values with
        | holds =>
            simp only [value] at done
            cases done
            exact .present value
        | fails =>
            simp only [value] at done
            cases done
            exact .rejected value
        | unset =>
            by_cases covered : trail.Covers literal
            · simp only [value, covered, ↓reduceIte] at done
              cases done
              exact .free value covered
            · simp only [value, covered, ↓reduceIte] at done
              cases done
    | newLevel =>
        cases done
        exact .newLevel
    | popTo level =>
        simp only [perform] at done
        split at done
        · cases done
        · next checked =>
          cases done
          exact .popTo checked
    | next =>
        cases done
        exact .next
    | settle =>
        cases done
        exact .settle
    | lowerLevel level =>
        simp only [perform] at done
        split at done
        · cases done
        · next lowered =>
          cases done
          obtain ⟨clear, rfl⟩ := lowerLevel_eq_ok_iff.mp lowered
          exact .lowerLevel clear
  · intro performs
    cases performs with
    | grow | newLevel | next | settle => rfl
    | present value => simp only [perform, push, judge, value]
    | rejected value => simp only [perform, push, judge, value]
    | free value covered => simp only [perform, push, judge, value, covered, ↓reduceIte]
    | popTo checked => simp only [perform, checked]
    | lowerLevel clear => simp only [perform, lowerLevel_eq_ok_iff.mpr ⟨clear, rfl⟩]

/-- A faithful trail whose table knows of no variable without an entry. For the variables of literals
this is part of being faithful; a table may be larger than these. -/
structure Accounted (trail : Trail) : Prop extends Faithful trail where
  recorded (var : Var) : trail.values.value var ≠ .unset →
    ∃ entry ∈ trail.entries, entry.literal.var = var

private theorem accounted_empty : Accounted {} where
  toFaithful := .empty
  recorded var decided := absurd (Valuation.value_of_size_le (Nat.zero_le var)) decided

private theorem covers_of_decided (decided : literal.value trail.values ≠ .unset) :
    trail.Covers literal := by
  apply Valuation.lt_size_of_value_ne
  intro free
  exact decided (Literal.value_eq_unset_iff.mpr free)

namespace Accounted

theorem grow (accounted : trail.Accounted) (count : Nat) : (trail.grow count).Accounted where
  toFaithful := accounted.toFaithful.grow count
  recorded var decided := by
    apply accounted.recorded var
    simpa only [Trail.grow, Valuation.value_append_unset] using decided

theorem assign (accounted : trail.Accounted) (covered : trail.Covers literal)
    (free : literal.value trail.values = .unset) : (trail.assign literal).Accounted where
  toFaithful := accounted.toFaithful.assign covered free
  recorded var decided := by
    by_cases same : literal.var = var
    · exact ⟨_, .head _, same⟩
    · simp only [Trail.assign, Valuation.value_setIfInBounds, Ne.symm same, false_and,
        ↓reduceIte] at decided
      obtain ⟨entry, member, found⟩ := accounted.recorded var decided
      exact ⟨entry, .tail _ member, found⟩

theorem popTo (accounted : trail.Accounted) (level : Nat) : (trail.popTo level).Accounted where
  toFaithful := accounted.toFaithful.popTo level
  recorded var decided := by
    simp only [Trail.popTo, value_foldl_unassign] at decided
    split at decided
    · exact absurd rfl decided
    · next untouched =>
      obtain ⟨entry, member, same⟩ := accounted.recorded var decided
      rw [above_append_filter level accounted.sorted] at member
      rcases List.mem_append.mp member with undone | remaining
      · exact absurd ⟨entry, undone, same⟩ untouched
      · exact ⟨entry, by rw [entries_popTo accounted.toFaithful]; exact remaining, same⟩

private theorem performs (accounted : trail.Accounted)
    (performs : Performs trail operation answer after) :
    after.Accounted := by
  cases performs with
  | grow => exact accounted.grow _
  | present | rejected => exact accounted
  | free value covered => exact accounted.assign covered value
  | newLevel => exact ⟨accounted.toFaithful.newLevel, accounted.recorded⟩
  | popTo => exact accounted.popTo _
  | next => exact ⟨accounted.toFaithful.advance, accounted.recorded⟩
  | settle => exact ⟨accounted.toFaithful.settle, accounted.recorded⟩
  | lowerLevel clear =>
      have lowered := lowerLevel_eq_ok_iff.mpr ⟨clear, rfl⟩
      exact ⟨(accounted.toFaithful.of_lowerLevel lowered).2, accounted.recorded⟩

theorem run {operations : List Operation} (accounted : trail.Accounted)
    (done : trail.run operations = .ok after) : after.Accounted := by
  induction operations generalizing trail with
  | nil =>
      cases done
      exact accounted
  | cons operation rest ih =>
      unfold Trail.run at done
      split at done
      · cases done
      · next performed => exact ih (accounted.performs (perform_eq_ok_iff.mp performed)) done

/-- An operation is carried out exactly if what it relies on is given. -/
theorem perform_iff (accounted : trail.Accounted) :
    (∃ result, trail.perform operation = .ok result) ↔ operation.Permitted trail := by
  constructor
  · rintro ⟨⟨answer, after⟩, done⟩
    cases perform_eq_ok_iff.mp done with
    | present value | rejected value => exact covers_of_decided (by simp [value])
    | free _ covered => exact covered
    | lowerLevel clear => exact clear
    | grow | newLevel | popTo | next | settle => trivial
  · intro permitted
    cases operation with
    | push literal =>
        cases value : literal.value trail.values with
        | holds => exact ⟨_, perform_eq_ok_iff.mpr (.present value)⟩
        | fails => exact ⟨_, perform_eq_ok_iff.mpr (.rejected value)⟩
        | unset => exact ⟨_, perform_eq_ok_iff.mpr (.free value permitted)⟩
    | lowerLevel level => exact ⟨_, perform_eq_ok_iff.mpr (.lowerLevel permitted)⟩
    | popTo level =>
        exact ⟨_, perform_eq_ok_iff.mpr (.popTo (accounted.toFaithful.checkUndo level))⟩
    | grow | newLevel | next | settle => exact ⟨_, rfl⟩

end Accounted

/-! ## Table and entries -/

/-- Table, entries, levels and queue of a trail fit together. The newest entry comes first. -/
structure Coherent (trail : Trail) : Prop where
  distinct : trail.entries.Pairwise fun newer older => newer.literal.var ≠ older.literal.var
  holds_iff (var : Var) : trail.values.value var = .holds ↔
    ∃ entry ∈ trail.entries, entry.literal.var = var ∧ entry.literal.positive = true
  fails_iff (var : Var) : trail.values.value var = .fails ↔
    ∃ entry ∈ trail.entries, entry.literal.var = var ∧ entry.literal.positive = false
  unset_iff (var : Var) : trail.values.value var = .unset ↔
    ∀ entry ∈ trail.entries, entry.literal.var ≠ var
  sorted : trail.entries.Pairwise fun newer older => older.level ≤ newer.level
  bounded : ∀ entry ∈ trail.entries, entry.level ≤ trail.level
  queue : trail.head + trail.pending = trail.entries.length
  next?_eq : trail.next? = trail.entries.reverse[trail.head]?.map (·.literal)

private theorem Faithful.value_eq_ofSign (faithful : trail.Faithful) {entry : Entry}
    (member : entry ∈ trail.entries) :
    trail.values.value entry.literal.var = Truth.ofSign entry.literal.positive := by
  have true_ := faithful.holds member
  unfold Literal.value at true_
  cases sign : entry.literal.positive with
  | true => simpa [sign, Truth.ofSign] using true_
  | false =>
      cases value : trail.values.value entry.literal.var <;>
        simp_all [Truth.complement, Truth.ofSign]

/-- A table that knows of no variable without an entry says which sign the entry of a variable has. -/
theorem Accounted.value_eq_ofSign_iff (accounted : trail.Accounted) (var : Var) (sign : Bool) :
    trail.values.value var = Truth.ofSign sign ↔
      ∃ entry ∈ trail.entries, entry.literal.var = var ∧ entry.literal.positive = sign := by
  constructor
  · intro value
    have decided : trail.values.value var ≠ .unset := by
      rw [value]
      cases sign <;> decide
    obtain ⟨entry, member, rfl⟩ := accounted.recorded var decided
    refine ⟨entry, member, rfl, ?_⟩
    rw [accounted.value_eq_ofSign member] at value
    revert value
    cases entry.literal.positive <;> cases sign <;> decide
  · rintro ⟨entry, member, rfl, rfl⟩
    exact accounted.value_eq_ofSign member

private theorem Accounted.unset_iff_fresh (accounted : trail.Accounted) (var : Var) :
    trail.values.value var = .unset ↔ ∀ entry ∈ trail.entries, entry.literal.var ≠ var := by
  constructor
  · rintro free entry member rfl
    rw [accounted.value_eq_ofSign member] at free
    revert free
    cases entry.literal.positive <;> decide
  · intro fresh
    apply Classical.byContradiction
    intro decided
    obtain ⟨entry, member, same⟩ := accounted.recorded var decided
    exact fresh entry member same

private theorem Faithful.head_add (faithful : trail.Faithful) :
    trail.head + trail.pending = trail.entries.length :=
  Nat.sub_add_cancel faithful.waiting

private theorem Faithful.head_eq (faithful : trail.Faithful)
    (performs : Performs trail operation answer after) :
    after.head = operation.headAfter trail after.entries.length := by
  have waiting := faithful.waiting
  cases performs with
  | grow | present | rejected | newLevel | settle | lowerLevel => rfl
  | free =>
      simp only [Operation.headAfter, head, Trail.assign, List.length_cons]
      omega
  | popTo =>
      simp only [Operation.headAfter, head, Trail.popTo, List.length_drop]
      omega
  | next =>
      have moved : trail.advance.head = trail.entries.length - (trail.pending - 1) := rfl
      simp only [Operation.headAfter, moved]
      by_cases more : trail.head < trail.entries.length
      · rw [if_pos more]
        unfold head at more ⊢
        omega
      · rw [if_neg more]
        unfold head at more ⊢
        omega

private theorem Faithful.next?_eq (faithful : trail.Faithful) :
    trail.next? = trail.entries.reverse[trail.head]?.map (·.literal) := by
  have split := faithful.head_add
  unfold next?
  cases waiting : trail.pending with
  | zero =>
      rw [waiting] at split
      rw [List.getElem?_eq_none (by rw [List.length_reverse]; omega)]
      rfl
  | succ newer =>
      rw [waiting] at split
      rw [List.getElem?_reverse (by omega),
        show trail.entries.length - 1 - trail.head = newer by omega]

private theorem Accounted.coherent (accounted : trail.Accounted) : trail.Coherent where
  distinct := accounted.distinct
  holds_iff var := accounted.value_eq_ofSign_iff var true
  fails_iff var := accounted.value_eq_ofSign_iff var false
  unset_iff := accounted.unset_iff_fresh
  sorted := accounted.sorted
  bounded := accounted.bounded
  queue := accounted.toFaithful.head_add
  next?_eq := accounted.toFaithful.next?_eq

/-! ## Undoing -/

structure Undone (before : Trail) (level count : Nat) (after : Trail) : Prop where
  entries : after.entries = before.entries.filter (·.level < level)
  count : count = (before.entries.filter (level ≤ ·.level)).length
  unset : ∀ entry ∈ before.entries, level ≤ entry.level →
    after.values.value entry.literal.var = .unset
  kept (var : Var) : (∀ entry ∈ before.entries, level ≤ entry.level → entry.literal.var ≠ var) →
    after.values.value var = before.values.value var
  size : after.values.size = before.values.size
  level : after.level = min before.level level
  head : after.head = min before.head after.entries.length

private theorem above_eq_filter {entries : List Entry} (level : Nat)
    (sorted : entries.Pairwise fun newer older => older.level ≤ newer.level) :
    above entries level = entries.filter (level ≤ ·.level) := by
  conv => rhs; rw [above_append_filter level sorted]
  have high : (above entries level).filter (level ≤ ·.level) = above entries level :=
    List.filter_eq_self.mpr fun entry member => decide_eq_true (mem_above member)
  have low : (entries.filter (·.level < level)).filter (level ≤ ·.level) = [] := by
    apply List.filter_eq_nil_iff.mpr
    intro entry member
    have below := (List.mem_filter.mp member).2
    simp only [decide_eq_true_eq] at below ⊢
    exact Nat.not_le.mpr below
  rw [List.filter_append, high, low, List.append_nil]

theorem Faithful.undone (faithful : trail.Faithful) (level : Nat) :
    Undone trail level (above trail.entries level).length (trail.popTo level) := by
  have removed := above_eq_filter level faithful.sorted
  have mem_removed {entry : Entry} : entry ∈ above trail.entries level ↔
      entry ∈ trail.entries ∧ level ≤ entry.level := by
    rw [removed, List.mem_filter, decide_eq_true_eq]
  constructor
  case entries => exact entries_popTo faithful level
  case count => rw [removed]
  case unset =>
    intro entry member high
    simp only [Trail.popTo, value_foldl_unassign]
    exact if_pos ⟨entry, mem_removed.mpr ⟨member, high⟩, rfl⟩
  case kept =>
    intro var untouched
    simp only [Trail.popTo, value_foldl_unassign]
    apply if_neg
    rintro ⟨entry, undone, same⟩
    obtain ⟨member, high⟩ := mem_removed.mp undone
    exact untouched entry member high same
  case size => exact size_popTo trail level
  case level => rfl
  case head =>
    have waiting := faithful.waiting
    simp only [head, Trail.popTo, List.length_drop]
    omega

private theorem above_cons_of_lt {newest : Entry} (rest : List Entry) (low : newest.level < level) :
    above (newest :: rest) level = [] := by
  apply List.takeWhile_cons_of_neg
  simp only [decide_eq_true_eq]
  exact Nat.not_le.mpr low

/-- The entries above the lower of two levels are those above the first, followed by those of the rest
that are above the second. -/
theorem above_min (entries : List Entry) (first second : Nat) :
    above entries (min first second) =
      above entries first ++ above (entries.drop (above entries first).length) second := by
  induction entries with
  | nil => rfl
  | cons newest rest ih =>
      by_cases high : first ≤ newest.level
      · have lower : min first second ≤ newest.level := Nat.le_trans (Nat.min_le_left ..) high
        simp only [above, List.takeWhile_cons, high, lower, decide_true, ↓reduceIte,
          List.length_cons, List.drop_succ_cons, List.cons_append, List.cons.injEq, true_and]
        exact ih
      · have below : newest.level < first := Nat.lt_of_not_le high
        rw [above_cons_of_lt rest below, List.nil_append, List.length_nil, List.drop_zero]
        by_cases low : second ≤ newest.level
        · rw [Nat.min_eq_right (by omega)]
        · have stops : newest.level < min first second := by omega
          rw [above_cons_of_lt rest stops, above_cons_of_lt rest (Nat.lt_of_not_le low)]

private theorem popTo_popTo (trail : Trail) (first second : Nat) :
    (trail.popTo first).popTo second = trail.popTo (min first second) := by
  simp only [popTo, above_min trail.entries first second, List.foldl_append, List.length_append,
    List.drop_drop, Nat.sub_sub, Nat.min_assoc]

private theorem Accounted.run_popTo_popTo (accounted : trail.Accounted) (first second : Nat) :
    trail.run [.popTo first, .popTo second] = trail.run [.popTo (min first second)] := by
  have once := accounted.toFaithful.checkUndo
  have again := (accounted.popTo first).toFaithful.checkUndo second
  simp only [Trail.run, Trail.perform, once, again, popTo_popTo]

/-- Any sequence of operations leaves a trail whose table and entries say the same. On it an operation
is carried out if its one condition is met, undoing a level is exact, and undoing twice is undoing the
lower level. -/
theorem coherent_of_run {operations : List Operation} (done : run {} operations = .ok trail) :
    trail.Coherent ∧
      (∀ operation, (∃ result, trail.perform operation = .ok result) ↔
        operation.Permitted trail) ∧
      (∀ operation answer after, trail.perform operation = .ok (answer, after) →
        after.head = operation.headAfter trail after.entries.length) ∧
      (∀ level, ∃ count after, trail.perform (.popTo level) = .ok (.undone count, after) ∧
        Undone trail level count after) ∧
      ∀ first second,
        trail.run [.popTo first, .popTo second] = trail.run [.popTo (min first second)] := by
  have accounted := accounted_empty.run done
  refine ⟨accounted.coherent, fun _ => accounted.perform_iff, ?_, ?_, accounted.run_popTo_popTo⟩
  · intro operation answer after performed
    exact accounted.toFaithful.head_eq (perform_eq_ok_iff.mp performed)
  · intro level
    refine ⟨_, trail.popTo level, ?_, accounted.toFaithful.undone level⟩
    simp only [perform, accounted.toFaithful.checkUndo]

/-- Four literals at the levels 0, 1, 1 and 2. The variable of the third was undone and given the other
sign, a repeated and a contradicting literal left no entry, and the level was lowered and opened again.
Undoing level 1 removes three of them, of which two were propagated. -/
theorem coherent_of_run_after_undoing :
    let root : Literal := ⟨0, by decide⟩
    let second : Literal := ⟨3, by decide⟩
    let third : Literal := ⟨5, by decide⟩
    let newest : Literal := ⟨6, by decide⟩
    let operations : List Operation :=
      [.grow 4, .push root, .newLevel, .push second, .newLevel, .push third.negate, .settle, .popTo 2,
        .lowerLevel 1, .push third, .push second, .push second.negate, .newLevel, .next, .push newest]
    ∃ trail, run {} operations = .ok trail ∧
      trail.entries = [⟨newest, 2⟩, ⟨third, 1⟩, ⟨second, 1⟩, ⟨root, 0⟩] ∧ trail.head = 3 ∧
      trail.Coherent ∧
      ∃ after, trail.perform (.popTo 1) = .ok (.undone 3, after) ∧ Undone trail 1 3 after ∧
        after.entries = [⟨root, 0⟩] ∧ after.head = 1 := by
  intro root second third newest operations
  have computed : ((run {} operations).toOption.map fun trail => (trail.entries, trail.head)) =
      some ([⟨newest, 2⟩, ⟨third, 1⟩, ⟨second, 1⟩, ⟨root, 0⟩], 3) := by
    decide +kernel
  cases done : run {} operations with
  | error fault => simp [done, Except.toOption] at computed
  | ok trail =>
      simp only [done, Except.toOption, Option.map_some, Option.some.injEq, Prod.mk.injEq] at computed
      obtain ⟨entries, place⟩ := computed
      obtain ⟨coherent, -, -, undoing, -⟩ := coherent_of_run done
      obtain ⟨count, after, undone, effect⟩ := undoing 1
      have left : after.entries = [⟨root, 0⟩] := by
        rw [effect.entries, entries]
        decide
      have three : count = 3 := by
        rw [effect.count, entries]
        decide
      subst three
      refine ⟨trail, rfl, entries, place, coherent, after, undone, effect, left, ?_⟩
      rw [effect.head, place, left]
      decide

end Dpll.Trail
