import Dpll.Engine.Trail
import Dpll.Proofs.Valuations

/-!
# Faithful trails

The value table of a trail is a second copy of its entries. `Trail.Faithful` says that both agree,
that no variable has two entries and that levels never fall towards the newest entry. All operations
keep it, and it makes undoing exact: taking entries off the end of the list removes precisely those of
the undone levels, wherever they stand.
-/

set_option autoImplicit false

namespace Dpll

/-- Where the true literals are those of the entries, a variable that none of them has is
undecided. -/
theorem Valuation.value_eq_unset_of_fresh {values : Valuation} {entries : List Entry}
    {literal : Literal}
    (known : ∀ other : Literal, other.value values = .holds ↔ ∃ level, ⟨other, level⟩ ∈ entries)
    (fresh : ∀ entry ∈ entries, entry.literal.var ≠ literal.var) :
    literal.value values = .unset := by
  cases value : literal.value values with
  | holds =>
      obtain ⟨level, member⟩ := (known literal).mp value
      exact absurd rfl (fresh _ member)
  | fails =>
      obtain ⟨level, member⟩ := (known literal.negate).mp (Literal.value_eq_fails_iff.mp value)
      exact absurd (Literal.var_negate literal) (fresh _ member)
  | unset => rfl

namespace Trail

/-- The entries of a trail say what its table says, in the order of their levels. -/
structure Faithful (trail : Trail) : Prop where
  holds_iff (literal : Literal) :
    literal.value trail.values = .holds ↔ ∃ level, ⟨literal, level⟩ ∈ trail.entries
  distinct : trail.entries.Pairwise fun newer older => newer.literal.var ≠ older.literal.var
  sorted : trail.entries.Pairwise fun newer older => older.level ≤ newer.level
  bounded : ∀ entry ∈ trail.entries, entry.level ≤ trail.level
  waiting : trail.pending ≤ trail.entries.length

namespace Faithful

variable {trail : Trail} {literal : Literal} {entry : Entry}

theorem holds (faithful : trail.Faithful) (member : entry ∈ trail.entries) :
    entry.literal.value trail.values = .holds :=
  (faithful.holds_iff entry.literal).mpr ⟨entry.level, member⟩

theorem fails_iff (faithful : trail.Faithful) :
    literal.value trail.values = .fails ↔ ∃ level, ⟨literal.negate, level⟩ ∈ trail.entries := by
  rw [Literal.value_eq_fails_iff, faithful.holds_iff]

theorem not_mem_negate (faithful : trail.Faithful) {level other : Nat}
    (member : ⟨literal, level⟩ ∈ trail.entries) : ⟨literal.negate, other⟩ ∉ trail.entries :=
  fun opposite => Literal.not_holds_negate (faithful.holds member) (faithful.holds opposite)

theorem unset_iff (faithful : trail.Faithful) :
    literal.value trail.values = .unset ↔
      ∀ entry ∈ trail.entries, entry.literal.var ≠ literal.var := by
  constructor
  · intro free entry member same
    have undecided := Literal.value_eq_unset_iff.mp free
    rw [← same] at undecided
    have true_ := faithful.holds member
    rw [Literal.value_eq_unset_iff.mpr undecided] at true_
    cases true_
  · exact Valuation.value_eq_unset_of_fresh faithful.holds_iff

theorem eq_of_var_eq (faithful : trail.Faithful) {left right : Entry}
    (leftMember : left ∈ trail.entries) (rightMember : right ∈ trail.entries)
    (same : left.literal.var = right.literal.var) : left = right := by
  have distinct := faithful.distinct
  generalize trail.entries = entries at *
  induction entries with
  | nil => cases leftMember
  | cons head rest ih =>
      obtain ⟨headFresh, restDistinct⟩ := List.pairwise_cons.mp distinct
      rcases List.mem_cons.mp leftMember with rfl | leftRest <;>
        rcases List.mem_cons.mp rightMember with rfl | rightRest
      · rfl
      · exact absurd same (headFresh _ rightRest)
      · exact absurd same.symm (headFresh _ leftRest)
      · exact ih leftRest rightRest restDistinct

theorem covers (faithful : trail.Faithful) (member : entry ∈ trail.entries) :
    trail.Covers entry.literal := by
  apply Valuation.lt_size_of_value_ne
  intro free
  have true_ := faithful.holds member
  rw [Literal.value_eq_unset_iff.mpr free] at true_
  cases true_

/-! ## Operations -/

theorem empty : ({} : Trail).Faithful where
  holds_iff literal := by
    simp [Literal.value, Valuation.value]
    split <;> simp [Truth.complement]
  distinct := .nil
  sorted := .nil
  bounded := by simp
  waiting := Nat.le_refl 0

theorem value_grow (trail : Trail) (count : Nat) (literal : Literal) :
    literal.value (trail.grow count).values = literal.value trail.values := by
  simp only [Literal.value, grow, Valuation.value_append_unset]

theorem size_grow (trail : Trail) (count : Nat) :
    (trail.grow count).values.size = max trail.values.size count := by
  simp only [grow, Array.size_append, Array.size_replicate]
  omega

theorem grow (faithful : trail.Faithful) (count : Nat) : (trail.grow count).Faithful where
  holds_iff literal := by rw [value_grow]; exact faithful.holds_iff literal
  distinct := faithful.distinct
  sorted := faithful.sorted
  bounded := faithful.bounded
  waiting := faithful.waiting

theorem assign (faithful : trail.Faithful) (covered : trail.Covers literal)
    (free : literal.value trail.values = .unset) : (trail.assign literal).Faithful where
  holds_iff other := by
    rw [show (trail.assign literal).values = Formula.setTrue trail.values literal from rfl,
      Formula.holds_setTrue_iff covered free, faithful.holds_iff]
    constructor
    · rintro (rfl | ⟨level, member⟩)
      · exact ⟨trail.level, .head _⟩
      · exact ⟨level, .tail _ member⟩
    · rintro ⟨level, member⟩
      rcases List.mem_cons.mp member with same | older
      · cases same; exact .inl rfl
      · exact .inr ⟨level, older⟩
  distinct := List.pairwise_cons.mpr
    ⟨fun older member same => faithful.unset_iff.mp free older member same.symm, faithful.distinct⟩
  sorted := List.pairwise_cons.mpr ⟨faithful.bounded, faithful.sorted⟩
  bounded entry member := by
    rcases List.mem_cons.mp member with rfl | older
    · exact Nat.le_refl _
    · exact faithful.bounded entry older
  waiting := Nat.succ_le_succ faithful.waiting

theorem newLevel (faithful : trail.Faithful) : trail.newLevel.Faithful where
  holds_iff := faithful.holds_iff
  distinct := faithful.distinct
  sorted := faithful.sorted
  bounded entry member := Nat.le_succ_of_le (faithful.bounded entry member)
  waiting := faithful.waiting

theorem advance (faithful : trail.Faithful) : trail.advance.Faithful where
  holds_iff := faithful.holds_iff
  distinct := faithful.distinct
  sorted := faithful.sorted
  bounded := faithful.bounded
  waiting := Nat.le_trans (Nat.sub_le ..) faithful.waiting

theorem settle (faithful : trail.Faithful) : trail.settle.Faithful where
  holds_iff := faithful.holds_iff
  distinct := faithful.distinct
  sorted := faithful.sorted
  bounded := faithful.bounded
  waiting := Nat.zero_le _

end Faithful

/-! ## Undoing levels -/

/-- Where levels never fall towards the newest entry, the entries taken off are those of the level
or above it. -/
theorem above_append_filter {entries : List Entry} (level : Nat)
    (sorted : entries.Pairwise fun newer older => older.level ≤ newer.level) :
    entries = above entries level ++ entries.filter (·.level < level) := by
  induction entries with
  | nil => rfl
  | cons head rest ih =>
      obtain ⟨headLatest, restSorted⟩ := List.pairwise_cons.mp sorted
      by_cases high : level ≤ head.level
      · have kept : ¬ head.level < level := Nat.not_lt.mpr high
        have tail := ih restSorted
        simp only [above] at tail
        simp only [above, List.takeWhile_cons, high, decide_true, ↓reduceIte, List.filter_cons, kept,
          decide_false, Bool.false_eq_true, List.cons_append]
        rw [← tail]
      · have below : ∀ entry ∈ head :: rest, entry.level < level := by
          intro entry member
          rcases List.mem_cons.mp member with rfl | older
          · exact Nat.lt_of_not_le high
          · exact Nat.lt_of_le_of_lt (headLatest entry older) (Nat.lt_of_not_le high)
        have all : (head :: rest).filter (·.level < level) = head :: rest :=
          List.filter_eq_self.mpr fun entry member => by simpa using below entry member
        rw [all]
        simp [above, high]

theorem mem_above {entries : List Entry} {level : Nat} {entry : Entry}
    (member : entry ∈ above entries level) : level ≤ entry.level := by
  have all := List.all_takeWhile (p := fun entry : Entry => level ≤ entry.level) (l := entries)
  simpa using List.all_eq_true.mp all entry member

theorem entries_popTo {trail : Trail} (faithful : trail.Faithful) (level : Nat) :
    (trail.popTo level).entries = trail.entries.filter (·.level < level) := by
  have split := above_append_filter level faithful.sorted
  simp only [popTo]
  conv => lhs; arg 2; rw [split]
  exact List.drop_left' rfl

private theorem mem_popTo {trail : Trail} (faithful : trail.Faithful) {level : Nat} {entry : Entry} :
    entry ∈ (trail.popTo level).entries ↔ entry ∈ trail.entries ∧ entry.level < level := by
  simp [entries_popTo faithful]

theorem value_foldl_unassign (undone : List Entry) (values : Valuation) (var : Var) :
    Valuation.value (undone.foldl unassign values) var =
      if ∃ entry ∈ undone, entry.literal.var = var then .unset else values.value var := by
  induction undone generalizing values with
  | nil => simp
  | cons head rest ih =>
      rw [List.foldl_cons, ih, unassign, Valuation.value_setIfInBounds]
      by_cases later : ∃ entry ∈ rest, entry.literal.var = var
      · simp [later]
      · by_cases now : var = head.literal.var
        · subst now
          by_cases inside : head.literal.var < values.size
          · simp [inside]
          · simp [inside, Valuation.value_of_size_le (Nat.le_of_not_lt inside)]
        · have different : head.literal.var ≠ var := fun same => now same.symm
          simp [later, now, different]

namespace Faithful

variable {trail : Trail} {literal : Literal}

theorem popTo (faithful : trail.Faithful) (level : Nat) : (trail.popTo level).Faithful where
  holds_iff literal := by
    have kept : literal.value (trail.popTo level).values = .holds ↔
        literal.value trail.values = .holds ∧
          ¬ ∃ entry ∈ above trail.entries level, entry.literal.var = literal.var := by
      simp only [Literal.value, Trail.popTo, value_foldl_unassign]
      split <;> split <;> simp_all [Truth.complement]
    rw [kept, faithful.holds_iff]
    constructor
    · rintro ⟨⟨entryLevel, member⟩, untouched⟩
      rw [above_append_filter level faithful.sorted] at member
      rcases List.mem_append.mp member with undone | remaining
      · exact absurd ⟨_, undone, rfl⟩ untouched
      · exact ⟨entryLevel, by rw [entries_popTo faithful]; exact remaining⟩
    · rintro ⟨entryLevel, member⟩
      obtain ⟨present, low⟩ := (mem_popTo faithful).mp member
      refine ⟨⟨entryLevel, present⟩, ?_⟩
      rintro ⟨entry, undone, same⟩
      have recorded : entry ∈ trail.entries := (List.takeWhile_subset _) undone
      have equal := faithful.eq_of_var_eq recorded present same
      have high := mem_above undone
      rw [equal] at high
      exact Nat.not_lt.mpr high low
  distinct := by
    rw [entries_popTo faithful]
    exact faithful.distinct.filter _
  sorted := by
    rw [entries_popTo faithful]
    exact faithful.sorted.filter _
  bounded entry member := by
    obtain ⟨present, low⟩ := (mem_popTo faithful).mp member
    exact Nat.le_min.mpr ⟨faithful.bounded entry present, Nat.le_of_lt low⟩
  waiting := by
    simp only [Trail.popTo, List.length_drop]
    exact Nat.sub_le_sub_right faithful.waiting _

theorem checkUndo (faithful : trail.Faithful) (level : Nat) : trail.checkUndo level = .ok () := by
  have covered : (above trail.entries level).find? (¬ trail.Covers ·.literal) = none := by
    refine List.find?_eq_none.mpr fun entry undone => ?_
    simpa using faithful.covers ((List.takeWhile_subset _) undone)
  simp only [Trail.checkUndo, covered]

theorem lowerLevel (faithful : trail.Faithful) {level : Nat}
    (clear : ∀ entry ∈ trail.entries, entry.level ≤ level) :
    trail.lowerLevel level = .ok { trail with level := min trail.level level } ∧
      Trail.Faithful { trail with level := min trail.level level } := by
  constructor
  · have newest : trail.entries.head?.all (·.level ≤ level) = true := by
      cases shape : trail.entries with
      | nil => rfl
      | cons head rest => simpa [shape] using clear head (shape ▸ .head rest)
    simp [Trail.lowerLevel, newest]
  · exact {
      holds_iff := faithful.holds_iff
      distinct := faithful.distinct
      sorted := faithful.sorted
      bounded := fun entry member => Nat.le_min.mpr ⟨faithful.bounded entry member, clear entry member⟩
      waiting := faithful.waiting }

end Faithful

theorem levelBelow_of_pos {level : Nat} (positive : 0 < level) :
    levelBelow level = .ok (level - 1) := by
  cases level with
  | zero => exact absurd positive (Nat.lt_irrefl 0)
  | succ below => rfl

theorem size_popTo (trail : Trail) (level : Nat) :
    (trail.popTo level).values.size = trail.values.size := by
  simp only [popTo]
  generalize above trail.entries level = undone
  generalize trail.values = values
  induction undone generalizing values with
  | nil => rfl
  | cons head rest ih => simp only [List.foldl_cons, ih, unassign, Array.size_setIfInBounds]

theorem pending_popTo {trail : Trail} (idle : trail.pending = 0) (level : Nat) :
    (trail.popTo level).pending = 0 := by
  simp [popTo, idle]

theorem entries_popTo_zero {trail : Trail} (faithful : trail.Faithful) :
    (trail.popTo 0).entries = [] := by
  simp [entries_popTo faithful]

/-! ## The queue -/

theorem next?_eq_some_iff {trail : Trail} {literal : Literal} :
    trail.next? = some literal ↔
      ∃ level newer, trail.pending = newer + 1 ∧
        trail.entries[newer]? = some ⟨literal, level⟩ := by
  unfold next?
  cases waiting : trail.pending with
  | zero => simp
  | succ newer =>
      simp only [Option.map_eq_some_iff, Nat.add_right_cancel_iff]
      constructor
      · rintro ⟨⟨_, level⟩, found, rfl⟩
        exact ⟨level, newer, rfl, found⟩
      · rintro ⟨level, _, rfl, found⟩
        exact ⟨_, found, rfl⟩

theorem next?_eq_none_iff {trail : Trail} (faithful : trail.Faithful) :
    trail.next? = none ↔ trail.pending = 0 := by
  unfold next?
  have waiting := faithful.waiting
  cases count : trail.pending with
  | zero => simp
  | succ newer =>
      rw [count] at waiting
      simp [List.getElem?_eq_getElem (show newer < trail.entries.length by omega)]

end Trail

/-! ## The table of a list of entries -/

def Valuation.ofEntries (count : Nat) (entries : List Entry) : Valuation :=
  entries.foldr (fun entry values => Formula.setTrue values entry.literal)
    (Array.replicate count .unset)

theorem Valuation.size_ofEntries (count : Nat) (entries : List Entry) :
    (Valuation.ofEntries count entries).size = count := by
  induction entries with
  | nil => simp [Valuation.ofEntries]
  | cons head rest ih => exact (Formula.size_setTrue ..).trans ih

theorem Valuation.holds_ofEntries_iff {count : Nat} {entries : List Entry}
    (distinct : entries.Pairwise fun newer older => newer.literal.var ≠ older.literal.var)
    (inside : ∀ entry ∈ entries, entry.literal.var < count) (literal : Literal) :
    literal.value (Valuation.ofEntries count entries) = .holds ↔
      ∃ level, ⟨literal, level⟩ ∈ entries := by
  induction entries generalizing literal with
  | nil =>
      have undecided : literal.value (Array.replicate count .unset) = .unset :=
        Literal.value_eq_unset_iff.mpr (Valuation.value_replicate_unset ..)
      simp [Valuation.ofEntries, undecided]
  | cons head rest ih =>
      obtain ⟨fresh, restDistinct⟩ := List.pairwise_cons.mp distinct
      have known := ih restDistinct fun entry member => inside entry (.tail _ member)
      have free : head.literal.value (Valuation.ofEntries count rest) = .unset :=
        Valuation.value_eq_unset_of_fresh known fun entry member => (fresh entry member).symm
      have covered : head.literal.var < (Valuation.ofEntries count rest).size := by
        rw [Valuation.size_ofEntries]
        exact inside head (.head _)
      rw [show Valuation.ofEntries count (head :: rest) =
        Formula.setTrue (Valuation.ofEntries count rest) head.literal from rfl,
        Formula.holds_setTrue_iff covered free, known]
      constructor
      · rintro (rfl | ⟨level, member⟩)
        · exact ⟨head.level, .head _⟩
        · exact ⟨level, .tail _ member⟩
      · rintro ⟨level, member⟩
        rcases List.mem_cons.mp member with same | older
        · exact .inl (congrArg Entry.literal same)
        · exact .inr ⟨level, older⟩

/-- The table of a faithful trail can be read off its entries. -/
theorem Trail.Faithful.values_eq {trail : Trail} (faithful : trail.Faithful)
    (small : trail.values.size < variableLimit) :
    trail.values = Valuation.ofEntries trail.values.size trail.entries := by
  have agree := Valuation.holds_ofEntries_iff faithful.distinct
    fun entry member => faithful.covers member
  refine Valuation.Within.antisymm (Valuation.size_ofEntries ..).symm small ?_ ?_
  · exact fun literal true_ => (agree literal).mpr ((faithful.holds_iff literal).mp true_)
  · exact fun literal true_ => (faithful.holds_iff literal).mpr ((agree literal).mp true_)

end Dpll
