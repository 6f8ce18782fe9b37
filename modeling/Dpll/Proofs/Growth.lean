import Dpll.Engine.Trail
import Dpll.Proofs.Valuations

/-!
# Growth by forced literals

Propagation extends a trail by literals that clauses leave as the only ones. `Growth` records such an
extension entry by entry: each new literal comes from a clause all of whose other positions are false
by older entries. What holds of the old entries therefore spreads to the new ones, under every
assignment that satisfies the formula and under every valuation that no clause can extend further.
-/

set_option autoImplicit false

namespace Dpll

inductive Growth (formula : Formula) (level : Nat) (base : List Entry) : List Entry → Prop where
  | base : Growth formula level base base
  | force {entries : List Entry} {clause : List Literal} {position : Nat} {literal : Literal} :
      Growth formula level base entries → clause ∈ formula → 2 ≤ clause.length →
      clause[position]? = some literal →
      (∀ (place : Nat) (other : Literal), place ≠ position → clause[place]? = some other →
        ∃ low, ⟨other.negate, low⟩ ∈ entries) →
      Growth formula level base (⟨literal, level⟩ :: entries)

namespace Growth

variable {formula : Formula} {level : Nat} {base middle entries : List Entry}

theorem subset (growth : Growth formula level base entries) : base ⊆ entries := by
  induction growth with
  | base => exact fun _ member => member
  | force _ _ _ _ _ ih => exact fun _ member => .tail _ (ih member)

theorem trans (first : Growth formula level base middle)
    (second : Growth formula level middle entries) : Growth formula level base entries := by
  induction second with
  | base => exact first
  | force _ member long found others ih => exact .force ih member long found others

theorem mem_or_level_eq (growth : Growth formula level base entries) {entry : Entry}
    (member : entry ∈ entries) : entry ∈ base ∨ entry.level = level := by
  induction growth with
  | base => exact .inl member
  | force _ _ _ _ _ ih =>
      rcases List.mem_cons.mp member with rfl | older
      · exact .inr rfl
      · exact ih older

theorem level_le (growth : Growth formula level base entries)
    (below : ∀ entry ∈ base, entry.level ≤ level) : ∀ entry ∈ entries, entry.level ≤ level := by
  intro entry member
  rcases growth.mem_or_level_eq member with old | same
  · exact below entry old
  · exact Nat.le_of_eq same

/-- Nothing is added below the level of the growth. -/
theorem filter_of_le {bound : Nat} (growth : Growth formula level base entries)
    (high : bound ≤ level) :
    entries.filter (·.level < bound) = base.filter (·.level < bound) := by
  induction growth with
  | base => rfl
  | force _ _ _ _ _ ih =>
      rw [List.filter_cons_of_neg]
      · exact ih
      · simpa using high

/-- Undoing the level of the growth gives back what was there before the level. -/
theorem filter_eq {outer : List Entry} {literal : Literal}
    (growth : Growth formula level (⟨literal, level⟩ :: outer) entries)
    (below : ∀ entry ∈ outer, entry.level < level) :
    entries.filter (·.level < level) = outer := by
  rw [growth.filter_of_le (Nat.le_refl level)]
  simpa using below

/-- Forced literals are consequences: an assignment that satisfies the formula and the old entries
satisfies the new ones. -/
theorem holds (growth : Growth formula level base entries) {assignment : Assignment}
    (satisfied : formula.Satisfied assignment)
    (known : ∀ entry ∈ base, entry.literal.Holds assignment) :
    ∀ entry ∈ entries, entry.literal.Holds assignment := by
  induction growth with
  | base => exact known
  | @force entries clause position literal _ member _ found others ih =>
      intro entry inEntries
      rcases List.mem_cons.mp inEntries with rfl | older
      · obtain ⟨witness, inClause, true_⟩ := satisfied clause member
        obtain ⟨place, atPlace⟩ := List.mem_iff_getElem?.mp inClause
        by_cases same : place = position
        · rw [same, found] at atPlace
          cases atPlace
          exact true_
        · obtain ⟨low, negated⟩ := others place witness same atPlace
          exact absurd true_ ((Literal.holds_negate_iff assignment witness).mp (ih _ negated))
      · exact ih entry older

end Growth

/-- No assignment that satisfies the formula satisfies all the entries. -/
def Formula.Excludes (formula : Formula) (entries : List Entry) : Prop :=
  ∀ assignment : Assignment, formula.Satisfied assignment →
    ∃ entry ∈ entries, ¬ entry.literal.Holds assignment

namespace Formula.Excludes

variable {formula : Formula} {level : Nat} {base entries : List Entry}

/-- A dead end that only forced literals lead to was one before them. -/
theorem of_growth (excluded : formula.Excludes entries)
    (growth : Growth formula level base entries) : formula.Excludes base := by
  intro assignment satisfied
  obtain ⟨entry, member, fails⟩ := excluded assignment satisfied
  apply Classical.byContradiction
  intro none_
  apply fails
  refine growth.holds satisfied (fun older inBase => ?_) entry member
  apply Classical.byContradiction
  intro broken
  exact none_ ⟨older, inBase, broken⟩

theorem of_refuted {clause : List Literal} (member : clause ∈ formula)
    (denied : ∀ literal ∈ clause, ∃ low, ⟨literal.negate, low⟩ ∈ entries) :
    formula.Excludes entries := by
  intro assignment satisfied
  obtain ⟨literal, inClause, true_⟩ := satisfied clause member
  obtain ⟨low, negated⟩ := denied literal inClause
  refine ⟨_, negated, ?_⟩
  rw [Literal.holds_negate_iff]
  exact fun false_ => false_ true_

/-- Entries that exclude both literals of a variable are a dead end themselves. -/
theorem of_both {literal : Literal} {high low : Nat}
    (first : formula.Excludes (⟨literal, high⟩ :: base))
    (second : formula.Excludes (⟨literal.negate, low⟩ :: base)) : formula.Excludes base := by
  intro assignment satisfied
  obtain ⟨left, leftMember, leftFails⟩ := first assignment satisfied
  obtain ⟨right, rightMember, rightFails⟩ := second assignment satisfied
  rcases List.mem_cons.mp leftMember with rfl | leftOld
  · rcases List.mem_cons.mp rightMember with rfl | rightOld
    · exact absurd ((Literal.holds_negate_iff assignment literal).mpr leftFails) rightFails
    · exact ⟨right, rightOld, rightFails⟩
  · exact ⟨left, leftOld, leftFails⟩

theorem not_satisfiable (excluded : formula.Excludes []) : ¬ formula.Satisfiable := by
  rintro ⟨assignment, satisfied⟩
  obtain ⟨_, member, _⟩ := excluded assignment satisfied
  cases member

end Formula.Excludes

end Dpll
