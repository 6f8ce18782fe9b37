import Dpll.Engine.Fault
import Dpll.Formula.UnitClosure

/-!
# Literals under valuations and assignments

The two literals of a variable have opposite values, making one literal true changes no other
variable, and a valuation is determined by the literals that are true in it. The clauses that are
not settled by a valuation are described by their positions.
-/

set_option autoImplicit false

namespace Dpll

namespace Literal

theorem eq_of_var_of_positive {left right : Literal} (sameVar : left.var = right.var)
    (sameSign : left.positive = right.positive) : left = right := by
  have codes : left.code = right.code := by
    have halves : left.code / 2 = right.code / 2 := sameVar
    have parities : left.code % 2 = 0 ↔ right.code % 2 = 0 := by
      have signs := Bool.eq_iff_iff.mp sameSign
      simpa [positive] using signs
    omega
  cases left
  cases right
  simpa using codes

@[simp] theorem var_negate (literal : Literal) : literal.negate.var = literal.var := by
  by_cases even : literal.code % 2 = 0
  · have half : (literal.code + 1) / 2 = literal.code / 2 := by omega
    simpa [var, negate, even] using half
  · have half : (literal.code - 1) / 2 = literal.code / 2 := by omega
    simpa [var, negate, even] using half

@[simp] theorem positive_negate (literal : Literal) :
    literal.negate.positive = !literal.positive := by
  by_cases even : literal.code % 2 = 0
  · have odd : (literal.code + 1) % 2 = 1 := by omega
    simp [positive, negate, even, odd]
  · have next : (literal.code - 1) % 2 = 0 := by omega
    simp [positive, negate, even, next]

@[simp] theorem negate_negate (literal : Literal) : literal.negate.negate = literal :=
  eq_of_var_of_positive (by simp) (by simp)

private theorem eq_or_eq_negate_of_var {left right : Literal} (same : left.var = right.var) :
    left = right ∨ left = right.negate := by
  by_cases sign : left.positive = right.positive
  · exact .inl (eq_of_var_of_positive same sign)
  · refine .inr (eq_of_var_of_positive (by simpa using same) ?_)
    cases leftSign : left.positive <;> cases rightSign : right.positive <;> simp_all

/-- Every variable that tables can hold has a literal of each sign. -/
theorem exists_ofVar? {var : Nat} (small : var < variableLimit) (positive : Bool) :
    ∃ literal, ofVar? var positive = some literal ∧ literal.var = var ∧
      literal.positive = positive := by
  have fits : codeOf var positive < 18446744073709551616 := by
    have bound : var < 9223372036854775808 := Nat.lt_trans small (by decide)
    cases positive <;> simp only [codeOf, Bool.false_eq_true, ↓reduceIte] <;> omega
  have half : codeOf var positive / 2 = var := by
    cases positive <;> simp only [codeOf, Bool.false_eq_true, ↓reduceIte] <;> omega
  refine ⟨⟨codeOf var positive, fits⟩, by simp [ofVar?, fits], half, ?_⟩
  change (codeOf var positive % 2 == 0) = positive
  cases positive <;> simp only [codeOf, Bool.false_eq_true, ↓reduceIte, beq_eq_false_iff_ne,
    beq_iff_eq] <;> omega

theorem holds_negate_iff (assignment : Assignment) (literal : Literal) :
    literal.negate.Holds assignment ↔ ¬ literal.Holds assignment := by
  simp only [Holds, var_negate, positive_negate]
  cases assignment literal.var <;> cases literal.positive <;> simp

end Literal

@[simp] theorem Truth.complement_complement (truth : Truth) :
    truth.complement.complement = truth := by
  cases truth <;> rfl

namespace Literal

variable {values : Valuation} {literal other : Literal}

@[simp] theorem value_negate (values : Valuation) (literal : Literal) :
    literal.negate.value values = (literal.value values).complement := by
  unfold value
  cases sign : literal.positive <;> simp [sign]

theorem value_eq_fails_iff :
    literal.value values = .fails ↔ literal.negate.value values = .holds := by
  rw [value_negate]
  cases literal.value values <;> simp [Truth.complement]

theorem value_eq_unset_iff :
    literal.value values = .unset ↔ values.value literal.var = .unset := by
  unfold value
  cases literal.positive <;> cases values.value literal.var <;> simp [Truth.complement]

theorem holds_complete (true_ : literal.value values = .holds) (filler : Bool) :
    literal.Holds (values.complete filler) := by
  unfold value at true_
  unfold Holds Valuation.complete
  cases sign : literal.positive <;> cases known : values.value literal.var <;>
    simp_all [Truth.complement]

theorem not_holds_negate (true_ : literal.value values = .holds) :
    literal.negate.value values ≠ .holds := by
  simp [true_, Truth.complement]

end Literal

namespace Valuation

theorem value_eq_getElem? (values : Valuation) (var : Var) :
    values.value var = values[var]?.getD .unset := by
  simp [value, Array.getD_eq_getD_getElem?]

theorem value_eq_getElem {values : Valuation} {var : Nat} (inside : var < values.size) :
    values.value var = values[var] := by
  simp [value_eq_getElem?, inside]

theorem value_of_size_le {values : Valuation} {var : Nat} (beyond : values.size ≤ var) :
    values.value var = .unset := by
  simp [value_eq_getElem?, Array.getElem?_eq_none beyond]

theorem lt_size_of_value_ne {values : Valuation} {var : Nat} (decided : values.value var ≠ .unset) :
    var < values.size := by
  by_cases inside : var < values.size
  · exact inside
  · exact absurd (value_of_size_le (Nat.le_of_not_lt inside)) decided

theorem value_setIfInBounds (values : Valuation) (var other : Nat) (truth : Truth) :
    Valuation.value (values.setIfInBounds var truth) other =
      if other = var ∧ var < values.size then truth else values.value other := by
  simp only [value_eq_getElem?, Array.getElem?_setIfInBounds]
  by_cases same : var = other
  · subst same
    by_cases inside : var < values.size <;> simp [inside]
  · have different : other ≠ var := fun equal => same equal.symm
    simp [same, different]

@[simp] theorem value_replicate_unset (count var : Nat) :
    Valuation.value (Array.replicate count .unset) var = .unset := by
  rw [value_eq_getElem?, Array.getElem?_replicate]
  split <;> rfl

theorem value_append_unset (values : Valuation) (more var : Nat) :
    Valuation.value (values ++ Array.replicate more .unset) var = values.value var := by
  simp only [value_eq_getElem?, Array.getElem?_append]
  split
  · rfl
  · rename_i beyond
    rw [Array.getElem?_eq_none (Nat.le_of_not_lt beyond), Array.getElem?_replicate]
    split <;> rfl

theorem firstUnset?_eq_some_iff {values : Valuation} {var : Nat} :
    values.firstUnset? = some var ↔
      var < values.size ∧ values.value var = .unset ∧ ∀ below < var, values.value below ≠ .unset := by
  simp only [firstUnset?, Array.findIdx?_eq_some_iff_getElem, decide_eq_true_eq]
  constructor
  · rintro ⟨inside, free, decided⟩
    refine ⟨inside, by rw [value_eq_getElem inside]; exact free, ?_⟩
    intro below small
    rw [value_eq_getElem (Nat.lt_trans small inside)]
    exact decided below small
  · rintro ⟨inside, free, decided⟩
    refine ⟨inside, by rw [← value_eq_getElem inside]; exact free, ?_⟩
    intro below small
    rw [← value_eq_getElem (Nat.lt_trans small inside)]
    exact decided below small

theorem value_ne_unset_of_firstUnset?_eq_none {values : Valuation}
    (complete : values.firstUnset? = none) {var : Nat} (inside : var < values.size) :
    values.value var ≠ .unset := by
  simp only [firstUnset?, Array.findIdx?_eq_none_iff, decide_eq_false_iff_not] at complete
  rw [value_eq_getElem inside]
  exact complete _ (Array.getElem_mem inside)

/-- Every literal true under the left valuation is true under the right one. -/
def Within (left right : Valuation) : Prop :=
  ∀ literal : Literal, literal.value left = .holds → literal.value right = .holds

theorem Within.trans {left middle right : Valuation} (first : Within left middle)
    (second : Within middle right) : Within left right :=
  fun literal true_ => second literal (first literal true_)

theorem Within.fails {left right : Valuation} (within : Within left right) {literal : Literal}
    (false_ : literal.value left = .fails) : literal.value right = .fails :=
  Literal.value_eq_fails_iff.mpr (within _ (Literal.value_eq_fails_iff.mp false_))

/-- The true literals determine the table, since each variable that it holds has a literal. -/
theorem Within.antisymm {left right : Valuation} (sameSize : left.size = right.size)
    (small : left.size < variableLimit) (forth : Within left right) (back : Within right left) :
    left = right := by
  refine Array.ext sameSize fun var insideLeft insideRight => ?_
  obtain ⟨literal, -, sameVar, sign⟩ :=
    Literal.exists_ofVar? (Nat.lt_trans insideLeft small) true
  have valueLeft : literal.value left = left[var] := by
    rw [Literal.value, sign, sameVar, ← value_eq_getElem insideLeft]; rfl
  have valueRight : literal.value right = right[var] := by
    rw [Literal.value, sign, sameVar, ← value_eq_getElem insideRight]; rfl
  rw [← valueLeft, ← valueRight]
  cases valueOfLeft : literal.value left with
  | holds => exact (forth literal valueOfLeft).symm
  | fails => exact (forth.fails valueOfLeft).symm
  | unset =>
      cases valueOfRight : literal.value right with
      | holds => rw [back literal valueOfRight] at valueOfLeft; cases valueOfLeft
      | fails => rw [back.fails valueOfRight] at valueOfLeft; cases valueOfLeft
      | unset => rfl

end Valuation

namespace Formula

variable {values : Valuation} {literal other : Literal}

theorem size_setTrue (values : Valuation) (literal : Literal) :
    Array.size (setTrue values literal) = values.size := Array.size_setIfInBounds

theorem value_setTrue_self (covered : literal.var < values.size) :
    literal.value (setTrue values literal) = .holds := by
  cases sign : literal.positive <;>
    simp [Literal.value, setTrue, Valuation.value_setIfInBounds, covered, sign, Truth.ofSign,
      Truth.complement]

private theorem value_setTrue_of_var_ne (different : other.var ≠ literal.var) :
    other.value (setTrue values literal) = other.value values := by
  simp [Literal.value, setTrue, Valuation.value_setIfInBounds, different]

theorem eq_or_holds_of_setTrue (true_ : other.value (setTrue values literal) = .holds) :
    other = literal ∨ other.value values = .holds := by
  by_cases same : other.var = literal.var
  · rcases Literal.eq_or_eq_negate_of_var same with equal | rfl
    · exact .inl equal
    · by_cases covered : literal.var < values.size
      · exact absurd true_ (Literal.not_holds_negate (value_setTrue_self covered))
      · simp only [setTrue, Array.setIfInBounds, covered, ↓reduceDIte] at true_
        exact .inr true_
  · exact .inr (value_setTrue_of_var_ne same ▸ true_)

theorem holds_setTrue_iff (covered : literal.var < values.size)
    (free : literal.value values = .unset) :
    other.value (setTrue values literal) = .holds ↔
      other = literal ∨ other.value values = .holds := by
  refine ⟨eq_or_holds_of_setTrue, ?_⟩
  rintro (rfl | true_)
  · exact value_setTrue_self covered
  · have different : other.var ≠ literal.var := by
      intro same
      have undecided := Literal.value_eq_unset_iff.mp free
      rw [← same] at undecided
      rw [Literal.value_eq_unset_iff.mpr undecided] at true_
      cases true_
    exact (value_setTrue_of_var_ne different).trans true_

end Formula

end Dpll
