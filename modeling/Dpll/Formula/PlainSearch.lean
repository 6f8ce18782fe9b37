import Dpll.Formula.UnitClosure

/-!
# Plain search

The search procedure in its simplest form: follow what clauses leave, stop if all clauses are
satisfied, otherwise try the lowest undecided variable as true and then as false. It starts with the
unit clauses made true. It recomputes everything from the formula and a valuation, and keeps no
watches, no trail and no stack of decisions.
-/

set_option autoImplicit false

namespace Dpll.PlainSearch

/-- The answer of a search with its counters. The model is a valuation that satisfies the formula,
if there is one. -/
structure Result where
  model : Option Valuation
  decisions : Nat
  conflicts : Nat
  maxLevel : Nat
deriving DecidableEq

def allSatisfied (formula : Formula) (values : Valuation) : Bool :=
  formula.all fun clause => clause.any (·.value values = .holds)

def failed (level : Nat) : Result :=
  { model := none, decisions := 0, conflicts := 1, maxLevel := level }

def ended (model : Option Valuation) (level : Nat) : Result :=
  { model, decisions := 0, conflicts := 0, maxLevel := level }

/-- The result of a decision whose positive literal failed and whose negative literal was tried
then. -/
def both (first second : Result) : Result :=
  { model := second.model
    decisions := first.decisions + second.decisions
    conflicts := first.conflicts + second.conflicts
    maxLevel := max first.maxLevel second.maxLevel }

def decided (result : Result) : Result := { result with decisions := result.decisions + 1 }

/-! ## Search ends

Following unit clauses undoes no decision, and each decision leaves one undecided variable less. -/

theorem count_unset_set {values : Valuation} {var : Nat} {truth : Truth}
    (inside : var < values.size) (free : values[var] = .unset) (decided : truth ≠ .unset) :
    (values.setIfInBounds var truth).count .unset + 1 = values.count .unset := by
  have positive : 0 < values.count .unset := by
    rw [Array.count_pos_iff, ← free]
    exact Array.getElem_mem inside
  have differs : (truth == Truth.unset) = false := by simpa using decided
  simp only [Array.setIfInBounds, inside, ↓reduceDIte, Array.count_set, free, differs]
  simp
  omega

private theorem count_unset_setTrue_le (values : Valuation) (literal : Literal) :
    (Formula.setTrue values literal).count .unset ≤ values.count .unset := by
  have decided : Truth.ofSign literal.positive ≠ .unset := by
    cases literal.positive <;> simp [Truth.ofSign]
  have differs : (Truth.ofSign literal.positive == Truth.unset) = false := by simpa using decided
  simp only [Formula.setTrue, Array.setIfInBounds]
  split
  · simp only [Array.count_set, differs]
    simp
  · exact Nat.le_refl _

theorem count_unset_saturate? {formula : Formula} {more : Nat} {values closed : Valuation}
    (closure : Formula.saturate? formula more values = some closed) :
    closed.count .unset ≤ values.count .unset := by
  induction more generalizing values with
  | zero =>
    unfold Formula.saturate? at closure
    split at closure
    · cases closure
    · cases closure; exact Nat.le_refl _
  | succ more ih =>
    unfold Formula.saturate? at closure
    split at closure
    · cases closure
    · split at closure
      · cases closure; exact Nat.le_refl _
      · exact Nat.le_trans (ih closure) (count_unset_setTrue_le ..)

theorem count_unset_decide {values : Valuation} {var : Var} {truth : Truth}
    (choice : values.firstUnset? = some var) (decided : truth ≠ .unset) :
    (values.setIfInBounds var truth).count .unset < values.count .unset := by
  obtain ⟨inside, free, -⟩ := Array.findIdx?_eq_some_iff_getElem.mp choice
  have fewer := count_unset_set inside (by simpa using free) decided
  omega

def searchFrom (formula : Formula) (level : Nat) (values : Valuation) : Result :=
  match _closure : Formula.saturate? formula values.size values with
  | none => failed level
  | some closed =>
    if allSatisfied formula closed then ended (some closed) level
    else match _choice : closed.firstUnset? with
      | none => ended none level
      | some var =>
        let first := searchFrom formula (level + 1) (closed.setIfInBounds var .holds)
        if first.model.isSome then decided first
        else decided
          (both first (searchFrom formula (level + 1) (closed.setIfInBounds var .fails)))
termination_by values.count .unset
decreasing_by
  all_goals
    refine Nat.lt_of_lt_of_le (count_unset_decide _choice ?_) (count_unset_saturate? _closure)
    simp

def units (formula : Formula) : List Literal :=
  formula.filterMap fun
    | [literal] => some literal
    | _ => none

/-- The valuation of the variables below `count` in which only the unit clauses are decided. -/
def start (formula : Formula) (count : Nat) : Valuation :=
  (units formula).foldl Formula.setTrue (Array.replicate count .unset)

def search (formula : Formula) (count : Nat) : Result := searchFrom formula 0 (start formula count)

end Dpll.PlainSearch
