import Dpll.Engine.Solver
import Dpll.Proofs.Saturation
import Dpll.Proofs.Trail

/-!
# Laws of plain search

The plain search on a stable valuation is an equation without saturation, and its counters are
bounded by the variables left. Results add up: `both` is associative, so that the work done so far and
the work still open can be weighed against the whole. `resume` is that open work for a stack of
decisions. It takes the result of the current branch and goes through the branches that wait outside
it.
-/

set_option autoImplicit false

namespace Dpll.PlainSearch

variable {formula : Formula} {level : Nat} {values closed : Valuation} {var : Var}

/-! ## Equations of the search -/

def fallback (first second : Result) : Result :=
  if first.model.isSome then first else both first second

theorem searchFrom_of_conflict
    (conflict : Formula.saturate? formula values.size values = none) :
    searchFrom formula level values = failed level := by
  rw [searchFrom]
  split
  · rfl
  · next closed closure =>
    rw [conflict] at closure
    cases closure

theorem searchFrom_eq (closure : Formula.saturate? formula values.size values = some closed) :
    searchFrom formula level values =
      if allSatisfied formula closed then ended (some closed) level
      else match closed.firstUnset? with
        | none => ended none level
        | some var => decided (fallback
            (searchFrom formula (level + 1) (closed.setIfInBounds var .holds))
            (searchFrom formula (level + 1) (closed.setIfInBounds var .fails))) := by
  rw [searchFrom]
  split
  · next conflict =>
    rw [closure] at conflict
    cases conflict
  · next other same =>
    rw [closure] at same
    cases same
    split
    · rfl
    · split <;> split
      · rfl
      · simp_all
      · simp_all
      · next first _ second choice =>
        simp only [fallback]
        grind

theorem searchFrom_of_closure (fits : formula.Fits values.size)
    (closure : Formula.saturate? formula values.size values = some closed) :
    searchFrom formula level values = searchFrom formula level closed := by
  have stable := (Formula.stable_of_saturate? fits closure).1
  rw [searchFrom_eq closure, searchFrom_eq (stable.saturate? closed.size)]

theorem searchFrom_of_satisfied (stable : formula.Stable values)
    (satisfied : allSatisfied formula values = true) :
    searchFrom formula level values = ended (some values) level := by
  rw [searchFrom_eq (stable.saturate? values.size), if_pos satisfied]

theorem searchFrom_of_choice (stable : formula.Stable values)
    (unsatisfied : allSatisfied formula values = false) (choice : values.firstUnset? = some var) :
    searchFrom formula level values = decided (fallback
      (searchFrom formula (level + 1) (values.setIfInBounds var .holds))
      (searchFrom formula (level + 1) (values.setIfInBounds var .fails))) := by
  rw [searchFrom_eq (stable.saturate? values.size)]
  simp only [unsatisfied, choice, Bool.false_eq_true, ↓reduceIte]

/-- A stable valuation that leaves nothing undecided satisfies the formula. -/
theorem exists_firstUnset? (fits : formula.Fits values.size) (stable : formula.Stable values)
    (unsatisfied : allSatisfied formula values = false) :
    ∃ var, values.firstUnset? = some var := by
  cases choice : values.firstUnset? with
  | some var => exact ⟨var, rfl⟩
  | none =>
      have complete : allSatisfied formula values = true := by
        simp only [allSatisfied, List.all_eq_true, List.any_eq_true, decide_eq_true_eq]
        intro clause member
        apply Classical.byContradiction
        intro noneTrue
        have refuted : Formula.refuted values clause = true := by
          refine Formula.refuted_iff.mpr fun literal inClause => ?_
          cases value : literal.value values with
          | fails => rfl
          | holds => exact absurd ⟨literal, inClause, value⟩ noneTrue
          | unset =>
              exact absurd (Literal.value_eq_unset_iff.mp value)
                (Valuation.value_ne_unset_of_firstUnset?_eq_none choice
                  (fits clause member literal inClause))
        rw [(stable clause member).1] at refuted
        cases refuted
      rw [complete] at unsatisfied
      cases unsatisfied

/-! ## The start of the search -/

theorem mem_units_iff {literal : Literal} : literal ∈ units formula ↔ [literal] ∈ formula := by
  simp only [units, List.mem_filterMap]
  constructor
  · rintro ⟨clause, member, only⟩
    split at only
    · cases only
      exact member
    · cases only
  · exact fun member => ⟨_, member, rfl⟩

private theorem mem_or_holds_of_foldl_setTrue {literals : List Literal} {literal : Literal}
    (true_ : literal.value (literals.foldl Formula.setTrue values) = .holds) :
    literal ∈ literals ∨ literal.value values = .holds := by
  induction literals generalizing values with
  | nil => exact .inr true_
  | cons head rest ih =>
      rcases ih true_ with later | earlier
      · exact .inl (.tail _ later)
      · rcases Formula.eq_or_holds_of_setTrue earlier with rfl | before
        · exact .inl (.head _)
        · exact .inr before

theorem size_start (formula : Formula) (count : Nat) : (start formula count).size = count := by
  have kept : ∀ (literals : List Literal) (values : Valuation),
      (literals.foldl Formula.setTrue values).size = values.size := by
    intro literals
    induction literals with
    | nil => exact fun _ => rfl
    | cons head rest ih => exact fun values => (ih _).trans (Formula.size_setTrue ..)
  simp [start, kept]

private theorem start_within {count : Nat} (stable : formula.Stable values) :
    (start formula count).Within values := by
  intro literal true_
  rcases mem_or_holds_of_foldl_setTrue true_ with unit | impossible
  · exact stable.unit_holds (mem_units_iff.mp unit)
  · have unset := Literal.value_eq_unset_iff.mpr (Valuation.value_replicate_unset count literal.var)
    rw [unset] at impossible
    cases impossible

theorem search_of_conflict {count : Nat} (fits : formula.Fits count)
    (conflict : ∀ values, ¬ formula.Stable values) : search formula count = failed 0 := by
  have fitsStart : formula.Fits (start formula count).size := by rwa [size_start]
  refine searchFrom_of_conflict ?_
  cases closure : formula.saturate? (start formula count).size (start formula count) with
  | none => rfl
  | some closed => exact absurd (Formula.stable_of_saturate? fitsStart closure).1 (conflict closed)

/-- The search may start from the least stable valuation. -/
theorem search_eq_searchFrom {count : Nat} (fits : formula.Fits count)
    (small : count < variableLimit) (stable : formula.Stable values) (size : values.size = count)
    (least : ∀ above, formula.Stable above → values.Within above) :
    search formula count = searchFrom formula 0 values := by
  have fitsStart : formula.Fits (start formula count).size := by rwa [size_start]
  cases closure : formula.saturate? (start formula count).size (start formula count) with
  | none =>
      exact absurd stable
        (Formula.not_stable_of_saturate? fitsStart closure (start_within stable))
  | some closed =>
      obtain ⟨closedStable, -, closedSize, below⟩ := Formula.stable_of_saturate? fitsStart closure
      rw [size_start] at closedSize
      have equal : closed = values := Valuation.Within.antisymm (closedSize.trans size.symm)
        (closedSize ▸ small) (below values (start_within stable) stable) (least closed closedStable)
      rw [search, searchFrom_of_closure fitsStart closure, equal]

/-! ## Adding up results -/

def dead : Result := { model := none, decisions := 0, conflicts := 0, maxLevel := 0 }

theorem both_assoc (first second third : Result) :
    both (both first second) third = both first (both second third) := by
  simp only [both, Result.mk.injEq, true_and]
  omega

theorem both_dead (result : Result) : both dead result = result := by
  simp [both, dead]

theorem failed_eq (level : Nat) :
    failed level = both { model := none, decisions := 0, conflicts := 1, maxLevel := level } dead := by
  simp [both, dead, failed]

/-- A decision may be counted ahead of its result, together with the level that it opens. -/
theorem decided_eq {result : Result} (deep : level ≤ result.maxLevel) : decided result =
    both { model := none, decisions := 1, conflicts := 0, maxLevel := level } result := by
  simp only [decided, both, Nat.zero_add, Nat.max_eq_right deep, Nat.add_comm 1]

theorem le_maxLevel_fallback {first : Result} (deep : level ≤ first.maxLevel) (second : Result) :
    level ≤ (fallback first second).maxLevel := by
  unfold fallback
  split
  · exact deep
  · exact Nat.le_trans deep (Nat.le_max_left ..)

private theorem decisions_fallback_le (first second : Result) :
    (fallback first second).decisions ≤ first.decisions + second.decisions := by
  unfold fallback
  split
  · exact Nat.le_add_right ..
  · exact Nat.le_refl _

theorem level_le_maxLevel (formula : Formula) (level : Nat) (values : Valuation) :
    level ≤ (searchFrom formula level values).maxLevel := by
  induction left : values.count .unset using Nat.strongRecOn generalizing level values with
  | ind bound ih =>
      cases closure : Formula.saturate? formula values.size values with
      | none => rw [searchFrom_of_conflict closure]; exact Nat.le_refl level
      | some closed =>
          rw [searchFrom_eq closure]
          split
          · exact Nat.le_refl level
          · split
            · exact Nat.le_refl level
            · next var choice =>
              have fewer : (closed.setIfInBounds var .holds).count .unset < bound :=
                left ▸ Nat.lt_of_lt_of_le (count_unset_decide choice (by simp))
                  (count_unset_saturate? closure)
              exact le_maxLevel_fallback
                (Nat.le_trans (Nat.le_succ level) (ih _ fewer (level + 1) _ rfl)) _

private theorem maxLevel_fallback_le {first second : Result} {bound : Nat}
    (left : first.maxLevel ≤ bound)
    (right : second.maxLevel ≤ bound) : (fallback first second).maxLevel ≤ bound := by
  unfold fallback
  split
  · exact left
  · exact Nat.max_le.mpr ⟨left, right⟩

/-- Each level takes a variable that was undecided. -/
theorem maxLevel_le (formula : Formula) (level : Nat) (values : Valuation) :
    (searchFrom formula level values).maxLevel ≤ level + values.count .unset := by
  induction left : values.count .unset using Nat.strongRecOn generalizing level values with
  | ind bound ih =>
      cases closure : Formula.saturate? formula values.size values with
      | none => rw [searchFrom_of_conflict closure]; exact Nat.le_add_right ..
      | some closed =>
          rw [searchFrom_eq closure]
          split
          · exact Nat.le_add_right ..
          · split
            · exact Nat.le_add_right ..
            · next var choice =>
              have deeper : ∀ truth ≠ Truth.unset,
                  (searchFrom formula (level + 1) (closed.setIfInBounds var truth)).maxLevel ≤
                    level + bound := by
                intro truth decided
                have fewer : (closed.setIfInBounds var truth).count .unset < bound :=
                  left ▸ Nat.lt_of_lt_of_le (count_unset_decide choice decided)
                    (count_unset_saturate? closure)
                have below := ih _ fewer (level + 1) _ rfl
                omega
              exact maxLevel_fallback_le (deeper .holds (by simp)) (deeper .fails (by simp))

theorem decisions_lt (formula : Formula) (level : Nat) (values : Valuation) :
    (searchFrom formula level values).decisions < Nat.pow 2 (values.count .unset) := by
  induction left : values.count .unset using Nat.strongRecOn generalizing level values with
  | ind bound ih =>
      have positive : 0 < Nat.pow 2 bound := Nat.pow_pos (by decide)
      cases closure : Formula.saturate? formula values.size values with
      | none => rw [searchFrom_of_conflict closure]; exact positive
      | some closed =>
          rw [searchFrom_eq closure]
          split
          · exact positive
          · split
            · exact positive
            · next var choice =>
              have fewer : ∀ truth ≠ Truth.unset,
                  (closed.setIfInBounds var truth).count .unset + 1 ≤ bound :=
                fun truth decided => left ▸ Nat.le_trans (count_unset_decide choice decided)
                  (count_unset_saturate? closure)
              have half : ∀ truth ≠ Truth.unset,
                  (searchFrom formula (level + 1) (closed.setIfInBounds var truth)).decisions <
                    Nat.pow 2 (bound - 1) := by
                intro truth decided
                have room := fewer truth decided
                exact Nat.lt_of_lt_of_le (ih _ (by omega) (level + 1) _ rfl)
                  (Nat.pow_le_pow_right (by decide) (by omega))
              have whole : Nat.pow 2 (bound - 1) + Nat.pow 2 (bound - 1) = Nat.pow 2 bound := by
                have room := fewer .holds (by simp)
                obtain ⟨less, rfl⟩ : ∃ less, bound = less + 1 := ⟨bound - 1, by omega⟩
                change Nat.pow 2 less + Nat.pow 2 less = Nat.pow 2 less * 2
                omega
              have sum := decisions_fallback_le
                (searchFrom formula (level + 1) (closed.setIfInBounds var .holds))
                (searchFrom formula (level + 1) (closed.setIfInBounds var .fails))
              have first := half .holds (by simp)
              have second := half .fails (by simp)
              simp only [decided]
              omega

/-! ## Open branches -/

/-- The result of the whole search when the innermost of the given decisions has come to a result
in its current branch. A decision that was not turned yet still has its negative literal to try. -/
def resume (formula : Formula) (count : Nat) : List Decision → List Entry → Result → Result
  | [], _, result => result
  | decision :: outer, entries, result =>
    let base := entries.filter (·.level < decision.level)
    resume formula count outer base
      (if decision.flipped then result
      else fallback result (searchFrom formula decision.level
        ((Valuation.ofEntries count base).setIfInBounds decision.var .fails)))

variable {count : Nat} {decisions : List Decision} {entries : List Entry}

private theorem fallback_both (spent first second : Result) :
    fallback (both spent first) second = both spent (fallback first second) := by
  have same : (both spent first).model = first.model := rfl
  unfold fallback
  rw [same]
  split
  · rfl
  · exact both_assoc ..

/-- What was spent in a branch was spent in the whole search. -/
theorem resume_both (spent result : Result) :
    resume formula count decisions entries (both spent result) =
      both spent (resume formula count decisions entries result) := by
  induction decisions generalizing entries result with
  | nil => rfl
  | cons decision outer ih =>
      simp only [resume]
      split
      · exact ih result
      · rw [fallback_both]
        exact ih _

theorem resume_of_isSome {result : Result} (found : result.model.isSome = true) :
    resume formula count decisions entries result = result := by
  induction decisions generalizing entries with
  | nil => rfl
  | cons decision outer ih =>
      simp only [resume, fallback, found, ↓reduceIte, ite_self]
      exact ih

end Dpll.PlainSearch
