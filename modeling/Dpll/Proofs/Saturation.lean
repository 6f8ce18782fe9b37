import Dpll.Formula.PlainSearch
import Dpll.Proofs.Growth

/-!
# Saturated valuations

A valuation is stable if no clause is false under it and no clause leaves a literal to be made true.
Looking at all clauses again and again reaches the least stable valuation above the given one, and
comes to nothing only if there is none (`Formula.saturate?_spec`). The order in which literals are
made true therefore does not matter, and growth by forced literals arrives at the same table.
-/

set_option autoImplicit false

namespace Dpll

private theorem filter_eq_singleton_iff {α : Type} {keep : α → Bool} {items : List α} {item : α} :
    items.filter keep = [item] ↔
      ∃ position : Nat, items[position]? = some item ∧ keep item = true ∧
        ∀ (place : Nat) (other : α), place ≠ position → items[place]? = some other →
          keep other = false := by
  induction items with
  | nil => simp
  | cons head rest ih =>
      by_cases kept : keep head = true
      · rw [List.filter_cons_of_pos kept]
        constructor
        · intro same
          obtain ⟨rfl, none_⟩ := List.cons.inj same
          refine ⟨0, rfl, kept, ?_⟩
          intro place other elsewhere found
          cases place with
          | zero => exact absurd rfl elsewhere
          | succ place =>
              have member : other ∈ rest := List.mem_of_getElem? (by simpa using found)
              simpa using List.filter_eq_nil_iff.mp none_ other member
        · rintro ⟨position, found, -, others⟩
          cases position with
          | zero =>
              cases found
              refine congrArg (_ :: ·) (List.filter_eq_nil_iff.mpr ?_)
              intro other member
              obtain ⟨place, atPlace⟩ := List.mem_iff_getElem?.mp member
              simpa using others (place + 1) other (by simp) (by simpa using atPlace)
          | succ position =>
              rw [others 0 head (by simp) rfl] at kept
              cases kept
      · rw [List.filter_cons_of_neg kept, ih]
        constructor
        · rintro ⟨position, found, accepted, others⟩
          refine ⟨position + 1, by simpa using found, accepted, ?_⟩
          intro place other elsewhere atPlace
          cases place with
          | zero => cases atPlace; simpa using kept
          | succ place =>
              exact others place other (fun same => elsewhere (congrArg (· + 1) same))
                (by simpa using atPlace)
        · rintro ⟨position, found, accepted, others⟩
          cases position with
          | zero => cases found; exact absurd accepted kept
          | succ position =>
              refine ⟨position, by simpa using found, accepted, ?_⟩
              intro place other elsewhere atPlace
              exact others (place + 1) other (by simpa using elsewhere) (by simpa using atPlace)

namespace Formula

variable {formula : Formula} {values closed : Valuation} {clause : List Literal} {literal : Literal}

theorem refuted_iff : refuted values clause = true ↔
    ∀ literal ∈ clause, literal.value values = .fails := by
  simp [refuted]

def FalseBut (values : Valuation) (clause : List Literal) (position : Nat) : Prop :=
  ∀ (place : Nat) (other : Literal), place ≠ position → clause[place]? = some other →
    other.value values = .fails

theorem FalseBut.within {above : Valuation} {position : Nat}
    (falseBut : FalseBut values clause position) (within : values.Within above) :
    FalseBut above clause position :=
  fun place other elsewhere atPlace => within.fails (falseBut place other elsewhere atPlace)

theorem unitLiteral?_eq_some_iff : unitLiteral? values clause = some literal ↔
    literal.value values = .unset ∧
      ∃ position : Nat, clause[position]? = some literal ∧ FalseBut values clause position := by
  have single : clause.filter (·.value values ≠ .fails) = [literal] ↔
      ∃ position : Nat, clause[position]? = some literal ∧ literal.value values ≠ .fails ∧
        FalseBut values clause position := by
    simpa [FalseBut] using @filter_eq_singleton_iff Literal (·.value values ≠ .fails) clause literal
  unfold unitLiteral?
  constructor
  · intro found
    split at found
    · rename_i only filtered
      split at found
      · cases found
        obtain ⟨position, here, -, others⟩ := single.mp filtered
        exact ⟨‹_›, position, here, others⟩
      · cases found
    · cases found
  · rintro ⟨free, position, here, others⟩
    rw [single.mpr ⟨position, here, by simp [free], others⟩]
    simp [free]

/-- No clause is false, and none leaves a literal to be made true. -/
def Stable (formula : Formula) (values : Valuation) : Prop :=
  ∀ clause ∈ formula, refuted values clause = false ∧ unitLiteral? values clause = none

theorem Stable.holds (stable : formula.Stable values) (member : clause ∈ formula) {position : Nat}
    (here : clause[position]? = some literal) (others : FalseBut values clause position) :
    literal.value values = .holds := by
  obtain ⟨notRefuted, noUnit⟩ := stable clause member
  cases value : literal.value values with
  | holds => rfl
  | fails =>
      have refuted_ : refuted values clause = true := by
        refine refuted_iff.mpr fun other inClause => ?_
        obtain ⟨place, atPlace⟩ := List.mem_iff_getElem?.mp inClause
        by_cases same : place = position
        · rw [same, here] at atPlace
          cases atPlace
          exact value
        · exact others place other same atPlace
      rw [notRefuted] at refuted_
      cases refuted_
  | unset =>
      rw [unitLiteral?_eq_some_iff.mpr ⟨value, position, here, others⟩] at noUnit
      cases noUnit

theorem Stable.unit_holds (stable : formula.Stable values) (member : [literal] ∈ formula) :
    literal.value values = .holds := by
  refine stable.holds member (rfl : [literal][0]? = some literal) fun place other apart atPlace => ?_
  have outside : [literal].length ≤ place := Nat.pos_of_ne_zero apart
  rw [List.getElem?_eq_none outside] at atPlace
  cases atPlace

theorem Stable.saturate? (stable : formula.Stable values) (more : Nat) :
    formula.saturate? more values = some values := by
  have unrefuted : formula.any (refuted values) = false :=
    List.any_eq_false.mpr fun clause member => by simp [(stable clause member).1]
  have noUnit : formula.findSome? (unitLiteral? values) = none :=
    List.findSome?_eq_none_iff.mpr fun clause member => (stable clause member).2
  cases more <;> simp [Formula.saturate?, unrefuted, noUnit]

private theorem not_stable_of_refuted {above : Valuation} (within : values.Within above)
    (found : formula.any (refuted values) = true) : ¬ formula.Stable above := by
  intro stable
  obtain ⟨clause, member, refuted_⟩ := List.any_eq_true.mp found
  have still : refuted above clause = true :=
    refuted_iff.mpr fun literal inClause => within.fails (refuted_iff.mp refuted_ literal inClause)
  rw [(stable clause member).1] at still
  cases still

/-- A literal that a clause leaves is true under every stable valuation above. -/
theorem Stable.setTrue_within {above : Valuation} (stable : formula.Stable above)
    (within : values.Within above)
    (found : formula.findSome? (unitLiteral? values) = some literal) :
    (setTrue values literal).Within above := by
  obtain ⟨clause, member, left⟩ := List.exists_of_findSome?_eq_some found
  obtain ⟨-, position, here, others⟩ := unitLiteral?_eq_some_iff.mp left
  intro other true_
  rcases eq_or_holds_of_setTrue true_ with rfl | before
  · exact stable.holds member here (others.within within)
  · exact within other before

def Fits (formula : Formula) (count : Nat) : Prop :=
  ∀ clause ∈ formula, ∀ literal ∈ clause, literal.var < count

theorem Fits.left (fits : formula.Fits values.size)
    (found : formula.findSome? (unitLiteral? values) = some literal) :
    literal.value values = .unset ∧ literal.var < values.size := by
  obtain ⟨clause, member, left⟩ := List.exists_of_findSome?_eq_some found
  obtain ⟨free, position, here, -⟩ := unitLiteral?_eq_some_iff.mp left
  exact ⟨free, fits clause member literal (List.mem_of_getElem? here)⟩

theorem count_unset_setTrue (inside : literal.var < values.size)
    (free : literal.value values = .unset) :
    (setTrue values literal).count .unset + 1 = values.count .unset := by
  refine PlainSearch.count_unset_set inside ?_ ?_
  · rw [← Valuation.value_eq_getElem inside]
    exact Literal.value_eq_unset_iff.mp free
  · cases literal.positive <;> simp [Truth.ofSign]

/-- Saturation finds the least stable valuation above the given one, if there is any. -/
theorem saturate?_spec {more : Nat} (fits : formula.Fits values.size)
    (enough : values.count .unset ≤ more) :
    match formula.saturate? more values with
    | none => ∀ above : Valuation, values.Within above → ¬ formula.Stable above
    | some closed => formula.Stable closed ∧ values.Within closed ∧ closed.size = values.size ∧
        ∀ above : Valuation, values.Within above → formula.Stable above → closed.Within above := by
  induction more generalizing values with
  | zero =>
      cases found : formula.any (refuted values) with
      | true =>
          simp only [Formula.saturate?, found, ↓reduceIte]
          exact fun above within => not_stable_of_refuted within found
      | false =>
          have stable : formula.Stable values := by
            intro clause member
            refine ⟨by simpa using List.any_eq_false.mp found clause member, ?_⟩
            cases left : unitLiteral? values clause with
            | none => rfl
            | some literal =>
                obtain ⟨free, position, here, -⟩ := unitLiteral?_eq_some_iff.mp left
                have inside := fits clause member literal (List.mem_of_getElem? here)
                have fewer := count_unset_setTrue inside free
                omega
          rw [stable.saturate? 0]
          exact ⟨stable, fun _ true_ => true_, rfl, fun _ within _ => within⟩
  | succ more ih =>
      cases found : formula.any (refuted values) with
      | true =>
          simp only [Formula.saturate?, found, ↓reduceIte]
          exact fun above within => not_stable_of_refuted within found
      | false =>
          cases left : formula.findSome? (unitLiteral? values) with
          | none =>
              simp only [Formula.saturate?, found, left]
              have stable : formula.Stable values := fun clause member =>
                ⟨by simpa using List.any_eq_false.mp found clause member,
                  List.findSome?_eq_none_iff.mp left clause member⟩
              exact ⟨stable, fun _ true_ => true_, rfl, fun _ within _ => within⟩
          | some literal =>
              obtain ⟨free, inside⟩ := fits.left left
              have fewer := count_unset_setTrue inside free
              have larger : values.Within (setTrue values literal) :=
                fun other true_ => (holds_setTrue_iff inside free).mpr (.inr true_)
              have next := @ih (setTrue values literal) (by rw [size_setTrue]; exact fits)
                (by omega)
              simp only [Formula.saturate?, found, left]
              cases result : formula.saturate? more (setTrue values literal) with
              | none =>
                  simp only [result] at next
                  exact fun above within stable =>
                    next above (stable.setTrue_within within left) stable
              | some closed =>
                  simp only [result] at next
                  obtain ⟨stable, within, size, least⟩ := next
                  refine ⟨stable, larger.trans within, size.trans (size_setTrue ..), ?_⟩
                  exact fun above below stable =>
                    least above (stable.setTrue_within below left) stable

theorem stable_of_saturate? (fits : formula.Fits values.size) {closed : Valuation}
    (closure : formula.saturate? values.size values = some closed) :
    formula.Stable closed ∧ values.Within closed ∧ closed.size = values.size ∧
      ∀ above, values.Within above → formula.Stable above → closed.Within above := by
  have spec := saturate?_spec fits (Array.count_le_size : values.count .unset ≤ values.size)
  simpa only [closure] using spec

theorem not_stable_of_saturate? (fits : formula.Fits values.size)
    (conflict : formula.saturate? values.size values = none) {above : Valuation}
    (within : values.Within above) : ¬ formula.Stable above := by
  have spec := saturate?_spec fits (Array.count_le_size : values.count .unset ≤ values.size)
  simp only [conflict] at spec
  exact spec above within

end Formula

/-- Forced literals are true under every stable valuation that makes the old entries true. -/
theorem Growth.holds_of_stable {formula : Formula} {level : Nat} {base entries : List Entry}
    (growth : Growth formula level base entries) {values : Valuation}
    (stable : formula.Stable values)
    (known : ∀ entry ∈ base, entry.literal.value values = .holds) :
    ∀ entry ∈ entries, entry.literal.value values = .holds := by
  induction growth with
  | base => exact known
  | @force entries clause position literal _ member _ here others ih =>
      intro entry inEntries
      rcases List.mem_cons.mp inEntries with rfl | older
      · refine stable.holds member here fun place other elsewhere atPlace => ?_
        obtain ⟨low, negated⟩ := others place other elsewhere atPlace
        exact Literal.value_eq_fails_iff.mpr (ih _ negated)
      · exact ih entry older

end Dpll
