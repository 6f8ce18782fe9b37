import Mathlib.Data.List.Perm.Basic
import Dpll.Proofs.Layers

/-!
# The order of clauses and literals

Formulas are similar if one arises from the other by reordering the clauses and the literals inside
them. Nothing that a search asks of a formula depends on the order: similar formulas are satisfied by
the same valuations and stable under the same valuations.
-/

set_option autoImplicit false

namespace Dpll.Formula

variable {left right : Formula} {values : Valuation} {clause other : List Literal}

/-- The clauses of one formula are those of the other, each with as many copies of every literal, but
both the clauses and their literals may come in another order. -/
def Similar (left right : Formula) : Prop :=
  ∃ middle, left.Perm middle ∧ List.Forall₂ List.Perm middle right

namespace Similar

theorem refl (formula : Formula) : formula.Similar formula :=
  ⟨formula, .refl _, List.forall₂_same.mpr fun _ _ => .refl _⟩

theorem symm (similar : left.Similar right) : right.Similar left := by
  obtain ⟨middle, reordered, shuffled⟩ := similar
  obtain ⟨other, shuffled, reordered⟩ := List.perm_comp_forall₂ reordered shuffled
  exact ⟨other, reordered.symm, shuffled.flip.imp fun _ _ same => same.symm⟩

private theorem exists_perm (similar : left.Similar right) (member : clause ∈ left) :
    ∃ other ∈ right, clause.Perm other := by
  obtain ⟨middle, reordered, shuffled⟩ := similar
  have inMiddle := reordered.mem_iff.mp member
  clear reordered
  induction shuffled with
  | nil => cases inMiddle
  | cons same _ ih =>
      rcases List.mem_cons.mp inMiddle with rfl | later
      · exact ⟨_, .head _, same⟩
      · obtain ⟨other, inRest, perm⟩ := ih later
        exact ⟨other, .tail _ inRest, perm⟩

end Similar

private theorem refuted_eq_of_perm (perm : clause.Perm other) :
    refuted values clause = refuted values other :=
  perm.all_eq

private theorem unitLiteral?_eq_of_perm (perm : clause.Perm other) :
    unitLiteral? values clause = unitLiteral? values other := by
  have open_ := perm.filter (·.value values ≠ .fails)
  unfold unitLiteral?
  generalize clause.filter (·.value values ≠ .fails) = first at open_ ⊢
  generalize other.filter (·.value values ≠ .fails) = second at open_ ⊢
  match first, second, open_.length_eq with
  | [], [], _ => rfl
  | [only], [same], _ =>
      obtain rfl := List.singleton_inj.mp (List.perm_singleton.mp open_)
      rfl
  | _ :: _ :: _, _ :: _ :: _, _ => rfl

theorem Stable.of_similar (stable : left.Stable values) (similar : left.Similar right) :
    right.Stable values := by
  intro clause member
  obtain ⟨other, inLeft, perm⟩ := similar.symm.exists_perm member
  obtain ⟨notRefuted, noUnit⟩ := stable other inLeft
  exact ⟨(refuted_eq_of_perm perm).trans notRefuted, (unitLiteral?_eq_of_perm perm).trans noUnit⟩

theorem Similar.allSatisfied (similar : left.Similar right)
    (satisfied : PlainSearch.allSatisfied left values = true) :
    PlainSearch.allSatisfied right values = true := by
  refine List.all_eq_true.mpr fun clause member => ?_
  obtain ⟨other, inLeft, perm⟩ := similar.symm.exists_perm member
  rw [perm.any_eq]
  exact List.all_eq_true.mp satisfied other inLeft

theorem Similar.allSatisfied_eq (similar : left.Similar right) (values : Valuation) :
    PlainSearch.allSatisfied left values = PlainSearch.allSatisfied right values :=
  Bool.eq_iff_iff.mpr ⟨similar.allSatisfied, similar.symm.allSatisfied⟩

end Dpll.Formula
