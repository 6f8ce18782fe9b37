import Dpll.Proofs.Sessions
import Mathlib.Data.List.Basic

/-!
# The levels of a search

The oldest literal of each level is the one that its decision stands for. Read off the trail alone,
these literals tell which decisions are open, which of them were turned, and how far a search is
committed. Main statement: every literal on the trail follows from the clauses and the positive
literals that opened its level and those below it. A turned decision adds nothing to these premises,
since its whole positive subtree was refuted.
-/

set_option autoImplicit false

namespace Dpll

namespace Trail

def opening? (entries : List Entry) (level : Nat) : Option Literal :=
  (entries.reverse.find? (·.level = level)).map (·.literal)

def openings (entries : List Entry) (height : Nat) : List Literal :=
  (List.range' 1 height).filterMap (opening? entries)

variable {entries : List Entry} {entry : Entry} {literal : Literal} {level height : Nat}

private theorem opening?_cons (entry : Entry) (entries : List Entry) (level : Nat) :
    opening? (entry :: entries) level =
      (opening? entries level).or (if entry.level = level then some entry.literal else none) := by
  by_cases same : entry.level = level <;> simp [opening?, List.find?_append, same]

/-- What opened a level is not changed by newer entries. -/
theorem opening?_cons_of_some (opened : opening? entries level = some literal) :
    opening? (entry :: entries) level = some literal := by
  rw [opening?_cons, opened, Option.some_or]

private theorem opening?_cons_of_none (unused : ∀ older ∈ entries, older.level ≠ entry.level) :
    opening? (entry :: entries) entry.level = some entry.literal := by
  have nothing : opening? entries entry.level = none := by
    simpa [opening?] using unused
  rw [opening?_cons, nothing, Option.none_or, if_pos rfl]

private theorem mem_of_opening? (opened : opening? entries level = some literal) :
    ⟨literal, level⟩ ∈ entries := by
  obtain ⟨⟨found, place⟩, here, rfl⟩ := Option.map_eq_some_iff.mp opened
  have atLevel : place = level := by simpa using List.find?_some here
  subst atLevel
  exact List.mem_reverse.mp (List.mem_of_find?_eq_some here)

private theorem mem_openings_iff : literal ∈ openings entries height ↔
    ∃ level, 0 < level ∧ level ≤ height ∧ opening? entries level = some literal := by
  simp only [openings, List.mem_filterMap, List.mem_range'_1]
  constructor
  · rintro ⟨level, ⟨positive, below⟩, opened⟩
    exact ⟨level, positive, by omega, opened⟩
  · rintro ⟨level, positive, below, opened⟩
    exact ⟨level, ⟨positive, by omega⟩, opened⟩

private theorem openings_succ (opened : opening? entries (height + 1) = some literal) :
    openings entries (height + 1) = openings entries height ++ [literal] := by
  rw [openings, List.range'_1_concat, List.filterMap_append, openings]
  simp [Nat.add_comm 1 height, opened]

end Trail

open Trail

theorem Growth.opening? {formula : Formula} {base entries : List Entry} {level other : Nat}
    {literal : Literal} (growth : Growth formula level base entries)
    (opened : opening? base other = some literal) : opening? entries other = some literal := by
  induction growth with
  | base => exact opened
  | force _ _ _ _ _ ih => exact opening?_cons_of_some ih

/-- The literal follows from the formula and the given literals. -/
def Formula.Entails (formula : Formula) (given : List Literal) (literal : Literal) : Prop :=
  ∀ assignment : Assignment, formula.Satisfied assignment →
    (∀ premise ∈ given, premise.Holds assignment) → literal.Holds assignment

namespace Layered

variable {formula : Formula} {decision : Decision} {decisions outer : List Decision}
  {base entries : List Entry} {literal : Literal} {level height : Nat}

/-- A layer leaves the levels below it as they are and is opened by the literal of its decision. -/
theorem opening?_layer (below : Layered formula outer base)
    (opened : decision.level = outer.length + 1)
    (growth : Growth formula decision.level (⟨literal, decision.level⟩ :: base) entries) :
    opening? entries decision.level = some literal ∧
      ∀ level other, opening? base level = some other → opening? entries level = some other := by
  constructor
  · have unused : ∀ older ∈ base, older.level ≠ decision.level := fun older member =>
      Nat.ne_of_lt (below.level_lt opened older member)
    exact growth.opening? (opening?_cons_of_none unused)
  · intro level other older
    exact growth.opening? (opening?_cons_of_some older)

/-! ## Decisions and levels -/

theorem levels_eq (layered : Layered formula decisions entries) :
    decisions.reverse.map (·.level) = List.range' 1 decisions.length := by
  induction layered with
  | root => rfl
  | layer _ opened _ _ ih =>
      simp only [List.reverse_cons, List.map_append, List.map_cons, List.map_nil, ih, opened,
        List.length_cons, List.range'_1_concat, Nat.add_comm 1]

private theorem level_mem (layered : Layered formula decisions entries)
    (member : decision ∈ decisions) :
    0 < decision.level ∧ decision.level ≤ decisions.length := by
  have listed : decision.level ∈ decisions.reverse.map (·.level) :=
    List.mem_map.mpr ⟨decision, List.mem_reverse.mpr member, rfl⟩
  rw [layered.levels_eq, List.mem_range'_1] at listed
  omega

private theorem exists_decision (layered : Layered formula decisions entries) (positive : 0 < level)
    (low : level ≤ decisions.length) : ∃ decision ∈ decisions, decision.level = level := by
  have listed : level ∈ List.range' 1 decisions.length :=
    List.mem_range'_1.mpr ⟨positive, by omega⟩
  rw [← layered.levels_eq] at listed
  obtain ⟨decision, member, same⟩ := List.mem_map.mp listed
  exact ⟨decision, List.mem_reverse.mp member, same⟩

/-- Every open decision can be read off the oldest literal of its level. -/
theorem exists_opening? (layered : Layered formula decisions entries)
    (member : decision ∈ decisions) :
    ∃ literal, opening? entries decision.level = some literal ∧
      literal.var = decision.var ∧ literal.positive = !decision.flipped := by
  induction layered with
  | root => cases member
  | @layer innermost outer base entries literal below opened choice growth ih =>
      obtain ⟨first, kept⟩ := opening?_layer below opened growth
      rcases List.mem_cons.mp member with rfl | older
      · exact ⟨literal, first, choice.var_eq, choice.positive_eq⟩
      · obtain ⟨other, found, rest⟩ := ih older
        exact ⟨other, kept _ _ found, rest⟩

theorem level_used_iff (layered : Layered formula decisions entries) (positive : 0 < level) :
    (∃ entry ∈ entries, entry.level = level) ↔ level ≤ decisions.length := by
  constructor
  · rintro ⟨entry, member, rfl⟩
    exact layered.level_le entry member
  · intro low
    obtain ⟨decision, member, rfl⟩ := layered.exists_decision positive low
    obtain ⟨literal, opened, -⟩ := layered.exists_opening? member
    exact ⟨_, mem_of_opening? opened, rfl⟩

private theorem openings_congr (layered : Layered formula decisions base)
    (kept : ∀ level other, opening? base level = some other → opening? entries level = some other) :
    openings entries decisions.length = openings base decisions.length := by
  refine List.filterMap_congr fun level listed => ?_
  obtain ⟨positive, below⟩ := List.mem_range'_1.mp listed
  obtain ⟨decision, member, rfl⟩ := layered.exists_decision positive (by omega)
  obtain ⟨literal, opened, -⟩ := layered.exists_opening? member
  rw [opened, kept _ _ opened]

/-- The openings of the levels are the literals of the decisions, in their order. -/
theorem openings_eq (layered : Layered formula decisions entries) :
    (openings entries decisions.length).map (fun literal => (literal.var, literal.positive)) =
      decisions.reverse.map fun decision => (decision.var, !decision.flipped) := by
  induction layered with
  | root => rfl
  | @layer decision outer base entries literal below opened choice growth ih =>
      obtain ⟨first, kept⟩ := opening?_layer below opened growth
      rw [opened] at first
      rw [List.length_cons, openings_succ first, below.openings_congr kept, List.map_append, ih,
        List.reverse_cons, List.map_append]
      simp [choice.var_eq, choice.positive_eq]

/-- Below the variable of a decision nothing was left undecided when it was opened. -/
theorem exists_lower (layered : Layered formula decisions entries) (member : decision ∈ decisions)
    {var : Var} (less : var < decision.var) :
    ∃ entry ∈ entries, entry.literal.var = var ∧ entry.level < decision.level := by
  induction layered with
  | root => cases member
  | @layer innermost outer base entries literal below opened choice growth ih =>
      have subset : base ⊆ entries := fun _ older => growth.subset (.tail _ older)
      rcases List.mem_cons.mp member with rfl | older
      · obtain ⟨entry, inBase, same⟩ := choice.lowest var less
        exact ⟨entry, subset inBase, same, below.level_lt opened entry inBase⟩
      · obtain ⟨entry, inBase, rest⟩ := ih older
        exact ⟨entry, subset inBase, rest⟩

/-- Decisions are taken on ever larger variables. -/
theorem var_lt (layered : Layered formula decisions entries) {inner older : Decision}
    (innerMember : inner ∈ decisions) (olderMember : older ∈ decisions)
    (less : older.level < inner.level) : older.var < inner.var := by
  induction layered with
  | root => cases innerMember
  | @layer decision outer base entries literal below opened choice growth ih =>
      have top : ∀ other ∈ outer, other.level < decision.level := by
        intro other member
        rw [opened]
        exact Nat.lt_succ_of_le (below.level_mem member).2
      rcases List.mem_cons.mp innerMember with rfl | innerOuter
      · rcases List.mem_cons.mp olderMember with rfl | olderOuter
        · exact absurd less (Nat.lt_irrefl _)
        · obtain ⟨first, found, same, -⟩ := below.exists_opening? olderOuter
          have apart : older.var ≠ inner.var := same ▸ choice.undecided _ (mem_of_opening? found)
          apply Nat.lt_of_le_of_ne _ apart
          apply Nat.le_of_not_lt
          -- A smaller variable would have been decided before the older decision was opened.
          intro smaller
          obtain ⟨entry, inBase, decided, -⟩ := below.exists_lower olderOuter smaller
          exact choice.undecided entry inBase decided
      · rcases List.mem_cons.mp olderMember with rfl | olderOuter
        · exact absurd less (Nat.lt_asymm (top inner innerOuter))
        · exact ih innerOuter olderOuter

theorem length_le (layered : Layered formula decisions entries) :
    decisions.length ≤ entries.length := by
  have grows : ∀ {level : Nat} {base entries : List Entry}, Growth formula level base entries →
      base.length ≤ entries.length := by
    intro level base entries growth
    induction growth with
    | base => exact Nat.le_refl _
    | force _ _ _ _ _ ih => exact Nat.le_succ_of_le ih
  induction layered with
  | root => exact Nat.zero_le _
  | layer _ _ _ growth ih => exact Nat.le_trans (Nat.succ_le_succ ih) (grows growth)

/-! ## Consequences -/

private theorem refuted_holds {assignment : Assignment}
    (choice : decision.Choice formula base literal)
    (flipped : decision.flipped = true) (satisfied : formula.Satisfied assignment)
    (known : ∀ entry ∈ base, entry.literal.Holds assignment) : literal.Holds assignment := by
  obtain ⟨entry, member, fails⟩ := choice.refuted flipped assignment satisfied
  rcases List.mem_cons.mp member with rfl | older
  · rw [Literal.holds_negate_iff] at fails
    exact Decidable.not_not.mp fails
  · exact absurd (known entry older) fails

/-- An entry follows from the formula and the positive openings up to its level. -/
theorem entails (layered : Layered formula decisions entries) {entry : Entry}
    (member : entry ∈ entries) :
    formula.Entails ((openings entries entry.level).filter (·.positive)) entry.literal := by
  intro assignment satisfied premises
  induction layered generalizing entry with
  | root rooted _ => exact rooted.holds satisfied entry member
  | @layer decision outer base entries literal below opened choice growth ih =>
      obtain ⟨first, kept⟩ := opening?_layer below opened growth
      have premise : ∀ {level other}, 0 < level → level ≤ entry.level →
          opening? entries level = some other → other.positive = true → other.Holds assignment := by
        intro level other positive low found guessed
        exact premises other (List.mem_filter.mpr
          ⟨mem_openings_iff.mpr ⟨level, positive, low, found⟩, guessed⟩)
      have older : ∀ old ∈ base, old.level ≤ entry.level → old.literal.Holds assignment := by
        intro old inBase low
        refine ih inBase fun other listed => ?_
        obtain ⟨listed, guessed⟩ := List.mem_filter.mp listed
        obtain ⟨level, positive, small, found⟩ := mem_openings_iff.mp listed
        exact premise positive (Nat.le_trans small low) (kept _ _ found) guessed
      by_cases inBase : entry ∈ base
      · exact older entry inBase (Nat.le_refl _)
      · have atLevel : entry.level = decision.level := by
          rcases growth.mem_or_level_eq member with early | same
          · exact (List.mem_cons.mp early).elim (congrArg Entry.level) fun old => absurd old inBase
          · exact same
        have known : ∀ old ∈ base, old.literal.Holds assignment := fun old inBase =>
          older old inBase (atLevel ▸ Nat.le_of_lt (below.level_lt opened old inBase))
        have chosen : literal.Holds assignment := by
          cases flipped : decision.flipped with
          | true => exact refuted_holds choice flipped satisfied known
          | false =>
              refine premise (opened ▸ Nat.succ_pos _) (Nat.le_of_eq atLevel.symm) first ?_
              rw [choice.positive_eq, flipped]
              rfl
        refine growth.holds satisfied (fun old early => ?_) entry member
        rcases List.mem_cons.mp early with rfl | inBase
        · exact chosen
        · exact known old inBase

end Layered

namespace Solver

variable {solver : Solver}

/-- After an answer that is not a refutation, every entry of the trail follows from the clauses and
the positive literals that opened its level and those below it. What lies at level zero, or where all
these openings are negative, follows from the clauses alone. -/
theorem solve_trail_entailed (reached : Reachable solver) (clock : Clock) :
    ∃ status final, solver.solve clock = .ok (status, final) ∧ final.formula = solver.formula ∧
      (status ≠ .unsat → ∀ entry ∈ final.trail.entries,
        Formula.Entails final.formula
          ((openings final.trail.entries entry.level).filter (·.positive)) entry.literal ∧
        (entry.level = 0 → Formula.Entails final.formula [] entry.literal) ∧
        ((∀ opening ∈ openings final.trail.entries entry.level, opening.positive = false) →
          Formula.Entails final.formula [] entry.literal)) := by
  obtain ⟨status, final, done, answers⟩ := reached.resting.exists_solve clock
  have formula : final.formula = solver.formula := congrArg Problem.formula answers.problem_eq
  refine ⟨status, final, done, formula, fun found entry member => ?_⟩
  have entailed : Formula.Entails final.formula
      ((openings final.trail.entries entry.level).filter (·.positive)) entry.literal := by
    rw [formula]
    exact (answers.searching found).layered.entails member
  have alone : (∀ opening ∈ openings final.trail.entries entry.level, opening.positive = false) →
      Formula.Entails final.formula [] entry.literal := by
    intro negative
    have none_ : (openings final.trail.entries entry.level).filter (·.positive) = [] :=
      List.filter_eq_nil_iff.mpr fun opening listed => by simp [negative opening listed]
    rwa [none_] at entailed
  refine ⟨entailed, fun bottom => alone fun opening listed => ?_, alone⟩
  rw [bottom] at listed
  cases listed

/-- The first variable cannot be true, which takes two more conflicts under it to find out. Its
negation follows from the clauses alone, although nothing but a turned decision stands for it. -/
theorem solve_trail_entailed_turned :
    ∃ solver final, Reachable solver ∧ solver.solve Clock.stopped = .ok (.sat, final) ∧
      final.trail.entries =
        [⟨⟨6, by decide⟩, 4⟩, ⟨⟨4, by decide⟩, 3⟩, ⟨⟨2, by decide⟩, 2⟩, ⟨⟨1, by decide⟩, 1⟩] ∧
      Formula.Entails final.formula [] ⟨1, by decide⟩ := by
  let commands : List Command :=
    [.addClause #[⟨1, by decide⟩, ⟨2, by decide⟩, ⟨4, by decide⟩],
      .addClause #[⟨1, by decide⟩, ⟨2, by decide⟩, ⟨5, by decide⟩],
      .addClause #[⟨1, by decide⟩, ⟨3, by decide⟩, ⟨4, by decide⟩],
      .addClause #[⟨1, by decide⟩, ⟨3, by decide⟩, ⟨5, by decide⟩],
      .addClause #[⟨6, by decide⟩, ⟨8, by decide⟩]]
  have computed : ((run Clock.stopped {} commands).toOption.bind fun solver =>
      (solver.solve Clock.stopped).toOption.map fun result =>
        (result.1, result.2.trail.entries)) =
      some (.sat,
        [⟨⟨6, by decide⟩, 4⟩, ⟨⟨4, by decide⟩, 3⟩, ⟨⟨2, by decide⟩, 2⟩, ⟨⟨1, by decide⟩, 1⟩]) := by
    decide +kernel
  obtain ⟨solver, reached, shape⟩ := exists_reachable computed
  obtain ⟨status, final, solved, -, entailed⟩ := solve_trail_entailed reached Clock.stopped
  simp only [solved, Except.toOption, Option.map_some, Option.some.injEq, Prod.mk.injEq] at shape
  obtain ⟨rfl, entries⟩ := shape
  refine ⟨solver, final, reached, solved, entries, ?_⟩
  have member : ⟨⟨1, by decide⟩, 1⟩ ∈ final.trail.entries := by simp [entries]
  obtain ⟨-, -, alone⟩ := entailed (by simp) _ member
  exact alone (by rw [entries]; decide)

end Solver

end Dpll
