import Dpll.Console.Run
import Dpll.Proofs.Answers
import Dpll.Proofs.Reading
import Mathlib.Data.List.TakeWhile

/-!
# The printed answer

From the bytes of a file to the last line that a run prints. A document is read into a solver whose
clauses are those of the document, up to the first empty one; the search decides these, and the line
that is printed lists one number per variable. Main statement: the line is the truth about the document.
-/

set_option autoImplicit false

namespace Dpll

/-! ## Documents as formulas -/

namespace Dimacs

def formulaOf (clauses : List (List Int)) : Formula :=
  clauses.map fun clause => (literalsOf clause).toList

def Within (count : Nat) (clauses : List (List Int)) : Prop :=
  ∀ clause ∈ clauses, ∀ number ∈ clause, number ≠ 0 ∧ number.natAbs ≤ count

variable {count : Nat} {clauses : List (List Int)} {clause : List Int} {literal : Literal}

private theorem Within.exists_literal (within : Within count clauses) (small : count < variableLimit)
    (member : clause ∈ clauses) {number : Int} (inClause : number ∈ clause) :
    ∃ literal, Literal.ofDimacs? number = some literal ∧ literal.var + 1 = number.natAbs ∧
      literal.positive = decide (0 < number) := by
  obtain ⟨nonzero, inside⟩ := within clause member number inClause
  refine Literal.exists_ofDimacs? nonzero (Nat.le_trans inside (Nat.le_of_lt ?_))
  exact Nat.lt_trans small (by decide)

private theorem mem_literalsOf : literal ∈ literalsOf clause ↔
    ∃ number ∈ clause, Literal.ofDimacs? number = some literal := by
  simp [literalsOf]

theorem Within.var_lt (within : Within count clauses) (small : count < variableLimit)
    (member : clause ∈ clauses) (inClause : literal ∈ literalsOf clause) : literal.var < count := by
  obtain ⟨number, given, made⟩ := mem_literalsOf.mp inClause
  obtain ⟨other, alsoMade, var_eq, -⟩ := within.exists_literal small member given
  cases made.symm.trans alsoMade
  exact Nat.lt_of_lt_of_le (Nat.lt_succ_self _)
    (Nat.le_trans (Nat.le_of_eq var_eq) (within clause member number given).2)

private theorem Within.literalsOf_size_pos (within : Within count clauses)
    (small : count < variableLimit)
    (member : clause ∈ clauses) (nonempty : clause ≠ []) : 0 < (literalsOf clause).size := by
  obtain ⟨number, rest, rfl⟩ := List.exists_cons_of_ne_nil nonempty
  obtain ⟨literal, made, -⟩ := within.exists_literal small member (.head rest)
  exact Array.size_pos_of_mem (mem_literalsOf.mpr ⟨number, .head _, made⟩)

/-- Numbers say of the variables counted from one what literals say of those counted from zero. -/
theorem satisfied_formulaOf_iff (within : Within count clauses) (small : count < variableLimit)
    (assignment : Nat → Bool) :
    Formula.Satisfied (fun var => assignment (var + 1)) (formulaOf clauses) ↔
      ∀ clause ∈ clauses, ∃ number ∈ clause,
        assignment number.natAbs = decide (0 < number) := by
  simp only [Formula.Satisfied, formulaOf, List.forall_mem_map]
  refine forall₂_congr fun clause member => ⟨?_, ?_⟩
  · rintro ⟨literal, inClause, holds⟩
    obtain ⟨number, given, made⟩ := mem_literalsOf.mp (Array.mem_toList_iff.mp inClause)
    obtain ⟨other, alsoMade, var_eq, positive⟩ := within.exists_literal small member given
    cases made.symm.trans alsoMade
    refine ⟨number, given, ?_⟩
    rw [← var_eq, ← positive]
    exact holds
  · rintro ⟨number, given, holds⟩
    obtain ⟨literal, made, var_eq, positive⟩ := within.exists_literal small member given
    refine ⟨literal, Array.mem_toList_iff.mpr (mem_literalsOf.mpr ⟨number, given, made⟩), ?_⟩
    change assignment (literal.var + 1) = literal.positive
    rw [var_eq, positive]
    exact holds

/-! ## Reading into a solver -/

structure Loaded (before : Solver) (clauses : List (List Int)) (after : Solver) : Prop where
  resting : after.Resting
  options : after.options = before.options
  variableCount : after.statistics.variableCount = before.statistics.variableCount
  formula : after.formula = before.formula ++ formulaOf (clauses.takeWhile (· ≠ []))
  hasEmptyClause : after.hasEmptyClause = (before.hasEmptyClause || clauses.contains [])

private theorem exists_hand {solver : Solver} (resting : solver.Resting)
    (within : Within solver.statistics.variableCount clauses) (member : clause ∈ clauses)
    (nonempty : clause ≠ []) :
    ∃ next, solverReceiver.hand (true, .ok solver) (literalsOf clause) = (true, .ok next) ∧
      next.Resting ∧ next.options = solver.options ∧
      next.statistics.variableCount = solver.statistics.variableCount ∧
      next.formula = solver.formula ++ [(literalsOf clause).toList] ∧
      next.hasEmptyClause = solver.hasEmptyClause := by
  have small := resting.small
  have positive := within.literalsOf_size_pos small member nonempty
  have inside : ∀ literal ∈ literalsOf clause, literal.var < solver.statistics.variableCount :=
    fun literal inClause => within.var_lt small member inClause
  obtain ⟨ref, next, added, cleared, formula, options, flag, width⟩ :=
    resting.exists_addClause positive fun literal inClause =>
      Nat.lt_of_le_of_lt (inside literal inClause) small
  refine ⟨next, ?_, cleared.toResting, options, ?_, formula, flag⟩
  · simp [Receiver.hand, solverReceiver, Except.bind, added]
  · obtain ⟨literal, inClause⟩ := Array.exists_mem_of_size_pos positive
    exact width.trans (Nat.max_eq_left
      (Solver.width_le (Nat.zero_lt_of_lt (inside literal inClause)) inside))

private theorem exists_handAll {solver : Solver} (resting : solver.Resting)
    (within : Within solver.statistics.variableCount clauses) :
    ∃ accepting after, solverReceiver.handAll clauses (true, .ok solver) = (accepting, .ok after) ∧
      Loaded solver clauses after := by
  induction clauses generalizing solver with
  | nil => exact ⟨true, solver, rfl, resting, rfl, rfl, by simp [formulaOf], by simp⟩
  | cons clause rest ih =>
      by_cases empty : clause = []
      · subst empty
        let flagged : Solver := { solver.record (.emptyClauseAdded solver.statistics.clauseCount) with
          hasEmptyClause := true }
        have handed : solverReceiver.handAll ([] :: rest) (true, .ok solver) =
            solverReceiver.handAll rest (false, .ok flagged) := rfl
        refine ⟨false, flagged, handed.trans (Receiver.foldl_hand_refused ..), ?_⟩
        exact {
          resting := resting.transfer rfl rfl rfl rfl
          options := rfl
          variableCount := rfl
          formula := by
            change solver.formula = _
            simp [formulaOf]
          hasEmptyClause := by simp [flagged] }
      · obtain ⟨next, first, kept, options, room, formula, flag⟩ :=
          exists_hand resting within (.head _) empty
        obtain ⟨accepting, after, handed, loaded⟩ :=
          ih kept (room ▸ fun other member => within other (.tail _ member))
        refine ⟨accepting, after, ?_, ?_⟩
        · rw [← handed, ← first]
          rfl
        · exact {
            resting := loaded.resting
            options := loaded.options.trans options
            variableCount := loaded.variableCount.trans room
            formula := by simp [loaded.formula, formula, formulaOf, empty]
            hasEmptyClause := by simp [loaded.hasEmptyClause, flag, Ne.symm empty] }

/-- A solver that holds a document up to its first empty clause, and knows whether there is one. -/
structure Carries (document : Document) (solver : Solver) : Prop where
  resting : solver.Resting
  variableCount : solver.statistics.variableCount = document.header.variableCount
  formula : solver.formula = formulaOf (document.clauses.takeWhile (· ≠ []))
  hasEmptyClause : solver.hasEmptyClause = document.clauses.contains []
  within : Within document.header.variableCount document.clauses

namespace Carries

variable {document : Document} {solver final : Solver}

theorem satisfied_iff (carries : Carries document solver) (noEmpty : solver.hasEmptyClause = false)
    (assignment : Nat → Bool) :
    Formula.Satisfied (fun var => assignment (var + 1)) solver.formula ↔
      document.Satisfied assignment := by
  have absent : [] ∉ document.clauses := by
    simpa [noEmpty] using carries.hasEmptyClause
  have whole : document.clauses.takeWhile (· ≠ []) = document.clauses := by
    rw [List.takeWhile_eq_self_iff]
    intro clause member
    simpa using fun empty : clause = [] => absent (empty ▸ member)
  rw [carries.formula, whole]
  exact satisfied_formulaOf_iff carries.within (carries.variableCount ▸ carries.resting.small)
    assignment

private theorem not_satisfied (carries : Carries document solver)
    (answers : Solver.Answers solver.problem final .unsat) (assignment : Nat → Bool) :
    ¬ document.Satisfied assignment := by
  intro satisfied
  cases flag : solver.hasEmptyClause with
  | true =>
      have empty : [] ∈ document.clauses := by simpa [flag] using carries.hasEmptyClause
      obtain ⟨number, impossible, -⟩ := satisfied [] empty
      cases impossible
  | false =>
      exact answers.not_satisfiable flag ⟨_, (carries.satisfied_iff flag assignment).mpr satisfied⟩

end Carries

end Dimacs

namespace Console

open Dimacs

variable {memory : Memory} {contents : ByteArray} {document : Document} {name : String}

private theorem exists_load (options : Options) (plain : Files.packing name = .plain)
    (spelled : document? memory { bytes := contents } = some document) :
    ∃ solver, load memory options name (.file contents) = .ok (.ok solver) ∧
      solver.options = options ∧ Carries document solver := by
  have spec := read_spec memory solverReceiver { bytes := contents } (.ok { options })
  rw [spelled] at spec
  obtain ⟨reader, done, handed⟩ := spec
  obtain ⟨small, within⟩ := document?_bounds spelled
  obtain ⟨wide, grown, widened⟩ :=
    (Solver.cleared_start options {}).toIntact.exists_ensureVariables small
  have count : wide.statistics.variableCount = document.header.variableCount := by
    rw [widened.statistics]
    exact Nat.zero_max _
  obtain ⟨accepting, solver, loading, loaded⟩ := exists_handAll (widened.resting rfl)
    (count ▸ within : Within wide.statistics.variableCount document.clauses)
  have created : solverReceiver.createVariables document.header.variableCount
      (.ok { options }) = .ok wide := grown
  rw [created, loading] at handed
  have received : reader.receiver = .ok solver := congrArg Prod.snd handed
  refine ⟨solver, ?_, loaded.options.trans widened.options, ?_⟩
  · simp only [load, Files.readFound, Files.openFound, plain, done, received]
    rfl
  · exact {
      resting := loaded.resting
      variableCount := loaded.variableCount.trans count
      formula := by
        rw [loaded.formula, widened.formula]
        rfl
      hasEmptyClause := by
        rw [loaded.hasEmptyClause, widened.hasEmptyClause]
        rfl
      within := within }

end Console

/-! ## The line of values -/

namespace Report

def numberOf (truth : Truth) (var : Var) : Int :=
  if truth = .holds then ((var + 1 : Nat) : Int) else -((var + 1 : Nat) : Int)

def numbersOf (model : Valuation) : List Int :=
  model.toList.zipIdx.map fun (truth, var) => numberOf truth var

def satLine (numbers : List Int) : String :=
  String.join ("SAT" :: numbers.map (" " ++ toString ·))

variable {model : Valuation} {truth : Truth} {var : Var}

private theorem signed_eq (truth : Truth) (var : Var) :
    signed truth var = toString (numberOf truth var) := by
  unfold signed numberOf
  split <;> rfl

private theorem natAbs_numberOf (truth : Truth) (var : Var) :
    (numberOf truth var).natAbs = 1 + var := by
  rw [Nat.add_comm, numberOf]
  split
  · exact Int.natAbs_natCast _
  · exact (Int.natAbs_neg _).trans (Int.natAbs_natCast _)

private theorem numberOf_eq_iff {first second : Nat} :
    numberOf truth first = ((second + 1 : Nat) : Int) ↔ truth = .holds ∧ first = second := by
  unfold numberOf
  split
  · next holds => exact ⟨fun same => ⟨holds, by omega⟩, fun ⟨_, same⟩ => by omega⟩
  · next other => exact ⟨fun same => by omega, fun ⟨holds, _⟩ => absurd holds other⟩

private theorem answer_sat (model : Valuation) : answer .sat model = satLine (numbersOf model) := by
  simp only [answer, satLine, numbersOf, signed_eq, List.map_map]
  rfl

private theorem natAbs_numbersOf (model : Valuation) :
    (numbersOf model).map Int.natAbs = List.range' 1 model.size := by
  have absolute : (Int.natAbs ∘ fun (truth, var) => numberOf truth var) = (1 + ·) ∘ Prod.snd :=
    funext fun (truth, var) => natAbs_numberOf truth var
  rw [numbersOf, List.map_map, absolute, ← List.map_map, List.zipIdx_map_snd,
    List.map_add_range', Array.length_toList]

private theorem mem_numbersOf_iff :
    ((var + 1 : Nat) : Int) ∈ numbersOf model ↔ model.value var = .holds := by
  simp only [numbersOf, List.mem_map, Prod.exists, List.mk_mem_zipIdx_iff_getElem?,
    numberOf_eq_iff, Array.getElem?_toList, Valuation.value, Array.getD_eq_getD_getElem?]
  constructor
  · rintro ⟨truth, other, known, rfl, rfl⟩
    simp [known]
  · intro holds
    cases known : model[var]? with
    | none => simp [known] at holds
    | some truth => exact ⟨truth, var, known, by simpa [known] using holds, rfl⟩

private theorem newline_notMem_toString (number : Int) : '\n' ∉ (toString number).toList := by
  have digits (count : Nat) : '\n' ∉ count.repr.toList := by
    rw [Nat.toList_repr]
    intro member
    exact absurd (Nat.isDigit_of_mem_toDigits (by decide) (by decide) member) (by decide)
  cases number with
  | ofNat count => exact digits count
  | negSucc count =>
      change '\n' ∉ ("-" ++ (count + 1).repr).toList
      simpa [String.toList_append] using digits (count + 1)

private theorem newline_notMem_satLine (numbers : List Int) : '\n' ∉ (satLine numbers).toList := by
  simp only [satLine, String.toList_join, List.flatMap_cons, List.mem_append, List.mem_flatMap,
    List.mem_map, not_or, not_exists, not_and]
  refine ⟨by decide, ?_⟩
  rintro - ⟨number, -, rfl⟩
  simpa [String.toList_append] using newline_notMem_toString number

/-- The output ends with the line, which is one. -/
def EndsWithLine (output line : String) : Prop :=
  '\n' ∉ line.toList ∧ ∃ earlier, output = earlier ++ "\n" ++ line ++ "\n"

private theorem endsWithLine_after (opening : String) (solver : Solver) (status : Status) (time : Nat)
    (line : '\n' ∉ (answer status solver.model).toList) :
    EndsWithLine (opening ++ after solver status time) (answer status solver.model) := by
  refine ⟨line, opening ++ (if solver.options.verbose then summary solver.statistics time else ""), ?_⟩
  simp [after, paragraph, String.append_assoc]

end Report

/-! ## The answer to a document -/

namespace Console

open Dimacs Report

variable {memory : Memory} {contents : ByteArray} {document : Document} {name : String}

/-- The printed numbers give every variable the value that it has in the model. -/
theorem complete_false_eq (model : Valuation) : model.complete false =
    fun var => decide (((var + 1 : Nat) : Int) ∈ numbersOf model) := by
  funext var
  rw [Bool.eq_iff_iff, decide_eq_true_iff, mem_numbersOf_iff]
  cases known : model.value var <;> simp [Valuation.complete, known]

/-- The answer to a plain file that a reader accepts is true of what the file spells. A model is printed
number by number, and without one the answer is negative. The reader may hand the formula to any
receiver. -/
theorem solveFound_prints_truth {σ : Type} (receiver : Receiver σ) (state : σ)
    (plain : Files.packing name = .plain)
    (accepted : (Dimacs.read memory receiver { bytes := contents } state).1 = none)
    (clock : Clock) (timing : Timing) (verbose : Bool) :
    ∃ document status output, document? memory { bytes := contents } = some document ∧
      solveFound memory clock timing { verbose } name (.file contents) = .ok (.ok status, output) ∧
      ((status = .sat ∧ ∃ numbers : List Int, EndsWithLine output (satLine numbers) ∧
          numbers.map Int.natAbs = List.range' 1 document.header.variableCount ∧
          document.Satisfied fun index => decide ((index : Int) ∈ numbers)) ∨
        (status = .unsat ∧ EndsWithLine output "UNSAT" ∧
          ∀ assignment, ¬ document.Satisfied assignment)) := by
  obtain ⟨document, spelled⟩ := exists_document_of_read accepted
  obtain ⟨solver, loaded, options, carries⟩ := exists_load { verbose } plain spelled
  obtain ⟨status, final, solved, answers⟩ := carries.resting.exists_solve clock
  let opening := before solver timing.reading ++ progressLines final.journal
  have printed : solveFound memory clock timing { verbose } name (.file contents) =
      .ok (.ok status, opening ++ after final status timing.total) := by
    simp only [solveFound, loaded, solved, bind, Except.bind]
    rfl
  refine ⟨document, status, _, spelled, printed, ?_⟩
  cases status with
  | sat =>
      refine .inl ⟨rfl, numbersOf final.model, ?_, ?_, ?_⟩
      · rw [← answer_sat]
        exact endsWithLine_after _ _ _ _ (answer_sat _ ▸ newline_notMem_satLine _)
      · have size : final.model.size = final.statistics.variableCount := answers.resting.sized
        have kept : final.statistics.variableCount = solver.statistics.variableCount :=
          congrArg Problem.variableCount answers.problem_eq
        rw [natAbs_numbersOf, size, kept, carries.variableCount]
      · have satisfied := Formula.satisfied_complete answers.satisfied false
        rw [complete_false_eq] at satisfied
        exact (carries.satisfied_iff (answers.hasEmptyClause_eq_false (by simp))
          fun index => decide ((index : Int) ∈ numbersOf final.model)).mp satisfied
  | unsat =>
      have line : '\n' ∉ "UNSAT".toList := by decide
      exact .inr ⟨rfl, endsWithLine_after _ _ .unsat _ line, carries.not_satisfied answers⟩
  | unknown =>
      have limitless : solver.problem.options = { verbose } := options
      exact absurd rfl (answers.ne_unknown (by rw [limitless]) (by rw [limitless]))

/-- A text with a comment, a clause that goes over two lines, a repeated literal, a clause without its
zero and an end mark. The second variable is left open by the search and printed as false. -/
theorem solveFound_prints_truth_spread :
    let text := "c spread\n p cnf 3 2 \n1 -2\n 0 -1 -1 3\n%\nrest"
    Files.packing "a.cnf" = .plain ∧
      (Dimacs.read .addressable solverReceiver { bytes := text.toUTF8 } (.ok {})).1 = none ∧
      ∃ document output numbers,
        document? .addressable { bytes := text.toUTF8 } = some document ∧
        document.clauses = [[1, -2], [-1, -1, 3]] ∧
        solveFound .addressable Clock.stopped {} {} "a.cnf" (.file text.toUTF8) =
          .ok (.ok .sat, output) ∧
        output = "\nSAT 1 -2 3\n" ∧ EndsWithLine output (satLine numbers) ∧
        numbers.map Int.natAbs = [1, 2, 3] ∧
        document.Satisfied fun index => decide ((index : Int) ∈ numbers) := by
  intro text
  have plain : Files.packing "a.cnf" = .plain := by decide +kernel
  have accepted :
      (Dimacs.read .addressable solverReceiver { bytes := text.toUTF8 } (.ok {})).1 = none := by
    decide +kernel
  have reads : document? .addressable { bytes := text.toUTF8 } =
      some ⟨⟨3, 2⟩, [[1, -2], [-1, -1, 3]]⟩ := by
    decide +kernel
  have computed : (solveFound .addressable Clock.stopped {} {} "a.cnf" (.file text.toUTF8)).toOption.map
      (fun result => (result.1.toOption, result.2)) = some (some .sat, "\nSAT 1 -2 3\n") := by
    decide +kernel
  obtain ⟨document, status, output, spelled, printed, answer⟩ :=
    solveFound_prints_truth solverReceiver (.ok {}) plain accepted Clock.stopped {} false
  cases reads.symm.trans spelled
  rw [printed] at computed
  obtain ⟨rfl, rfl⟩ : status = .sat ∧ output = "\nSAT 1 -2 3\n" := by
    simpa [Except.toOption] using computed
  obtain ⟨-, numbers, line, counted, satisfied⟩ : _ ∧ _ := answer.resolve_right (by simp)
  exact ⟨plain, accepted, _, _, numbers, reads, rfl, printed, rfl, line, counted, satisfied⟩

end Console

end Dpll
