import Mathlib.Data.List.Forall2
import Dpll.Proofs.Numerals
import Dpll.Proofs.Requests

/-!
# The grammar of texts

A text that is accepted, taken apart: its lines up to the end mark, the header in the first of them that
is neither blank nor a comment, and the numbers in the others. Main statement: reading accepts exactly
the texts that can be taken apart in this way, and hands on what stands between the zeros.
-/

set_option autoImplicit false

namespace Dpll

private theorem mapM_eq_some_iff {α β : Type} {convert : α → Option β} {items : List α}
    {results : List β} :
    items.mapM convert = some results ↔
      List.Forall₂ (fun item result => convert item = some result) items results := by
  induction items generalizing results with
  | nil => cases results <;> simp
  | cons item items ih =>
      simp only [List.mapM_cons, Option.bind_eq_bind, Option.bind_eq_some_iff, Option.pure_def,
        Option.some.injEq, ih]
      constructor
      · rintro ⟨value, found, values, others, rfl⟩
        exact .cons found others
      · rintro (_ | ⟨found, others⟩)
        exact ⟨_, found, _, others, rfl⟩

namespace Text

variable {α : Type} {isSeparator : α → Bool}

private theorem length_pieces (elements : List α) :
    (pieces isSeparator elements).length = elements.countP isSeparator + 1 := by
  induction elements with
  | nil => rfl
  | cons element rest ih =>
      obtain ⟨first, others, shape⟩ := @exists_pieces_eq_cons _ isSeparator rest
      rw [shape] at ih
      rw [pieces_cons, shape, List.countP_cons]
      split <;> simp_all [extendFirst]

/-- Putting a separator after each piece gives back the list with one separator more. -/
theorem flatMap_pieces {separator : α} (only : ∀ element, isSeparator element = true →
    element = separator) (elements : List α) :
    (pieces isSeparator elements).flatMap (· ++ [separator]) = elements ++ [separator] := by
  induction elements with
  | nil => rfl
  | cons element rest ih =>
      obtain ⟨first, others, shape⟩ := @exists_pieces_eq_cons _ isSeparator rest
      rw [shape] at ih
      rw [pieces_cons, shape]
      split
      · next separates => simpa [only element separates] using ih
      · simpa [extendFirst] using ih

end Text

namespace Dimacs

/-! ## Clauses between zeros -/

/-- The groups are what the zeros among the numbers separate. The zero after the last group may be
missing if the group is not empty. -/
structure Separated (groups : List (List Int)) (numbers : List Int) : Prop where
  nonzero : ∀ group ∈ groups, 0 ∉ group
  joined : numbers = groups.flatMap (· ++ [0]) ∨
    numbers ++ [0] = groups.flatMap (· ++ [0]) ∧ ∃ last ∈ groups.getLast?, last ≠ []

private theorem pieces_of_ended {groups : List (List Int)} (nonzero : ∀ group ∈ groups, 0 ∉ group) :
    Text.pieces (· == 0) (groups.flatMap (· ++ [0])) = groups ++ [[]] := by
  induction groups with
  | nil => rfl
  | cons group rest ih =>
      obtain ⟨first, others⟩ := List.forall_mem_cons.mp nonzero
      rw [Text.pieces_eq_splitOnP] at ih ⊢
      rw [List.flatMap_cons, List.append_assoc, List.singleton_append]
      exact (List.splitOn_append_cons_self_of_not_mem first _).trans (congrArg _ (ih others))

private theorem pieces_append_zero (numbers : List Int) :
    Text.pieces (· == 0) (numbers ++ [0]) = Text.pieces (· == 0) numbers ++ [[]] := by
  simp [Text.pieces_append_singleton]

private theorem clausesOf_append_zero (numbers : List Int) :
    clausesOf (numbers ++ [0]) = Text.pieces (· == 0) numbers := by
  simp [clausesOf, pieces_append_zero]

theorem Separated.clausesOf_eq {groups : List (List Int)} {numbers : List Int}
    (separated : Separated groups numbers) : clausesOf numbers = groups := by
  obtain ⟨nonzero, rfl | ⟨joined, last, found, nonempty⟩⟩ := separated
  · simp [clausesOf, pieces_of_ended nonzero]
  · have cut := pieces_append_zero numbers
    rw [joined, pieces_of_ended nonzero] at cut
    have same := List.append_cancel_right cut
    have open_ : groups.getLast? ≠ some [] := by
      intro ended
      rw [ended] at found
      exact nonempty (Option.some.inj found).symm
    simp [clausesOf, ← same, open_]

private theorem separated_clausesOf (numbers : List Int) : Separated (clausesOf numbers) numbers where
  nonzero := by
    intro group member inGroup
    have kept := (Text.of_mem_pieces (mem_pieces_of_mem_clausesOf member) inGroup).2
    simp at kept
  joined := by
    have whole : (Text.pieces (· == 0) numbers).flatMap (· ++ [0]) = numbers ++ [0] :=
      Text.flatMap_pieces (by simp) numbers
    by_cases ended : (Text.pieces (· == 0) numbers).getLast? = some []
    · have cut := List.dropLast_append_getLast? [] ended
      rw [← cut, List.flatMap_append] at whole
      left
      simpa [clausesOf, ended] using whole.symm
    · have unchanged : clausesOf numbers = Text.pieces (· == 0) numbers := by
        simp [clausesOf, ended]
      obtain ⟨first, others, shape⟩ := @Text.exists_pieces_eq_cons _ (· == 0) numbers
      have last := List.getLast?_eq_some_getLast (l := Text.pieces (· == 0) numbers) (by simp [shape])
      rw [unchanged]
      refine .inr ⟨whole.symm, _, last, ?_⟩
      intro empty
      exact ended (last.trans (congrArg some empty))

private theorem length_clausesOf (numbers : List Int) :
    (clausesOf numbers).length =
      numbers.count 0 + if numbers.getLast?.any (· ≠ 0) then 1 else 0 := by
  induction numbers using List.reverseRecOn with
  | nil => rfl
  | append_singleton front last _ =>
      by_cases zero : last = 0
      · subst zero
        simp [clausesOf_append_zero, Text.length_pieces, List.count]
      · have cut := @Text.pieces_append_singleton _ (· == 0) front last
        rw [if_neg (by simpa using zero)] at cut
        have unchanged : clausesOf (front ++ [last]) = Text.pieces (· == 0) (front ++ [last]) := by
          simp [clausesOf, cut]
        rw [unchanged, Text.length_pieces]
        simp [zero, List.count]

/-! ## The parts of a text -/

/-- A text taken apart: lines up to an end mark, the first of which that counts is the header, and
numbers in all the others that count. -/
structure Written (memory : Memory) (source : Source) where
  text : List (List Char)
  rest : List (Option (List Char))
  lines_eq : source.lines = text.map some ++ rest
  unmarked : ∀ line ∈ text, isEndMark line = false
  ended : rest = [] ∨ ∃ mark later, rest = some mark :: later ∧ isEndMark mark = true
  title : List Char
  body : List (List Char)
  kept : text.filter isContent = title :: body
  header : Header
  first : List Char
  second : List Char
  titled : Text.words title = [['p'], ['c', 'n', 'f'], first, second]
  variableCount : Text.Unsigned first header.variableCount
  clauseCount : Text.Unsigned second header.clauseCount
  allocatable : memory.holds header.variableCount = true
  numbers : List Int
  spelled : List.Forall₂ Text.Signed (body.flatMap Text.words) numbers
  inside : ∀ number ∈ numbers, number.natAbs ≤ header.variableCount
  counted : numbers.count 0 + (if numbers.getLast?.any (· ≠ 0) then 1 else 0) = header.clauseCount

theorem contentLines?_eq_some_iff {lines : List (Option (List Char))} {content : List (List Char)} :
    contentLines? lines = some content ↔
      ∃ (text : List (List Char)) (rest : List (Option (List Char))),
        lines = text.map some ++ rest ∧ (∀ line ∈ text, isEndMark line = false) ∧
        (rest = [] ∨ ∃ mark later, rest = some mark :: later ∧ isEndMark mark = true) ∧
        text.filter isContent = content := by
  constructor
  · intro found
    induction lines generalizing content with
    | nil =>
        cases found
        exact ⟨[], [], rfl, by simp, .inl rfl, rfl⟩
    | cons line later ih =>
        cases line with
        | none => simp [contentLines?_unreadable] at found
        | some line =>
            cases mark : isEndMark line with
            | true =>
                rw [contentLines?_of_mark later mark] at found
                cases found
                exact ⟨[], _, rfl, by simp, .inr ⟨line, later, rfl, mark⟩, rfl⟩
            | false =>
                rw [contentLines?_cons later mark] at found
                obtain ⟨lines, foundLater, same⟩ := Option.map_eq_some_iff.mp found
                obtain ⟨text, rest, rfl, unmarked, ended, rfl⟩ := ih foundLater
                refine ⟨line :: text, rest, rfl, ?_, ended, ?_⟩
                · exact List.forall_mem_cons.mpr ⟨mark, unmarked⟩
                · rw [← same, List.filter_cons]
  · rintro ⟨text, rest, rfl, unmarked, ended, rfl⟩
    induction text with
    | nil =>
        rcases ended with rfl | ⟨mark, later, rfl, marked⟩
        · rfl
        · exact contentLines?_of_mark later marked
    | cons line text ih =>
        obtain ⟨unmarkedLine, unmarkedText⟩ := List.forall_mem_cons.mp unmarked
        rw [List.map_cons, List.cons_append, contentLines?_cons _ unmarkedLine, ih unmarkedText,
          Option.map_some, List.filter_cons]

theorem numbers?_eq_some_iff {lines : List (List Char)} {numbers : List Int} :
    numbers? lines = some numbers ↔
      List.Forall₂ Text.Signed (lines.flatMap Text.words) numbers := by
  simp only [numbers?, mapM_eq_some_iff, Text.signed?_eq_some_iff]

namespace Written

variable {memory : Memory} {source : Source}

def document (written : Written memory source) : Document :=
  { header := written.header, clauses := clausesOf written.numbers }

theorem document?_eq (written : Written memory source) :
    document? memory source = some written.document := by
  refine document?_eq_some_iff.mpr ⟨written.title, written.body, written.numbers, ?_, ?_,
    numbers?_eq_some_iff.mpr written.spelled, written.inside, ?_, rfl⟩
  · exact contentLines?_eq_some_iff.mpr ⟨written.text, written.rest, written.lines_eq,
      written.unmarked, written.ended, written.kept⟩
  · exact ofWords?_eq_some_iff.mpr ⟨written.first, written.second, written.titled,
      Text.unsigned?_eq_some_iff.mpr written.variableCount,
      Text.unsigned?_eq_some_iff.mpr written.clauseCount, written.allocatable⟩
  · exact (length_clausesOf written.numbers).trans written.counted

private theorem of_document? {document : Document}
    (spelled : document? memory source = some document) :
    Nonempty (Written memory source) := by
  obtain ⟨title, body, numbers, found, named, read, inside, counted, -⟩ :=
    document?_eq_some_iff.mp spelled
  obtain ⟨text, rest, lines_eq, unmarked, ended, kept⟩ := contentLines?_eq_some_iff.mp found
  obtain ⟨first, second, titled, readFirst, readSecond, allocatable⟩ :=
    ofWords?_eq_some_iff.mp named
  exact ⟨{
    text, rest, lines_eq, unmarked, ended, title, body, kept, first, second, titled, numbers, inside
    header := document.header
    variableCount := Text.unsigned?_eq_some_iff.mp readFirst
    clauseCount := Text.unsigned?_eq_some_iff.mp readSecond
    allocatable
    spelled := numbers?_eq_some_iff.mp read
    counted := (length_clausesOf numbers).symm.trans counted }⟩

end Written

/-! ## Literals and their numbers -/

theorem codeOf_var_positive (literal : Literal) :
    Literal.codeOf literal.var literal.positive = literal.code := by
  unfold Literal.codeOf Literal.var Literal.positive
  rcases Nat.mod_two_eq_zero_or_one literal.code with even | odd
  · simp only [even, beq_self_eq_true, ↓reduceIte]
    omega
  · simp only [odd, Nat.reduceBEq, Bool.false_eq_true, ↓reduceIte]
    omega

private theorem ofVar?_var_positive (literal : Literal) :
    Literal.ofVar? literal.var literal.positive = some literal := by
  simp [Literal.ofVar?, codeOf_var_positive, literal.code_lt]

theorem natAbs_toDimacs (literal : Literal) : literal.toDimacs.natAbs = literal.var + 1 := by
  unfold Literal.toDimacs
  split
  · rfl
  · exact Int.natAbs_neg _

theorem toDimacs_ne_zero (literal : Literal) : literal.toDimacs ≠ 0 := by
  intro zero
  have size := natAbs_toDimacs literal
  rw [zero] at size
  cases size

theorem ofDimacs?_toDimacs (literal : Literal) :
    Literal.ofDimacs? literal.toDimacs = some literal := by
  have positive : decide (0 < literal.toDimacs) = literal.positive := by grind [Literal.toDimacs]
  rw [Literal.ofDimacs?, if_neg (toDimacs_ne_zero literal), natAbs_toDimacs, positive,
    Nat.add_sub_cancel, ofVar?_var_positive]

theorem toDimacs_of_ofDimacs? {number : Int} {literal : Literal} (nonzero : number ≠ 0)
    (small : number.natAbs ≤ 9223372036854775808)
    (denoted : Literal.ofDimacs? number = some literal) : literal.toDimacs = number := by
  obtain ⟨_, same, var, positive⟩ := Literal.exists_ofDimacs? nonzero small
  rw [denoted] at same
  cases same
  simp only [Literal.toDimacs, positive, var]
  grind

theorem literalsOf_map_toDimacs (clause : List Literal) :
    literalsOf (clause.map Literal.toDimacs) = clause.toArray := by
  simp [literalsOf, List.filterMap_map, ofDimacs?_toDimacs]

theorem exists_clause {group : List Int} (nonzero : 0 ∉ group) (small : AllSmall group) :
    ∃ clause : List Literal, clause.map Literal.toDimacs = group := by
  induction group with
  | nil => exact ⟨[], rfl⟩
  | cons number group ih =>
      have first : number ≠ 0 := (List.ne_of_not_mem_cons nonzero).symm
      obtain ⟨smallFirst, smallRest⟩ := List.forall_mem_cons.mp small
      obtain ⟨literal, denoted, -⟩ := Literal.exists_ofDimacs? first smallFirst
      obtain ⟨clause, rfl⟩ := ih (List.not_mem_of_not_mem_cons nonzero) smallRest
      exact ⟨literal :: clause, by simp [toDimacs_of_ofDimacs? first smallFirst denoted]⟩

/-- Numbers that zeros separate are those of a formula. -/
theorem exists_formula {groups : List (List Int)}
    (clauses : ∀ group ∈ groups, ∃ clause : List Literal, clause.map Literal.toDimacs = group) :
    ∃ formula : List (List Literal), formula.map (·.map Literal.toDimacs) = groups := by
  induction groups with
  | nil => exact ⟨[], rfl⟩
  | cons group groups ih =>
      obtain ⟨⟨clause, rfl⟩, others⟩ := List.forall_mem_cons.mp clauses
      obtain ⟨formula, rfl⟩ := ih others
      exact ⟨clause :: formula, rfl⟩

/-! ## What reading makes of a text -/

section Receivers

variable {σ : Type} {memory : Memory} {source : Source}

theorem exchanges_of_document? {document : Document}
    (spelled : document? memory source = some document)
    (receiver : Receiver σ) (state : σ) :
    (read memory receiver source state).1 = none ∧
    exchanges memory receiver source state = (.createVariables document.header.variableCount, true) ::
      (receiver.consult (document.clauses.map literalsOf)
        (receiver.createVariables document.header.variableCount state)).1 ∧
    (read memory receiver source state).2.receiver =
      (receiver.consult (document.clauses.map literalsOf)
        (receiver.createVariables document.header.variableCount state)).2 := by
  have plain := read_spec memory receiver source state
  have noted := read_spec memory receiver.noted source ([], state)
  simp only [spelled] at plain noted
  obtain ⟨final, done, handed⟩ := plain
  obtain ⟨finalNoted, doneNoted, handedNoted⟩ := noted
  refine ⟨congrArg Prod.fst done, exchanges_of_foldl doneNoted handedNoted, ?_⟩
  rw [done]
  exact (congrArg Prod.snd handed).trans (receiver.foldl_hand ..)

private theorem Written.exists_formula (written : Written memory source) :
    ∃ formula : List (List Literal),
      Separated (formula.map (·.map Literal.toDimacs)) written.numbers := by
  have separated := separated_clausesOf written.numbers
  have small : ∀ group ∈ clausesOf written.numbers, AllSmall group := by
    intro group member number inGroup
    have declared := ((document?_bounds written.document?_eq).2 group member number inGroup).2
    have few := Memory.lt_of_holds written.allocatable
    exact Nat.le_of_lt (declared.trans_lt (few.trans (by decide)))
  obtain ⟨formula, same⟩ := Dimacs.exists_formula fun group member =>
    exists_clause (separated.nonzero group member) (small group member)
  exact ⟨formula, same ▸ separated⟩

private theorem Separated.map_literalsOf {formula : List (List Literal)} {numbers : List Int}
    (separated : Separated (formula.map (·.map Literal.toDimacs)) numbers) :
    (clausesOf numbers).map literalsOf = formula.map List.toArray := by
  simp [separated.clausesOf_eq, literalsOf_map_toDimacs]

/-- Reading accepts exactly the texts that can be taken apart. It makes room for the variables and
hands on what stands between the zeros, up to the first clause that is refused. -/
theorem read_iff_written (memory : Memory) (receiver : Receiver σ) (source : Source) (state : σ) :
    ((read memory receiver source state).1 = none ↔ Nonempty (Written memory source)) ∧
    ∀ written : Written memory source, ∃ formula : List (List Literal),
      Separated (formula.map (·.map Literal.toDimacs)) written.numbers ∧
      exchanges memory receiver source state = (.createVariables written.header.variableCount, true) ::
        (receiver.consult (formula.map List.toArray)
          (receiver.createVariables written.header.variableCount state)).1 ∧
      (read memory receiver source state).2.receiver =
        (receiver.consult (formula.map List.toArray)
          (receiver.createVariables written.header.variableCount state)).2 := by
  refine ⟨⟨fun accepted => ?_, fun ⟨written⟩ => ?_⟩, fun written => ?_⟩
  · obtain ⟨document, spelled⟩ := exists_document_of_read accepted
    exact Written.of_document? spelled
  · exact (exchanges_of_document? written.document?_eq receiver state).1
  · obtain ⟨formula, separated⟩ := written.exists_formula
    obtain ⟨-, log, final⟩ := exchanges_of_document? written.document?_eq receiver state
    have same : written.document.clauses.map literalsOf = formula.map List.toArray :=
      separated.map_literalsOf
    rw [same] at log final
    exact ⟨formula, separated, log, final⟩

/-- Four clauses over several lines, the second of them empty and the last without its zero, before an
end mark that is followed by bytes which are no text. Its watch lists take 144 bytes. -/
def spread : Source :=
  { bytes := "c four\n p cnf +3 4\n1 -2\nc on\n 0 0 2\t0 -1 3\n% end\n".toUTF8 ++ ⟨#[255, 10, 128]⟩ }

theorem read_iff_written_spread :
    Nonempty (Written .addressable spread) ∧
      exchanges .addressable (transcriptReceiver none false) spread {} =
        [(.createVariables 3, true), (.addClause #[⟨0, by decide⟩, ⟨3, by decide⟩], true),
          (.addClause #[], false)] ∧
      ¬ Nonempty (Written ⟨(· < 144)⟩ spread) := by
  let receiver := transcriptReceiver none false
  refine ⟨(read_iff_written .addressable receiver spread {}).1.mp (by decide +kernel),
    by decide +kernel, fun written => ?_⟩
  have accepted := (read_iff_written ⟨(· < 144)⟩ receiver spread {}).1.mpr written
  exact absurd accepted (by decide +kernel)

end Receivers

end Dimacs

end Dpll
