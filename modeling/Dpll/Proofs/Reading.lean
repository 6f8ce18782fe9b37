import Mathlib.Data.List.Induction
import Dpll.Dimacs.Document
import Dpll.Proofs.Valuations

/-!
# Reading follows the document

The reader goes through a text line by line and number by number, and hands on each clause when it
ends. What it makes of a text is told by the document alone: it accepts exactly the texts that spell
one, and it has given the receiver exactly the clauses of the document, up to the first that was
refused.
-/

set_option autoImplicit false

namespace Dpll

namespace Text

section Pieces

variable {α : Type} {isSeparator : α → Bool}

theorem pieces_cons (element : α) (rest : List α) :
    pieces isSeparator (element :: rest) =
      if isSeparator element then [] :: pieces isSeparator rest
      else extendFirst element (pieces isSeparator rest) := rfl

theorem pieces_eq_splitOnP (elements : List α) :
    pieces isSeparator elements = elements.splitOnP isSeparator := by
  induction elements with
  | nil => rfl
  | cons element rest ih =>
      obtain ⟨first, others, shape⟩ := List.exists_cons_of_ne_nil (List.splitOnP_ne_nil isSeparator rest)
      rw [pieces_cons, List.splitOnP_cons_eq_if_modifyHead, ih, shape]
      rfl

theorem exists_pieces_eq_cons (elements : List α) :
    ∃ first others, pieces isSeparator elements = first :: others := by
  rw [pieces_eq_splitOnP]
  exact List.exists_cons_of_ne_nil (List.splitOnP_ne_nil isSeparator elements)

/-- An element at the end is a separator, after which a new piece begins, or it belongs to the last
piece. -/
theorem pieces_append_singleton (elements : List α) (last : α) :
    pieces isSeparator (elements ++ [last]) =
      if isSeparator last then pieces isSeparator elements ++ [[]]
      else (pieces isSeparator elements).dropLast ++
        [(pieces isSeparator elements).getLastD [] ++ [last]] := by
  induction elements with
  | nil => cases separates : isSeparator last <;> simp [pieces, separates, extendFirst]
  | cons element rest ih =>
      obtain ⟨first, others, shape⟩ := exists_pieces_eq_cons rest
      rw [List.cons_append, pieces_cons, pieces_cons, ih, shape]
      cases isSeparator last <;> cases isSeparator element <;> cases others <;>
        simp [extendFirst]

theorem of_mem_pieces {elements piece : List α} {element : α}
    (member : piece ∈ pieces isSeparator elements) (inPiece : element ∈ piece) :
    element ∈ elements ∧ isSeparator element = false := by
  induction elements generalizing piece with
  | nil =>
      rw [List.mem_singleton.mp member] at inPiece
      cases inPiece
  | cons head rest ih =>
      have older {piece : List α} (member : piece ∈ pieces isSeparator rest)
          (inPiece : element ∈ piece) : element ∈ head :: rest ∧ isSeparator element = false := by
        obtain ⟨inRest, kept⟩ := ih member inPiece
        exact ⟨.tail _ inRest, kept⟩
      obtain ⟨first, others, shape⟩ := exists_pieces_eq_cons rest
      rw [pieces_cons, shape] at member
      rw [shape] at older
      split at member
      · rcases List.mem_cons.mp member with rfl | later
        · cases inPiece
        · exact older later inPiece
      · next separates =>
        rcases List.mem_cons.mp member with rfl | later
        · rcases List.mem_cons.mp inPiece with rfl | inFirst
          · exact ⟨.head _, Bool.eq_false_iff.mpr separates⟩
          · exact older (.head _) inFirst
        · exact older (.tail _ later) inPiece

end Pieces

theorem words_cons_of_blank {char : Char} (rest : List Char) (blank : isBlank char = true) :
    words (char :: rest) = words rest := by
  simp [words, pieces_cons, blank]

private theorem exists_words_cons {char : Char} (rest : List Char) (visible : isBlank char = false) :
    ∃ word others, words (char :: rest) = (char :: word) :: others := by
  obtain ⟨first, others, shape⟩ := @exists_pieces_eq_cons _ isBlank rest
  exact ⟨first, others.filter (!·.isEmpty), by simp [words, pieces_cons, visible, shape, extendFirst]⟩

/-! ## Numerals -/

private theorem natAbs_le_of_signed? {word : List Char} {number : Int}
    (spelled : signed? word = some number) :
    number.natAbs ≤ 9223372036854775808 := by
  unfold signed? at spelled
  split at spelled
  · next rest =>
    have read : ∃ value, (natural? rest = some value ∧ value ≤ 9223372036854775808) ∧
        -(value : Int) = number := by
      simpa [Option.filter_eq_some_iff, Option.bind_eq_some_iff] using spelled
    obtain ⟨value, ⟨-, small⟩, rfl⟩ := read
    simpa using small
  · have read : ∃ value, (natural? (withoutPlus word) = some value ∧
        value < 9223372036854775808) ∧ (value : Int) = number := by
      simpa [Option.filter_eq_some_iff] using spelled
    obtain ⟨value, ⟨-, small⟩, rfl⟩ := read
    simpa using Nat.le_of_lt small

private theorem signed?_of_letter (rest : List Char) : signed? ('p' :: rest) = none := by
  simp [signed?, withoutPlus, natural?, Char.isDigit]

end Text

theorem Literal.ofDimacs?_zero : Literal.ofDimacs? 0 = none := rfl

/-- A number in the range of a machine word that is not zero denotes a literal. -/
theorem Literal.exists_ofDimacs? {number : Int} (nonzero : number ≠ 0)
    (small : number.natAbs ≤ 9223372036854775808) :
    ∃ literal, Literal.ofDimacs? number = some literal ∧ literal.var + 1 = number.natAbs ∧
      literal.positive = decide (0 < number) := by
  have positive : 0 < number.natAbs := Int.natAbs_pos.mpr nonzero
  have code : Literal.codeOf (number.natAbs - 1) (decide (0 < number)) =
      2 * (number.natAbs - 1) + if 0 < number then 0 else 1 := by
    simp [Literal.codeOf]
  have fits : Literal.codeOf (number.natAbs - 1) (decide (0 < number)) < 18446744073709551616 := by
    split at code <;> omega
  refine ⟨⟨_, fits⟩, by simp only [Literal.ofDimacs?, nonzero, ↓reduceIte, Literal.ofVar?, fits,
    ↓reduceDIte], ?_, ?_⟩
  · change Literal.codeOf _ _ / 2 + 1 = _
    split at code <;> omega
  · change (Literal.codeOf _ _ % 2 == 0) = _
    rw [code]
    split <;> simp_all

namespace Dimacs

/-! ## Lines by their first character -/

theorem words_of_initial? (line : List Char) :
    match initial? line with
    | none => Text.words line = []
    | some char => ∃ word others, Text.words line = (char :: word) :: others := by
  induction line with
  | nil => rfl
  | cons char rest ih =>
      cases blank : Text.isBlank char with
      | true =>
          have same : initial? (char :: rest) = initial? rest := by simp [initial?, blank]
          rw [same, Text.words_cons_of_blank rest blank]
          exact ih
      | false =>
          have found : initial? (char :: rest) = some char := by simp [initial?, blank]
          rw [found]
          exact Text.exists_words_cons rest blank

private theorem lineKind_cons (char : Char) (word : List Char) (others : List (List Char)) :
    lineKind ((char :: word) :: others) =
      if char = 'c' then .skipped else if char = '%' then .last
      else if char = 'p' then .header else .clauses := by
  by_cases comment : char = 'c'
  · subst comment
    rfl
  by_cases mark : char = '%'
  · subst mark
    rfl
  by_cases header : char = 'p'
  · subst header
    rfl
  simp only [comment, mark, header, ↓reduceIte]
  unfold lineKind
  split <;> simp_all

private theorem exists_of_lineKind_header {words : List (List Char)}
    (kind : lineKind words = .header) :
    ∃ word others, words = ('p' :: word) :: others := by
  unfold lineKind at kind
  split at kind <;> try cases kind
  exact ⟨_, _, rfl⟩

private theorem isEndMark_iff {line : List Char} :
    isEndMark line = true ↔ lineKind (Text.words line) = .last := by
  have shape := words_of_initial? line
  cases first : initial? line with
  | none =>
      simp only [first] at shape
      simp [isEndMark, first, shape, lineKind]
  | some char =>
      simp only [first] at shape
      obtain ⟨word, others, shape⟩ := shape
      simp only [isEndMark, first, shape, lineKind_cons]
      split <;> grind

private theorem isContent_iff {line : List Char} :
    isContent line = true ↔ lineKind (Text.words line) ≠ .skipped := by
  have shape := words_of_initial? line
  cases first : initial? line with
  | none =>
      simp only [first] at shape
      simp [isContent, first, shape, lineKind]
  | some char =>
      simp only [first] at shape
      obtain ⟨word, others, shape⟩ := shape
      simp only [isContent, first, shape, lineKind_cons]
      split <;> grind

/-! ## Reading numbers -/

variable {σ : Type} {memory : Memory} {receiver : Receiver σ} {reader : Reader σ} {header : Header}

def Outcome.andThen (outcome : Outcome σ) (after : Reader σ → Outcome σ) : Outcome σ :=
  match outcome with
  | (some error, reader) => (some error, reader)
  | (none, reader) => after reader

private theorem Outcome.andThen_ne_none {outcome : Outcome σ} (after : Reader σ → Outcome σ)
    (failed : outcome.1 ≠ none) : (outcome.andThen after).1 ≠ none := by
  obtain ⟨error, reader⟩ := outcome
  cases error with
  | none => exact absurd rfl failed
  | some reason => exact failed

def Reader.take (receiver : Receiver σ) (reader : Reader σ) (number : Int) : Reader σ :=
  match Literal.ofDimacs? number with
  | none => reader.endClause receiver
  | some literal => { reader with pending := reader.pending.push literal }

namespace Reader

theorem header_endClause : (reader.endClause receiver).header = reader.header := by
  unfold endClause
  split
  · split <;> rfl
  · rfl

theorem pending_endClause : (reader.endClause receiver).pending = #[] := by
  unfold endClause
  split
  · split <;> rfl
  · rfl

theorem found_endClause : (reader.endClause receiver).found = reader.found + 1 := by
  unfold endClause
  split
  · split <;> rfl
  · rfl

theorem handed_endClause :
    ((reader.endClause receiver).accepting, (reader.endClause receiver).receiver) =
      receiver.hand (reader.accepting, reader.receiver) reader.pending := by
  unfold endClause Receiver.hand
  cases accepting : reader.accepting with
  | false => simp
  | true =>
      cases answer : receiver.addClause reader.pending reader.receiver with
      | mk accepted state => cases accepted <;> simp

theorem header_foldl_take (numbers : List Int) :
    (numbers.foldl (take receiver) reader).header = reader.header := by
  induction numbers generalizing reader with
  | nil => rfl
  | cons number rest ih =>
      rw [List.foldl_cons, ih]
      unfold take
      split
      · exact header_endClause
      · rfl

/-- The outcome of reading what spells some numbers: if each has its variable, the numbers are taken
one after the other and reading goes on, and otherwise reading fails. -/
def Follows (receiver : Receiver σ) (declared : Nat) (goOn : Reader σ → Outcome σ)
    (spelled : Option (List Int)) (reader : Reader σ) (outcome : Outcome σ) : Prop :=
  (∃ numbers, spelled = some numbers ∧ (∀ number ∈ numbers, number.natAbs ≤ declared) ∧
    outcome = goOn (numbers.foldl (take receiver) reader)) ∨
  (outcome.1 ≠ none ∧
    ∀ numbers, spelled = some numbers → ¬ ∀ number ∈ numbers, number.natAbs ≤ declared)

namespace Follows

variable {declared : Nat} {goOn : Reader σ → Outcome σ} {spelled : Option (List Int)}
  {outcome : Outcome σ}

private theorem prepend {numbers : List Int} (inside : ∀ number ∈ numbers, number.natAbs ≤ declared)
    (follows : Follows receiver declared goOn spelled (numbers.foldl (take receiver) reader) outcome) :
    Follows receiver declared goOn (spelled.map (numbers ++ ·)) reader outcome := by
  rcases follows with ⟨others, rfl, inRange, done⟩ | ⟨failed, outside⟩
  · refine .inl ⟨numbers ++ others, rfl, List.forall_mem_append.mpr ⟨inside, inRange⟩, ?_⟩
    rw [done, List.foldl_append]
  · refine .inr ⟨failed, fun all same inRange => ?_⟩
    obtain ⟨others, spelledRest, rfl⟩ := Option.map_eq_some_iff.mp same
    exact outside others spelledRest (List.forall_mem_append.mp inRange).2

private theorem of_none (failed : outcome.1 ≠ none) :
    Follows receiver declared goOn none reader outcome :=
  .inr ⟨failed, nofun⟩

private theorem of_outside {numbers : List Int} (failed : outcome.1 ≠ none)
    (outside : ¬ ∀ number ∈ numbers, number.natAbs ≤ declared) :
    Follows receiver declared goOn (spelled.map (numbers ++ ·)) reader outcome := by
  refine .inr ⟨failed, fun all same inRange => outside ?_⟩
  obtain ⟨others, -, rfl⟩ := Option.map_eq_some_iff.mp same
  exact (List.forall_mem_append.mp inRange).1

/-- Reading a line and then the rest. -/
theorem line {first : Option (List Int)} {after : Reader σ → Outcome σ}
    (follows : Follows receiver declared (none, ·) first reader outcome)
    (rest : ∀ numbers : List Int, Follows receiver declared goOn spelled
      (numbers.foldl (take receiver) reader) (after (numbers.foldl (take receiver) reader))) :
    Follows receiver declared goOn (first.bind fun numbers => spelled.map (numbers ++ ·)) reader
      (outcome.andThen after) := by
  rcases follows with ⟨numbers, rfl, inside, rfl⟩ | ⟨failed, outside⟩
  · exact .prepend inside (rest numbers)
  · have stopped := Outcome.andThen_ne_none after failed
    cases first with
    | none => exact .of_none stopped
    | some numbers => exact .of_outside stopped (outside numbers rfl)

end Follows

private theorem mapM_signed?_cons {word : List Char} {number : Int} (rest : List (List Char))
    (spelled : Text.signed? word = some number) :
    (word :: rest).mapM Text.signed? = (rest.mapM Text.signed?).map ([number] ++ ·) := by
  simp only [List.mapM_cons, spelled, Option.bind_eq_bind, Option.bind_some, Option.pure_def,
    Option.map_eq_bind]
  rfl

theorem mapM_signed?_append (front back : List (List Char)) :
    (front ++ back).mapM Text.signed? = (front.mapM Text.signed?).bind fun first =>
      (back.mapM Text.signed?).map (first ++ ·) := by
  rw [List.mapM_append]
  cases front.mapM Text.signed? with
  | none => rfl
  | some first => cases back.mapM Text.signed? <;> rfl

/-- A number of a declared variable is taken, and a word that is none ends the reading. -/
theorem readClauses_cons (receiver : Receiver σ) (declared line : Nat) (word : List Char)
    (rest : List (List Char)) (reader : Reader σ) :
    (∃ number, Text.signed? word = some number ∧ number.natAbs ≤ declared ∧
      readClauses receiver declared line (word :: rest) reader =
        readClauses receiver declared line rest (take receiver reader number)) ∨
    (∀ number, Text.signed? word = some number → declared < number.natAbs) ∧
      readClauses receiver declared line (word :: rest) reader =
        (some (wordError line declared word), reader) := by
  cases spelled : Text.signed? word with
  | none => exact .inr ⟨by simp, by simp [readClauses, wordError, spelled]⟩
  | some number =>
      by_cases zero : number = 0
      · subst zero
        exact .inl ⟨0, rfl, Nat.zero_le _, by simp [readClauses, spelled, take, Literal.ofDimacs?_zero]⟩
      · obtain ⟨literal, made, var_eq, -⟩ :=
          Literal.exists_ofDimacs? zero (Text.natAbs_le_of_signed? spelled)
        by_cases covered : literal.var < declared
        · have inside : number.natAbs ≤ declared := Nat.le_trans (Nat.le_of_eq var_eq.symm) covered
          exact .inl ⟨number, rfl, inside, by simp [readClauses, spelled, take, made, covered]⟩
        · have outside : declared < number.natAbs :=
            Nat.lt_of_le_of_lt (Nat.le_of_not_lt covered) (Nat.lt_of_succ_le (Nat.le_of_eq var_eq))
          refine .inr ⟨fun other same => ?_, ?_⟩
          · cases same
            exact outside
          · simp [readClauses, spelled, made, covered, wordError]

/-- Reading the words of a line takes the numbers that they spell, up to a word that is no number of a
declared variable. -/
theorem readClauses_or (receiver : Receiver σ) (declared line : Nat) (words : List (List Char))
    (reader : Reader σ) :
    (∃ numbers, words.mapM Text.signed? = some numbers ∧
      (∀ number ∈ numbers, number.natAbs ≤ declared) ∧
      readClauses receiver declared line words reader =
        (none, numbers.foldl (take receiver) reader)) ∨
    ∃ front word back numbers, words = front ++ word :: back ∧
      front.mapM Text.signed? = some numbers ∧ (∀ number ∈ numbers, number.natAbs ≤ declared) ∧
      (∀ number, Text.signed? word = some number → declared < number.natAbs) ∧
      readClauses receiver declared line words reader =
        (some (wordError line declared word), numbers.foldl (take receiver) reader) := by
  induction words generalizing reader with
  | nil => exact .inl ⟨[], rfl, by simp, rfl⟩
  | cons word rest ih =>
      rcases readClauses_cons receiver declared line word rest reader with
        ⟨number, spelled, inside, goesOn⟩ | ⟨offends, stops⟩
      · rw [goesOn]
        rcases ih (take receiver reader number) with
          ⟨numbers, all, small, done⟩ | ⟨front, other, back, numbers, rfl, all, small, offends, done⟩
        · refine .inl ⟨number :: numbers, ?_, List.forall_mem_cons.mpr ⟨inside, small⟩, done⟩
          rw [mapM_signed?_cons rest spelled, all]
          rfl
        · refine .inr ⟨word :: front, other, back, number :: numbers, rfl, ?_,
            List.forall_mem_cons.mpr ⟨inside, small⟩, offends, done⟩
          rw [mapM_signed?_cons front spelled, all]
          rfl
      · exact .inr ⟨[], word, rest, [], rfl, rfl, by simp, offends, stops⟩

private theorem follows_readClauses (receiver : Receiver σ) (declared line : Nat)
    (words : List (List Char)) (reader : Reader σ) :
    Follows receiver declared (none, ·) (words.mapM Text.signed?) reader
      (readClauses receiver declared line words reader) := by
  rcases readClauses_or receiver declared line words reader with
    ⟨numbers, all, inside, done⟩ | ⟨front, word, back, numbers, rfl, read, -, offends, done⟩
  · exact .inl ⟨numbers, all, inside, done⟩
  · have failed : (readClauses receiver declared line (front ++ word :: back) reader).1 ≠ none := by
      simp [done]
    refine .inr ⟨failed, fun all same small => ?_⟩
    rw [mapM_signed?_append, read, Option.bind_some] at same
    obtain ⟨others, rest, rfl⟩ := Option.map_eq_some_iff.mp same
    cases spelled : Text.signed? word with
    | none => simp [List.mapM_cons, spelled] at rest
    | some number =>
        rw [mapM_signed?_cons back spelled] at rest
        obtain ⟨later, -, rfl⟩ := Option.map_eq_some_iff.mp rest
        have fits := small number (List.mem_append_right _ (.head _))
        exact absurd (offends number spelled) (Nat.not_lt.mpr fits)

end Reader

/-! ## Reading lines -/

theorem contentLines?_unreadable (rest : List (Option (List Char))) :
    contentLines? (none :: rest) = none := by
  simp [contentLines?, List.mapM_cons]

section Line

variable {line : List Char} (number : Nat) (rest : List (Option (List Char))) (reader : Reader σ)

theorem contentLines?_of_mark (mark : isEndMark line = true) :
    contentLines? (some line :: rest) = some [] := by
  simp [contentLines?, mark]

theorem contentLines?_cons (unmarked : isEndMark line = false) :
    contentLines? (some line :: rest) =
      (contentLines? rest).map fun lines => if isContent line then line :: lines else lines := by
  simp only [contentLines?, List.takeWhile_cons, Option.any_some, unmarked, Bool.not_false,
    ↓reduceIte, List.mapM_cons, id_eq]
  cases ((rest.takeWhile fun line => !line.any isEndMark).mapM id) with
  | none => rfl
  | some lines => simp [List.filter_cons]

private theorem contentLines?_of_skipped (unmarked : isEndMark line = false)
    (skipped : isContent line = false) :
    contentLines? (some line :: rest) = contentLines? rest := by
  rw [contentLines?_cons rest unmarked]
  simp [skipped]

private theorem contentLines?_of_content (unmarked : isEndMark line = false)
    (content : isContent line = true) :
    contentLines? (some line :: rest) = (contentLines? rest).map (line :: ·) := by
  rw [contentLines?_cons rest unmarked]
  simp [content]

theorem readLines_of_mark (mark : isEndMark line = true) :
    Reader.readLines memory receiver number (some line :: rest) reader = reader.finish receiver := by
  have last := isEndMark_iff.mp mark
  simp [Reader.readLines, last]

theorem readLines_of_skipped (skipped : isContent line = false) :
    Reader.readLines memory receiver number (some line :: rest) reader =
      Reader.readLines memory receiver (number + 1) rest reader := by
  have kind : lineKind (Text.words line) = .skipped := by
    simpa [skipped] using (isContent_iff : isContent line = true ↔ _).symm
  simp [Reader.readLines, Reader.readLine, kind]

theorem readLines_of_content (unmarked : isEndMark line = false) :
    Reader.readLines memory receiver number (some line :: rest) reader =
      Outcome.andThen (reader.readLine memory receiver number (Text.words line))
        (Reader.readLines memory receiver (number + 1) rest) := by
  have notLast : lineKind (Text.words line) ≠ .last :=
    fun last => Bool.noConfusion (unmarked.symm.trans (isEndMark_iff.mpr last))
  simp only [Reader.readLines, notLast, ↓reduceIte]
  rfl

theorem lineKind_of_content (unmarked : isEndMark line = false) (content : isContent line = true) :
    lineKind (Text.words line) = .header ∨ lineKind (Text.words line) = .clauses := by
  cases kind : lineKind (Text.words line) with
  | skipped => exact absurd kind (isContent_iff.mp content)
  | last => exact Bool.noConfusion (unmarked.symm.trans (isEndMark_iff.mpr kind))
  | header => exact .inl rfl
  | clauses => exact .inr rfl

end Line

private theorem numbers?_cons (line : List Char) (lines : List (List Char)) :
    numbers? (line :: lines) = ((Text.words line).mapM Text.signed?).bind fun first =>
      (numbers? lines).map (first ++ ·) := by
  simp only [numbers?, List.flatMap_cons]
  exact Reader.mapM_signed?_append ..

private theorem bind_numbers?_cons (line : List Char) (content : Option (List (List Char))) :
    (content.map (line :: ·)).bind numbers? =
      ((Text.words line).mapM Text.signed?).bind fun first =>
        (content.bind numbers?).map (first ++ ·) := by
  cases content with
  | none => cases (Text.words line).mapM Text.signed? <;> rfl
  | some lines => exact numbers?_cons line lines

private theorem follows_readLines (memory : Memory) (receiver : Receiver σ)
    (known : reader.header = some header)
    (number : Nat) (lines : List (Option (List Char))) :
    Reader.Follows receiver header.variableCount (Reader.finish receiver)
      ((contentLines? lines).bind numbers?) reader
      (Reader.readLines memory receiver number lines reader) := by
  induction lines generalizing number reader with
  | nil => exact .inl ⟨[], rfl, by simp, rfl⟩
  | cons line rest ih =>
      cases line with
      | none =>
          rw [contentLines?_unreadable]
          exact .of_none (by simp [Reader.readLines])
      | some line =>
          cases mark : isEndMark line with
          | true =>
              rw [contentLines?_of_mark rest mark, readLines_of_mark number rest reader mark]
              exact .inl ⟨[], rfl, by simp, rfl⟩
          | false =>
              cases content : isContent line with
              | false =>
                  rw [contentLines?_of_skipped rest mark content,
                    readLines_of_skipped number rest reader content]
                  exact ih known (number + 1)
              | true =>
                  rw [contentLines?_of_content rest mark content, bind_numbers?_cons,
                    readLines_of_content number rest reader mark]
                  rcases lineKind_of_content mark content with kind | kind
                  · obtain ⟨word, others, shape⟩ := exists_of_lineKind_header kind
                    have noNumber : (Text.words line).mapM Text.signed? = none := by
                      simp [shape, List.mapM_cons, Text.signed?_of_letter]
                    rw [noNumber]
                    exact .of_none (by
                      simp [Outcome.andThen, Reader.readLine, kind, Reader.readHeader, known])
                  · simp only [Reader.readLine, kind, known]
                    exact .line (Reader.follows_readClauses ..) fun first => ih
                      ((Reader.header_foldl_take first).trans known) (number + 1)

/-! ## Clauses from numbers -/

def AllSmall (numbers : List Int) : Prop :=
  ∀ number ∈ numbers, number.natAbs ≤ 9223372036854775808

private theorem literalsOf_eq_empty_iff {numbers : List Int} (small : AllSmall numbers)
    (nonzero : ∀ number ∈ numbers, number ≠ 0) : literalsOf numbers = #[] ↔ numbers = [] := by
  cases numbers with
  | nil => simp [literalsOf]
  | cons number rest =>
      obtain ⟨literal, made, -⟩ :=
        Literal.exists_ofDimacs? (nonzero number (.head _)) (small number (.head _))
      simp [literalsOf, made]

/-- Where a reader stands after numbers: the last piece is pending, the others were handed on. -/
structure Took (receiver : Receiver σ) (start : Bool × σ) (numbers : List Int) (reader : Reader σ) :
    Prop where
  pending : reader.pending = literalsOf ((Text.pieces (· == 0) numbers).getLastD [])
  found : reader.found + 1 = (Text.pieces (· == 0) numbers).length
  handed : (reader.accepting, reader.receiver) =
    receiver.handAll (Text.pieces (· == 0) numbers).dropLast start

/-- A receiver that has refused a clause is handed no more. -/
theorem Receiver.foldl_hand_refused (receiver : Receiver σ) (clauses : List (Array Literal))
    (state : σ) : clauses.foldl receiver.hand (false, state) = (false, state) := by
  induction clauses with
  | nil => rfl
  | cons clause rest ih => exact ih

private theorem Receiver.handAll_append_singleton (receiver : Receiver σ) (clauses : List (List Int))
    (last : List Int) (state : Bool × σ) :
    receiver.handAll (clauses ++ [last]) state =
      receiver.hand (receiver.handAll clauses state) (literalsOf last) := by
  simp [Receiver.handAll]

private theorem dropLast_append_getLastD {pieces : List (List Int)} (some_ : pieces ≠ []) :
    pieces.dropLast ++ [pieces.getLastD []] = pieces := by
  rw [List.getLastD_eq_getLast?, List.getLast?_eq_some_getLast some_]
  exact List.dropLast_concat_getLast some_

namespace Took

variable {start : Bool × σ} {numbers : List Int}

theorem handed_endClause (took : Took receiver start numbers reader) :
    ((reader.endClause receiver).accepting, (reader.endClause receiver).receiver) =
      receiver.handAll (Text.pieces (· == 0) numbers) start := by
  obtain ⟨first, others, shape⟩ := Text.exists_pieces_eq_cons numbers
  have some_ : Text.pieces (· == 0) numbers ≠ [] := by
    rw [shape]
    simp
  rw [Reader.handed_endClause, took.handed, took.pending, ← Receiver.handAll_append_singleton,
    dropLast_append_getLastD some_]

theorem take (took : Took receiver start numbers reader) {number : Int}
    (small : number.natAbs ≤ 9223372036854775808) :
    Took receiver start (numbers ++ [number]) (reader.take receiver number) := by
  obtain ⟨pending, found, handed⟩ := took
  by_cases zero : number = 0
  · subst zero
    have cut : Text.pieces (· == 0) (numbers ++ [0]) = Text.pieces (· == 0) numbers ++ [[]] := by
      simpa using @Text.pieces_append_singleton _ (· == 0) numbers (0 : Int)
    refine ⟨?_, ?_, ?_⟩ <;> rw [cut]
    · rw [List.getLastD_concat]
      exact Reader.pending_endClause
    · rw [List.length_append, ← found]
      exact congrArg (· + 1) Reader.found_endClause
    · rw [List.dropLast_concat]
      exact handed_endClause ⟨pending, found, handed⟩
  · obtain ⟨literal, made, -⟩ := Literal.exists_ofDimacs? zero small
    have taken : reader.take receiver number =
        { reader with pending := reader.pending.push literal } := by
      simp only [Reader.take, made]
    have longer : Text.pieces (· == 0) (numbers ++ [number]) =
        (Text.pieces (· == 0) numbers).dropLast ++
          [(Text.pieces (· == 0) numbers).getLastD [] ++ [number]] := by
      simpa [zero] using @Text.pieces_append_singleton _ (· == 0) numbers number
    obtain ⟨first, others, shape⟩ := @Text.exists_pieces_eq_cons _ (· == 0) numbers
    rw [taken]
    refine ⟨?_, ?_, ?_⟩ <;> rw [longer]
    · rw [List.getLastD_concat, pending]
      simp [literalsOf, made]
    · rw [found, shape]
      simp
    · rw [List.dropLast_concat]
      exact handed

theorem foldl {reader : Reader σ} (took : Took receiver start [] reader) (small : AllSmall numbers) :
    Took receiver start numbers (numbers.foldl (Reader.take receiver) reader) := by
  induction numbers using List.reverseRecOn with
  | nil => exact took
  | append_singleton numbers last ih =>
      rw [List.foldl_append]
      obtain ⟨smallRest, smallLast⟩ := List.forall_mem_append.mp small
      exact (ih smallRest).take (smallLast last (.head _))

private theorem pending_isEmpty (took : Took receiver start numbers reader)
    (small : AllSmall numbers) :
    reader.pending = #[] ↔ (Text.pieces (· == 0) numbers).getLast? = some [] := by
  obtain ⟨first, others, shape⟩ := @Text.exists_pieces_eq_cons _ (· == 0) numbers
  have some_ : Text.pieces (· == 0) numbers ≠ [] := by
    rw [shape]
    simp
  have member := List.getLast_mem some_
  rw [took.pending, List.getLastD_eq_getLast?, List.getLast?_eq_some_getLast some_]
  refine (literalsOf_eq_empty_iff ?_ ?_).trans (by simp)
  · exact fun number inPiece => small number (Text.of_mem_pieces member inPiece).1
  · intro number inPiece
    simpa using (Text.of_mem_pieces member inPiece).2

theorem finish (took : Took receiver start numbers reader) (small : AllSmall numbers)
    (known : reader.header = some header) :
    ((reader.finish receiver).1 = none ↔ (clausesOf numbers).length = header.clauseCount) ∧
      ((reader.finish receiver).2.accepting, (reader.finish receiver).2.receiver) =
        receiver.handAll (clausesOf numbers) start := by
  have count := took.found
  by_cases ended : (Text.pieces (· == 0) numbers).getLast? = some []
  · have closed : reader.pending.isEmpty = true := by
      simpa using (took.pending_isEmpty small).mpr ended
    have clauses : clausesOf numbers = (Text.pieces (· == 0) numbers).dropLast := if_pos ended
    have found : reader.found = (clausesOf numbers).length := by
      rw [clauses, List.length_dropLast]
      omega
    simp only [Reader.finish, known, closed, ↓reduceIte, found]
    split
    · next equal => exact ⟨by simp [equal], clauses ▸ took.handed⟩
    · next differs => exact ⟨by simp [differs], clauses ▸ took.handed⟩
  · have open_ : reader.pending.isEmpty = false := by
      simpa using mt (took.pending_isEmpty small).mp ended
    have clauses : clausesOf numbers = Text.pieces (· == 0) numbers := if_neg ended
    have found : (reader.endClause receiver).found = (clausesOf numbers).length := by
      rw [clauses, Reader.found_endClause]
      exact count
    simp only [Reader.finish, known, open_, Bool.false_eq_true, ↓reduceIte, found]
    split
    · next equal => exact ⟨by simp [equal], clauses ▸ took.handed_endClause⟩
    · next differs => exact ⟨by simp [differs], clauses ▸ took.handed_endClause⟩

end Took

private theorem allSmall_of_numbers? {lines : List (List Char)} {numbers : List Int}
    (spelled : numbers? lines = some numbers) : AllSmall numbers := by
  unfold numbers? at spelled
  generalize lines.flatMap Text.words = words at spelled
  induction words generalizing numbers with
  | nil =>
      cases spelled
      exact fun number member => absurd member (by simp)
  | cons word rest ih =>
      cases first : Text.signed? word with
      | none => simp [List.mapM_cons, first] at spelled
      | some number =>
          rw [Reader.mapM_signed?_cons rest first] at spelled
          obtain ⟨others, spelledRest, rfl⟩ := Option.map_eq_some_iff.mp spelled
          exact List.forall_mem_cons.mpr ⟨Text.natAbs_le_of_signed? first, ih spelledRest⟩

/-! ## Reading a text -/

def Reader.begun (receiver : Receiver σ) (header : Header) (reader : Reader σ) : Reader σ :=
  { reader with
    header := some header
    receiver := receiver.createVariables header.variableCount reader.receiver
    events := .headerRead header.variableCount header.clauseCount :: reader.events }

private theorem ofWords?_eq_none {words : List (List Char)} (kind : lineKind words ≠ .header) :
    Header.ofWords? memory words = none := by
  unfold Header.ofWords?
  split
  · next tag format first second =>
    split
    · next spelled =>
      rw [spelled.1] at kind
      exact absurd rfl kind
    · rfl
  · rfl

private theorem bind_documentOf?_cons (line : List Char) (content : Option (List (List Char))) :
    (content.map (line :: ·)).bind (documentOf? memory) =
      (Header.ofWords? memory (Text.words line)).bind fun header =>
        (content.bind numbers?).bind header.document? := by
  cases content with
  | none => cases Header.ofWords? memory (Text.words line) <;> rfl
  | some lines =>
      simp only [Option.map_some, Option.bind_some, documentOf?]
      cases Header.ofWords? memory (Text.words line) with
      | none => rfl
      | some header => cases numbers? lines <;> rfl

private theorem readLine_of_header (unread : reader.header = none) (number : Nat)
    {words : List (List Char)} (spelled : Header.ofWords? memory words = some header) :
    reader.readLine memory receiver number words = (none, reader.begun receiver header) := by
  have kind : lineKind words = .header := by
    apply Classical.byContradiction
    intro other
    rw [ofWords?_eq_none other] at spelled
    cases spelled
  simp only [Reader.readLine, kind, Reader.readHeader, unread, spelled]
  rfl

/-- Before the header, a line that holds content and is no header is an error. -/
theorem exists_readLine_error {line : List Char} (number : Nat) (unmarked : isEndMark line = false)
    (content : isContent line = true) (spelled : Header.ofWords? memory (Text.words line) = none) :
    ∃ error : ReadError, error.isWordError = false ∧
      ∀ {σ : Type} (receiver : Receiver σ) (reader : Reader σ), reader.header = none →
        reader.readLine memory receiver number (Text.words line) = (some error, reader) := by
  rcases lineKind_of_content unmarked content with kind | kind
  · refine ⟨.invalidHeader number, rfl, fun receiver reader unread => ?_⟩
    simp [Reader.readLine, kind, Reader.readHeader, unread, spelled]
  · refine ⟨.missingHeader number, rfl, fun receiver reader unread => ?_⟩
    simp [Reader.readLine, kind, unread]

def Opening.skipping {lines : List (Option (List Char))} (opening : Opening memory lines)
    (line : List Char)
    (skipped : isContent line = false) : Opening memory (some line :: lines) :=
  { opening with
    skipped := line :: opening.skipped
    lines_eq := congrArg (some line :: ·) opening.lines_eq
    skip := List.forall_mem_cons.mpr ⟨skipped, opening.skip⟩ }

/-- Up to the header, reading leaves the receiver alone. It goes on after the opening of the text, and
fails if there is none. -/
theorem readLines_opening (memory : Memory) (number : Nat) (lines : List (Option (List Char))) :
    (∃ opening : Opening memory lines,
      (contentLines? lines).bind (documentOf? memory) =
        ((contentLines? opening.rest).bind numbers?).bind opening.header.document? ∧
      ∀ {σ : Type} (receiver : Receiver σ) (reader : Reader σ), reader.header = none →
        Reader.readLines memory receiver number lines reader =
          Reader.readLines memory receiver (number + opening.skipped.length + 1) opening.rest
            (reader.begun receiver opening.header)) ∨
    ∃ error : ReadError, error.isWordError = false ∧
      (contentLines? lines).bind (documentOf? memory) = none ∧
      ∀ {σ : Type} (receiver : Receiver σ) (reader : Reader σ), reader.header = none →
        Reader.readLines memory receiver number lines reader = (some error, reader) := by
  induction lines generalizing number with
  | nil =>
      refine .inr ⟨.missingHeader 0, rfl, rfl, fun receiver reader unread => ?_⟩
      simp [Reader.readLines, Reader.finish, unread]
  | cons line rest ih =>
      cases line with
      | none =>
          rw [contentLines?_unreadable]
          exact .inr ⟨.unreadable number, rfl, rfl, fun receiver reader _ => rfl⟩
      | some line =>
          cases mark : isEndMark line with
          | true =>
              rw [contentLines?_of_mark rest mark]
              refine .inr ⟨.missingHeader 0, rfl, rfl, fun receiver reader unread => ?_⟩
              rw [readLines_of_mark number rest reader mark]
              simp [Reader.finish, unread]
          | false =>
              cases content : isContent line with
              | false =>
                  rw [contentLines?_of_skipped rest mark content]
                  rcases ih (number + 1) with ⟨opening, same, goesOn⟩ | ⟨error, kind, none_, stops⟩
                  · refine .inl ⟨opening.skipping line content, same, ?_⟩
                    intro σ receiver reader unread
                    rw [readLines_of_skipped number rest reader content,
                      goesOn receiver reader unread]
                    simp [Opening.skipping, Nat.add_assoc, Nat.add_comm 1]
                  · refine .inr ⟨error, kind, none_, fun receiver reader unread => ?_⟩
                    rw [readLines_of_skipped number rest reader content]
                    exact stops receiver reader unread
              | true =>
                  rw [contentLines?_of_content rest mark content, bind_documentOf?_cons]
                  cases spelled : Header.ofWords? memory (Text.words line) with
                  | none =>
                      obtain ⟨error, kind, stops⟩ := exists_readLine_error number mark content spelled
                      refine .inr ⟨error, kind, rfl, fun receiver reader unread => ?_⟩
                      rw [readLines_of_content number rest reader mark,
                        stops receiver reader unread]
                      rfl
                  | some header =>
                      refine .inl ⟨⟨[], line, rest, header, rfl, by simp, spelled⟩, rfl, ?_⟩
                      intro σ receiver reader unread
                      rw [readLines_of_content number rest reader mark,
                        readLine_of_header unread number spelled]
                      rfl

/-- Reading fails if the text is no document, and else it takes the numbers after the header. -/
theorem readLines_or (memory : Memory) (receiver : Receiver σ) (unread : reader.header = none)
    (number : Nat) (lines : List (Option (List Char))) :
    (∃ header content numbers,
      (contentLines? lines).bind (documentOf? memory) = header.document? numbers ∧
      numbers? content = some numbers ∧
      (∀ number ∈ numbers, number.natAbs ≤ header.variableCount) ∧
      Reader.readLines memory receiver number lines reader =
        Reader.finish receiver
          (numbers.foldl (Reader.take receiver) (reader.begun receiver header))) ∨
    ((Reader.readLines memory receiver number lines reader).1 ≠ none ∧
      (contentLines? lines).bind (documentOf? memory) = none) := by
  rcases readLines_opening memory number lines with ⟨opening, same, goesOn⟩ | ⟨error, -, none_, stops⟩
  · rw [goesOn receiver reader unread, same]
    rcases follows_readLines memory receiver
      (rfl : (reader.begun receiver opening.header).header = some opening.header)
      (number + opening.skipped.length + 1) opening.rest with
      ⟨numbers, all, inside, ended⟩ | ⟨failed, outside⟩
    · obtain ⟨content, -, read⟩ := Option.bind_eq_some_iff.mp all
      exact .inl ⟨opening.header, content, numbers, by rw [all]; rfl, read, inside, ended⟩
    · refine .inr ⟨failed, Option.bind_eq_none_iff.mpr fun numbers all => ?_⟩
      exact if_neg fun fits => outside numbers all fits.1
  · rw [stops receiver reader unread]
    exact .inr ⟨by simp, none_⟩

/-- Reading accepts a text if and only if it spells a document, whatever the receiver answers. The
receiver has then made room for the variables and been handed the clauses. -/
theorem read_spec (memory : Memory) (receiver : Receiver σ) (source : Source) (state : σ) :
    match document? memory source with
    | none => (read memory receiver source state).1 ≠ none
    | some document => ∃ reader, read memory receiver source state = (none, reader) ∧
        (reader.accepting, reader.receiver) = receiver.handAll document.clauses
          (true, receiver.createVariables document.header.variableCount state) := by
  let start : Reader σ := { receiver := state }
  rcases readLines_or memory receiver (rfl : start.header = none) 1 source.lines with
    ⟨header, content, numbers, same, spelled, inside, done⟩ | ⟨failed, none_⟩
  · have small := allSmall_of_numbers? spelled
    have took : Took receiver (true, receiver.createVariables header.variableCount state) numbers
        (numbers.foldl (Reader.take receiver) (start.begun receiver header)) :=
      Took.foldl ⟨rfl, rfl, rfl⟩ small
    obtain ⟨counted, handed⟩ := took.finish small (Reader.header_foldl_take numbers)
    have result : read memory receiver source state = Reader.finish receiver _ := done
    unfold document?
    rw [same, result]
    by_cases right : (clausesOf numbers).length = header.clauseCount
    · have fits : header.document? numbers = some { header, clauses := clausesOf numbers } :=
        if_pos ⟨inside, right⟩
      rw [fits]
      exact ⟨_, Prod.ext (counted.mpr right) rfl, handed⟩
    · have wrong : header.document? numbers = none := if_neg fun fits => right fits.2
      rw [wrong]
      exact fun none_ => right (counted.mp none_)
  · have nothing : document? memory source = none := none_
    rw [nothing]
    exact failed

theorem exists_document_of_read {source : Source} {state : σ}
    (accepted : (read memory receiver source state).1 = none) :
    ∃ document, document? memory source = some document := by
  have spec := read_spec memory receiver source state
  cases spelled : document? memory source with
  | none =>
      rw [spelled] at spec
      exact absurd accepted spec
  | some document => exact ⟨document, rfl⟩

theorem ofWords?_eq_some_iff {words : List (List Char)} :
    Header.ofWords? memory words = some header ↔
      ∃ first second, words = [['p'], ['c', 'n', 'f'], first, second] ∧
        Text.unsigned? first = some header.variableCount ∧
        Text.unsigned? second = some header.clauseCount ∧ memory.holds header.variableCount = true := by
  constructor
  · intro spelled
    unfold Header.ofWords? at spelled
    split at spelled
    · next tag format first second =>
      split at spelled
      · next named =>
        obtain ⟨rfl, rfl⟩ := named
        split at spelled
        · next variableCount clauseCount readFirst readSecond =>
          split at spelled
          · next room =>
            cases spelled
            exact ⟨first, second, rfl, readFirst, readSecond, room⟩
          · cases spelled
        · cases spelled
      · cases spelled
    · cases spelled
  · rintro ⟨first, second, rfl, readFirst, readSecond, room⟩
    simp [Header.ofWords?, readFirst, readSecond, room]

theorem lt_of_ofWords? {words : List (List Char)}
    (spelled : Header.ofWords? memory words = some header) :
    header.variableCount < variableLimit := by
  obtain ⟨_, _, -, -, -, room⟩ := ofWords?_eq_some_iff.mp spelled
  exact Memory.lt_of_holds room

/-- The parts of a text that spells a document. -/
theorem document?_eq_some_iff {source : Source} {document : Document} :
    document? memory source = some document ↔
      ∃ title body numbers, contentLines? source.lines = some (title :: body) ∧
        Header.ofWords? memory (Text.words title) = some document.header ∧
        numbers? body = some numbers ∧
        (∀ number ∈ numbers, number.natAbs ≤ document.header.variableCount) ∧
        (clausesOf numbers).length = document.header.clauseCount ∧
        document.clauses = clausesOf numbers := by
  constructor
  · intro spelled
    obtain ⟨content, found, spelled⟩ := Option.bind_eq_some_iff.mp spelled
    unfold documentOf? at spelled
    split at spelled
    · cases spelled
    · next title body =>
      split at spelled
      · next header numbers named read =>
        unfold Header.document? at spelled
        split at spelled
        · next fits =>
          cases spelled
          exact ⟨title, body, numbers, found, named, read, fits.1, fits.2, rfl⟩
        · cases spelled
      · cases spelled
  · obtain ⟨header, clauses⟩ := document
    rintro ⟨title, body, numbers, found, named, read, inside, counted, rfl⟩
    simp only at inside counted
    simp only [document?, found, Option.bind_some, documentOf?, named, read]
    exact if_pos ⟨inside, counted⟩

theorem mem_pieces_of_mem_clausesOf {numbers clause : List Int}
    (member : clause ∈ clausesOf numbers) :
    clause ∈ Text.pieces (· == 0) numbers := by
  dsimp only [clausesOf] at member
  split at member
  · exact List.dropLast_subset _ member
  · exact member

/-- The numbers of a document are those of its variables, of which there are not too many. -/
theorem document?_bounds {source : Source} {document : Document}
    (spelled : document? memory source = some document) :
    document.header.variableCount < variableLimit ∧
      ∀ clause ∈ document.clauses, ∀ number ∈ clause,
        number ≠ 0 ∧ number.natAbs ≤ document.header.variableCount := by
  obtain ⟨title, body, numbers, -, named, -, inside, -, same⟩ := document?_eq_some_iff.mp spelled
  refine ⟨lt_of_ofWords? named, fun clause member number inClause => ?_⟩
  rw [same] at member
  obtain ⟨given, nonzero⟩ := Text.of_mem_pieces (mem_pieces_of_mem_clausesOf member) inClause
  exact ⟨by simpa using nonzero, inside number given⟩

end Dimacs

end Dpll
