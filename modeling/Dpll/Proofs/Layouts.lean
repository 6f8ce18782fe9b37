import Dpll.Dimacs.Layout
import Dpll.Proofs.Grammar

/-!
# Reading back what was written

A formula can be laid out in many ways, and reading undoes each of them: lines are found again between
line feeds, words between blanks, clauses between zeros, and every literal in its numeral.
-/

set_option autoImplicit false

namespace Dpll

namespace Text

private theorem words_append_of_blank {blanks : List Char}
    (blank : ∀ char ∈ blanks, isBlank char = true)
    (rest : List Char) : words (blanks ++ rest) = words rest := by
  induction blanks with
  | nil => rfl
  | cons char blanks ih =>
      obtain ⟨first, others⟩ := List.forall_mem_cons.mp blank
      rw [List.cons_append, words_cons_of_blank _ first, ih others]

private theorem words_append {word rest : List Char} (nonempty : word ≠ [])
    (solid : ∀ char ∈ word, isBlank char = false) (apart : ∀ char ∈ rest.head?, isBlank char = true) :
    words (word ++ rest) = word :: words rest := by
  cases rest with
  | nil => simp [words, pieces_eq_splitOnP, List.splitOnP_eq_singleton solid, nonempty]
  | cons char rest =>
      have blank := apart char rfl
      rw [words_cons_of_blank rest blank]
      simp [words, pieces_eq_splitOnP,
        List.splitOnP_append_cons_of_forall_mem solid char blank, nonempty]

private theorem isBlank_of_isDigit {char : Char} (isDigit : char.isDigit = true) :
    isBlank char = false := by
  have table : ∀ digit < 10, isBlank (Nat.digitChar digit) = false := by decide
  obtain ⟨digit, small, rfl⟩ := exists_digitChar isDigit
  exact table digit small

private theorem Decimal.solid {text : List Char} {number : Nat} (decimal : Decimal text number) :
    text ≠ [] ∧ ∀ char ∈ text, isBlank char = false := by
  obtain ⟨digits, nonempty, small, rfl, -⟩ := decimal
  refine ⟨by simpa using nonempty, ?_⟩
  rintro char member
  obtain ⟨digit, inDigits, rfl⟩ := List.mem_map.mp member
  exact isBlank_of_isDigit (by simpa [Nat.isDigit_digitChar] using small digit inDigits)

theorem Signed.head {char : Char} {rest : List Char} {value : Int}
    (signed : Signed (char :: rest) value) : char ≠ 'c' ∧ char ≠ '%' := by
  cases signed with
  | plain decimal =>
      have isDigit := decimal.head_isDigit
      constructor <;> rintro rfl <;> exact absurd isDigit (by decide)
  | plus => decide
  | minus => decide

end Text

namespace Dimacs

/-! ## Words of a line -/

theorem Spaced.words_eq {words : List (List Char)} {line : List Char} (spaced : Spaced words line) :
    Text.words line = words := by
  induction spaced with
  | nil blank =>
      have same := Text.words_append_of_blank blank []
      rwa [List.append_nil] at same
  | cons blank nonempty solid apart _ ih =>
      rw [Text.words_append_of_blank blank, Text.words_append nonempty solid apart, ih]

private theorem Spaced.cons_blank {words : List (List Char)} {line : List Char} {char : Char}
    (blank : Text.isBlank char = true) (spaced : Spaced words line) : Spaced words (char :: line) := by
  cases spaced with
  | nil others => exact .nil (List.forall_mem_cons.mpr ⟨blank, others⟩)
  | @cons blanks _ _ _ others nonempty solid apart rest =>
      have allBlank : ∀ other ∈ char :: blanks, Text.isBlank other = true :=
        List.forall_mem_cons.mpr ⟨blank, others⟩
      exact @Spaced.cons (char :: blanks) _ _ _ allBlank nonempty solid apart rest

private theorem spaced_words (line : List Char) : Spaced (Text.words line) line := by
  induction size : line.length using Nat.strong_induction_on generalizing line with
  | _ size ih =>
  subst size
  cases line with
  | nil => exact .nil (by simp)
  | cons char rest =>
      cases blank : Text.isBlank char with
      | true =>
          rw [Text.words_cons_of_blank rest blank]
          exact (ih _ (Nat.lt_succ_self _) rest rfl).cons_blank blank
      | false =>
          have cut : (char :: rest.takeWhile (!Text.isBlank ·)) ++ rest.dropWhile (!Text.isBlank ·) =
              char :: rest := congrArg _ List.takeWhile_append_dropWhile
          have solid : ∀ other ∈ char :: rest.takeWhile (!Text.isBlank ·),
              Text.isBlank other = false := by
            refine List.forall_mem_cons.mpr ⟨blank, fun other member => ?_⟩
            simpa using List.all_eq_true.mp List.all_takeWhile other member
          have apart : ∀ other ∈ (rest.dropWhile (!Text.isBlank ·)).head?,
              Text.isBlank other = true := by
            intro other found
            have stopped := List.head?_dropWhile_not (!Text.isBlank ·) rest
            rw [found] at stopped
            simpa using stopped
          have shorter := Nat.lt_succ_of_le (rest.dropWhile_sublist (!Text.isBlank ·)).length_le
          rw [← cut, Text.words_append (by simp) solid apart]
          exact @Spaced.cons [] _ _ _ (by simp) (by simp) solid apart (ih _ shorter _ rfl)

private theorem spaced_iff {words : List (List Char)} {line : List Char} :
    Spaced words line ↔ Text.words line = words :=
  ⟨Spaced.words_eq, fun same => same ▸ spaced_words line⟩

instance (words : List (List Char)) (line : List Char) : Decidable (Spaced words line) :=
  decidable_of_iff _ spaced_iff.symm

/-! ## Words of a formula -/

private theorem clauseText_eq (clause : List Literal) :
    clauseText clause = clause.foldr (fun literal rest => literal.text ++ " " ++ rest) "0" := by
  cases clause with
  | nil => rfl
  | cons literal clause => simp [clauseText, Clause.ofLiterals?, Clause.text]

private theorem text_solid (literal : Literal) :
    literal.text.toList ≠ [] ∧ ∀ char ∈ literal.text.toList, Text.isBlank char = false := by
  obtain ⟨nonempty, solid⟩ := (Text.decimal_toString (literal.var + 1)).solid
  unfold Literal.text
  split
  · split
    · exact ⟨nonempty, solid⟩
    · rw [String.toList_append]
      refine ⟨by simp, ?_⟩
      exact List.forall_mem_append.mpr ⟨by simp [Text.isBlank, Text.blankRanges], solid⟩
  · simp [Text.isBlank, Text.blankRanges]

private theorem clauseWords_eq (clause : List Literal) :
    clauseWords clause = clause.map (·.text.toList) ++ [['0']] := by
  rw [clauseWords, clauseText_eq]
  induction clause with
  | nil => decide +kernel
  | cons literal clause ih =>
      obtain ⟨nonempty, solid⟩ := text_solid literal
      have blank : ∀ char ∈ " ".toList, Text.isBlank char = true := by
        simp [Text.isBlank, Text.blankRanges]
      rw [List.foldr_cons, String.append_assoc, String.toList_append, String.toList_append,
        Text.words_append nonempty solid (by simp [Text.isBlank, Text.blankRanges]),
        Text.words_append_of_blank blank, ih]
      rfl

/-- A literal whose number is that of a signed word is printed as a numeral of it. -/
theorem signed_text {literal : Literal} (fits : literal.var + 1 < 2 ^ 63) :
    Text.Signed literal.text.toList literal.toDimacs := by
  have bound : literal.code / 2 + 1 < 2 ^ 63 := fits
  have valid : literal.isValid = true := by
    refine bne_iff_ne.mpr fun reserved => ?_
    change literal.code = 18446744073709551615 at reserved
    omega
  have decimal := Text.decimal_toString (literal.var + 1)
  rw [Literal.text, if_pos valid, Literal.toDimacs]
  cases literal.positive with
  | true => exact .plain decimal fits
  | false =>
      rw [if_neg Bool.false_ne_true, if_neg Bool.false_ne_true, String.toList_append]
      exact .minus decimal (Nat.le_of_lt fits)

section Formula

variable {variableCount : Nat} {formula : List (List Literal)}

private theorem signed_literals {clause : List Literal}
    (small : ∀ literal ∈ clause, literal.var < variableLimit) :
    List.Forall₂ Text.Signed (clause.map (·.text.toList)) (clause.map Literal.toDimacs) := by
  rw [List.forall₂_map_left_iff, List.forall₂_map_right_iff, List.forall₂_same]
  exact fun literal member =>
    signed_text (Nat.lt_of_le_of_lt (Nat.succ_le_of_lt (small literal member)) (by decide))

private theorem signed_zero : Text.Signed ['0'] 0 := Text.signed?_eq_some_iff.mp rfl

private theorem signed_formulaWords (small : Declares variableLimit formula) :
    List.Forall₂ Text.Signed (formulaWords formula)
      ((formula.map (·.map Literal.toDimacs)).flatMap (· ++ [0])) := by
  induction formula with
  | nil => exact .nil
  | cons clause formula ih =>
      obtain ⟨first, others⟩ := List.forall_mem_cons.mp small
      rw [formulaWords, List.flatMap_cons, clauseWords_eq, List.map_cons, List.flatMap_cons]
      exact List.rel_append (List.rel_append (signed_literals first) (.cons signed_zero .nil))
        (ih others)

/-- The numbers that the words of a formula spell are separated by zeros as its clauses are. -/
theorem Spells.exists_numbers {words : List (List Char)} (spells : Spells formula words)
    (small : Declares variableLimit formula) :
    ∃ numbers, List.Forall₂ Text.Signed words numbers ∧
      Separated (formula.map (·.map Literal.toDimacs)) numbers := by
  have nonzero : ∀ group ∈ formula.map (·.map Literal.toDimacs), 0 ∉ group := by
    simp [toDimacs_ne_zero]
  cases spells with
  | ended => exact ⟨_, signed_formulaWords small, nonzero, .inl rfl⟩
  | @unended front last words nonempty cut =>
      obtain ⟨smallFront, smallLast⟩ := List.forall_mem_append.mp small
      rw [clauseWords_eq] at cut
      have same := List.append_cancel_right cut
      subst same
      refine ⟨_, List.rel_append (signed_formulaWords smallFront)
        (signed_literals (smallLast last (List.mem_singleton.mpr rfl))), nonzero, .inr ⟨?_, ?_⟩⟩
      · simp
      · exact ⟨last.map Literal.toDimacs, by simp, by simpa using nonempty⟩

private theorem Separated.eq_zero_or_mem {groups : List (List Int)} {numbers : List Int}
    {number : Int}
    (separated : Separated groups numbers) (member : number ∈ numbers) :
    number = 0 ∨ ∃ group ∈ groups, number ∈ group := by
  have all : number ∈ groups.flatMap (· ++ [0]) := by
    rcases separated.joined with same | ⟨same, -⟩
    · rwa [← same]
    · rw [← same]
      exact List.mem_append_left _ member
  obtain ⟨group, inGroups, inGroup⟩ := List.mem_flatMap.mp all
  rcases List.mem_append.mp inGroup with inGroup | zero
  · exact .inr ⟨group, inGroups, inGroup⟩
  · exact .inl (List.mem_singleton.mp zero)

private theorem natAbs_le_of_separated {numbers : List Int} (within : Declares variableCount formula)
    (separated : Separated (formula.map (·.map Literal.toDimacs)) numbers) :
    ∀ number ∈ numbers, number.natAbs ≤ variableCount := by
  intro number member
  rcases separated.eq_zero_or_mem member with rfl | ⟨group, inGroups, inGroup⟩
  · exact Nat.zero_le _
  · obtain ⟨clause, inFormula, rfl⟩ := List.mem_map.mp inGroups
    obtain ⟨literal, inClause, rfl⟩ := List.mem_map.mp inGroup
    rw [natAbs_toDimacs]
    exact within clause inFormula literal inClause

end Formula

/-! ## Lines of a layout -/

private theorem isEndMark_of_skipped {line : List Char} (skipped : isContent line = false) :
    isEndMark line = false := by
  unfold isContent at skipped
  unfold isEndMark
  grind

private theorem initial?_of_words {line : List Char} {char : Char} {word : List Char}
    {others : List (List Char)} (shape : Text.words line = (char :: word) :: others) :
    initial? line = some char := by
  have known := words_of_initial? line
  cases first : initial? line with
  | none =>
      simp only [first, shape] at known
      cases known
  | some other =>
      simp only [first, shape] at known
      obtain ⟨_, _, same⟩ := known
      cases same
      rfl

theorem Laid.content {words lines : List (List Char)} (laid : Laid words lines) {numbers : List Int}
    (spelled : List.Forall₂ Text.Signed words numbers) :
    (lines.filter isContent).flatMap Text.words = words ∧ ∀ line ∈ lines, isEndMark line = false := by
  induction laid generalizing numbers with
  | nil => exact ⟨rfl, by simp⟩
  | skip skipped _ ih =>
      obtain ⟨same, unmarked⟩ := ih spelled
      refine ⟨?_, List.forall_mem_cons.mpr ⟨isEndMark_of_skipped skipped, unmarked⟩⟩
      rw [List.filter_cons_of_neg (by simp [skipped]), same]
  | @line line front words lines spaced _ ih =>
      have later := List.forall₂_drop front.length spelled
      rw [List.drop_left] at later
      obtain ⟨same, unmarked⟩ := ih later
      have shape := words_of_initial? line
      cases first : initial? line with
      | none =>
          simp only [first, spaced.words_eq] at shape
          refine ⟨?_, List.forall_mem_cons.mpr ⟨by simp [isEndMark, first], unmarked⟩⟩
          rw [List.filter_cons_of_neg (by simp [isContent, first]), same, shape, List.nil_append]
      | some char =>
          simp only [first, spaced.words_eq] at shape
          obtain ⟨word, rest, rfl⟩ := shape
          obtain ⟨_, _, signed, -, -⟩ := List.forall₂_cons_left_iff.mp spelled
          obtain ⟨noComment, noMark⟩ := signed.head
          refine ⟨?_, List.forall_mem_cons.mpr ⟨by simp [isEndMark, first, noMark], unmarked⟩⟩
          rw [List.filter_cons_of_pos (by simp [isContent, first, noComment]), List.flatMap_cons,
            spaced.words_eq, same]

/-! ## Lines from bytes -/

private theorem feed_of_mem_utf8EncodeChar {char : Char}
    (member : (10 : UInt8) ∈ String.utf8EncodeChar char) : char = '\n' := by
  have byte {value : Nat} (same : (10 : UInt8) = UInt8.ofNat value) : value % 256 = 10 := by
    simpa using (congrArg UInt8.toNat same).symm
  unfold String.utf8EncodeChar at member
  dsimp only at member
  split at member
  · have value := byte (List.mem_singleton.mp member)
    refine Char.toNat_inj.mp ?_
    change char.val.toNat = 10
    omega
  · exfalso
    split at member
    · simp only [List.mem_cons, List.not_mem_nil, or_false] at member
      rcases member with same | same <;> have value := byte same <;> omega
    · split at member
      · simp only [List.mem_cons, List.not_mem_nil, or_false] at member
        rcases member with same | same | same <;> have value := byte same <;> omega
      · simp only [List.mem_cons, List.not_mem_nil, or_false] at member
        rcases member with same | same | same | same <;> have value := byte same <;> omega

def encode (text : List Char) : List UInt8 := text.flatMap String.utf8EncodeChar

private theorem encode_append (front back : List Char) :
    encode (front ++ back) = encode front ++ encode back := List.flatMap_append

private theorem feed_notMem_encode {line : List Char} (unbroken : '\n' ∉ line) :
    10 ∉ encode line := by
  intro member
  obtain ⟨char, inLine, inChar⟩ := List.mem_flatMap.mp member
  exact unbroken (feed_of_mem_utf8EncodeChar inChar ▸ inLine)

private theorem encode_eq_nil_iff {line : List Char} : encode line = [] ↔ line = [] := by
  cases line with
  | nil => simp [encode]
  | cons char line =>
      obtain ⟨byte, rest, shape⟩ := List.exists_cons_of_ne_nil (@String.utf8EncodeChar_ne_nil char)
      simp [encode, shape]

private theorem decodeLine?_encode (line : List Char) : decodeLine? (encode line) = some line := by
  have bytes : (⟨(encode line).toArray⟩ : ByteArray) = line.utf8Encode :=
    ByteArray.ext (Array.toList_inj.mp (by simp [encode, List.utf8Encode]))
  have text : String.fromUTF8 line.utf8Encode ByteArray.isValidUTF8_utf8Encode = String.ofList line :=
    rfl
  rw [decodeLine?, bytes, String.fromUTF8?, dif_pos ByteArray.isValidUTF8_utf8Encode, text,
    Option.map_some, String.toList_ofList]

private theorem encode_intercalate (lines : List (List Char)) :
    encode (List.intercalate ['\n'] lines) = List.intercalate [10] (lines.map encode) := by
  induction lines with
  | nil => rfl
  | cons line lines ih =>
      cases lines with
      | nil => simp
      | cons next lines =>
          have feed : encode ['\n'] = [10] := rfl
          rw [List.intercalate_cons_cons, encode_append, encode_append, ih, feed]
          exact List.intercalate_cons_cons.symm

private theorem pieces_encodeLines {lines : List (List Char)} (nonempty : lines ≠ [])
    (unbroken : ∀ line ∈ lines, '\n' ∉ line) :
    Text.pieces (· == 10) (encodeLines lines).data.toList = lines.map encode := by
  have bytes : (encodeLines lines).data.toList = encode (List.intercalate ['\n'] lines) := by
    simp [encodeLines, String.toUTF8, List.utf8Encode, encode]
  rw [Text.pieces_eq_splitOnP, bytes, encode_intercalate]
  refine List.splitOn_intercalate 10 ?_ (by simpa using nonempty)
  intro piece member
  obtain ⟨line, inLines, rfl⟩ := List.mem_map.mp member
  exact feed_notMem_encode (unbroken line inLines)

private theorem lines_of_pieces {source : Source} {front : List (List Char)}
    {back : List (List UInt8)}
    {last : List UInt8}
    (cut : Text.pieces (· == 10) source.bytes.data.toList = front.map encode ++ (back ++ [last])) :
    source.lines = front.map some ++ (back.map decodeLine? ++ Source.rest source.broken last) := by
  simp [Source.lines, cut, ← List.append_assoc, decodeLine?_encode, Function.comp_def]

private theorem rest_encode (line : List Char) :
    Source.rest false (encode line) = if line = [] then [] else [some line] := by
  simp [Source.rest, encode_eq_nil_iff, decodeLine?_encode]

private theorem ne_nil_of_isEndMark {mark : List Char} (marked : isEndMark mark = true) :
    mark ≠ [] := by
  rintro rfl
  cases marked

/-- The lines of a text are found again. An empty line at the end is none. -/
theorem Encodes.lines_eq {lines : List (List Char)} {bytes : ByteArray}
    (encodes : Encodes lines bytes) (nonempty : lines ≠ [])
    (unbroken : ∀ line ∈ lines, '\n' ∉ line) :
    ∃ (text : List (List Char)) (rest : List (Option (List Char))),
      Source.lines { bytes } = text.map some ++ rest ∧
      (rest = [] ∨ ∃ mark later, rest = some mark :: later ∧ isEndMark mark = true) ∧
      (text = lines ∨ text ++ [[]] = lines) := by
  have withMark {mark : List Char} (solid : '\n' ∉ mark) :
      ∀ line ∈ lines ++ [mark], '\n' ∉ line :=
    List.forall_mem_append.mpr ⟨unbroken, by simpa using solid⟩
  cases encodes with
  | whole =>
      obtain ⟨front, last, rfl⟩ := (List.eq_nil_or_concat' lines).resolve_left nonempty
      have cut := pieces_encodeLines nonempty unbroken
      rw [List.map_append] at cut
      have lines := @lines_of_pieces { bytes := encodeLines _ } front [] _ cut
      rw [rest_encode] at lines
      by_cases empty : last = []
      · exact ⟨front, [], by simpa [empty] using lines, .inl rfl, .inr (by rw [empty])⟩
      · exact ⟨front ++ [last], [], by simpa [empty] using lines, .inl rfl, .inl rfl⟩
  | @marked mark marked solid =>
      have cut := pieces_encodeLines (by simp) (withMark solid)
      rw [List.map_append] at cut
      have found := @lines_of_pieces { bytes := encodeLines _ } lines [] _ cut
      rw [rest_encode, if_neg (ne_nil_of_isEndMark marked)] at found
      exact ⟨lines, _, found, .inr ⟨mark, [], rfl, marked⟩, .inl rfl⟩
  | @cut mark later marked solid =>
      have bytes : (encodeLines (lines ++ [mark]) ++ ("\n".toUTF8 ++ later)).data.toList =
          (encodeLines (lines ++ [mark])).data.toList ++ 10 :: later.data.toList := by
        simp [ByteArray.data_append]
        rfl
      have cut : Text.pieces (· == 10)
          (encodeLines (lines ++ [mark]) ++ ("\n".toUTF8 ++ later)).data.toList =
            (lines ++ [mark]).map encode ++ Text.pieces (· == 10) later.data.toList := by
        rw [bytes, ← pieces_encodeLines (by simp) (withMark solid), Text.pieces_eq_splitOnP,
          Text.pieces_eq_splitOnP, Text.pieces_eq_splitOnP, List.splitOnP_append_cons _ _ rfl]
      obtain ⟨front, last, shape⟩ :=
        (List.eq_nil_or_concat' (Text.pieces (· == 10) later.data.toList)).resolve_left
          (by simp [Text.pieces_eq_splitOnP])
      rw [shape] at cut
      have found := @lines_of_pieces { bytes := _ } _ _ _ cut
      rw [List.map_append, List.append_assoc] at found
      exact ⟨lines, _, found, .inr ⟨mark, _, rfl, marked⟩, .inl rfl⟩

/-! ## Reading a layout -/

section Layouts

variable {memory : Memory} {variableCount : Nat} {formula : List (List Literal)} {bytes : ByteArray}

private theorem ofWords?_header (header : Header)
    (allocatable : memory.holds header.variableCount = true)
    (countable : header.clauseCount < 2 ^ 64) :
    Header.ofWords? memory header.words = some header := by
  have small : header.variableCount < 2 ^ 64 :=
    (Memory.lt_of_holds allocatable).trans (by decide)
  exact ofWords?_eq_some_iff.mpr ⟨_, _, rfl,
    Text.unsigned?_eq_some_iff.mpr (.plain (Text.decimal_toString _) small),
    Text.unsigned?_eq_some_iff.mpr (.plain (Text.decimal_toString _) countable), allocatable⟩

namespace Layout

private theorem contentLines?_eq (layout : Layout variableCount formula bytes)
    (unmarked : ∀ line ∈ layout.body, isEndMark line = false) :
    contentLines? (Source.lines { bytes }) =
      some (layout.title :: layout.body.filter isContent) := by
  obtain ⟨text, rest, lines, ended, same⟩ := layout.encodes.lines_eq (by simp) layout.unbroken
  have title : initial? layout.title = some 'p' := initial?_of_words layout.titled.words_eq
  have all : ∀ line ∈ layout.skipped ++ layout.title :: layout.body, isEndMark line = false := by
    refine List.forall_mem_append.mpr ⟨?_, List.forall_mem_cons.mpr ⟨?_, unmarked⟩⟩
    · exact fun line member => isEndMark_of_skipped (layout.skip line member)
    · simp [isEndMark, title]
  have content : (layout.skipped ++ layout.title :: layout.body).filter isContent =
      layout.title :: layout.body.filter isContent := by
    have none_ : layout.skipped.filter isContent = [] :=
      List.filter_eq_nil_iff.mpr fun line member => by simp [layout.skip line member]
    rw [List.filter_append, none_, List.nil_append, List.filter_cons_of_pos (by simp [isContent, title])]
  refine contentLines?_eq_some_iff.mpr ⟨text, rest, lines, ?_, ended, ?_⟩
  · rcases same with rfl | same
    · exact all
    · rw [← same] at all
      exact fun line member => all line (List.mem_append_left _ member)
  · rw [← content]
    rcases same with rfl | same
    · rfl
    · rw [← same, List.filter_append]
      exact (List.append_nil _).symm

theorem document?_eq (layout : Layout variableCount formula bytes)
    (allocatable : memory.holds variableCount = true) (countable : formula.length < 2 ^ 64)
    (within : Declares variableCount formula) :
    document? memory { bytes } = some
      { header := { variableCount, clauseCount := formula.length }
        clauses := formula.map (·.map Literal.toDimacs) } := by
  obtain ⟨numbers, spelled, separated⟩ := layout.spells.exists_numbers
    fun clause member literal inClause =>
      (within clause member literal inClause).trans (Memory.lt_of_holds allocatable)
  obtain ⟨content, unmarked⟩ := layout.laid.content spelled
  refine document?_eq_some_iff.mpr ⟨layout.title, layout.body.filter isContent, numbers,
    layout.contentLines?_eq unmarked, ?_, numbers?_eq_some_iff.mpr (content ▸ spelled),
    natAbs_le_of_separated within separated, ?_, separated.clausesOf_eq.symm⟩
  · rw [layout.titled.words_eq]
    exact ofWords?_header _ allocatable countable
  · rw [separated.clausesOf_eq, List.length_map]

end Layout

variable {σ : Type}

/-- Reading gives back the formula from each way to write it: the receiver is asked to make room for
the variables and then handed the clauses as they were. -/
theorem read_layout (layout : Layout variableCount formula bytes)
    (allocatable : memory.holds variableCount = true) (countable : formula.length < 2 ^ 64)
    (within : Declares variableCount formula) {receiver : Receiver σ} (agreeable : receiver.Agreeable)
    (state : σ) :
    (read memory receiver { bytes } state).1 = none ∧
    calls memory receiver { bytes } state = .createVariables variableCount ::
      formula.map (fun clause => .addClause clause.toArray) ∧
    (read memory receiver { bytes } state).2.receiver =
      formula.foldl (fun state clause => (receiver.addClause clause.toArray state).2)
        (receiver.createVariables variableCount state) := by
  have spelled := layout.document?_eq allocatable countable within
  obtain ⟨accepted, log, final⟩ := exchanges_of_document? spelled receiver state
  have handed : (formula.map (·.map Literal.toDimacs)).map literalsOf = formula.map List.toArray := by
    simp [literalsOf_map_toDimacs]
  rw [handed] at log final
  refine ⟨accepted, ?_, ?_⟩
  · rw [calls, log, List.map_cons, receiver.consult_of_agreeable agreeable, List.map_map]
    rfl
  · rw [final, receiver.snd_consult_of_agreeable agreeable, List.foldl_map]

def spreadClauses : List (List Literal) :=
  [[⟨0, by decide⟩, ⟨3, by decide⟩], [], [⟨2, by decide⟩], [⟨1, by decide⟩, ⟨4, by decide⟩]]

/-- The clauses between comments and various blanks, the last without its zero, before an end mark and
bytes that are no text. -/
def spreadBytes : ByteArray :=
  "c \u00e9\n\np\u00a0cnf 3  4\n1\u2003-2\nc 9\n\t0 0\u000b2 0 -1\u2028 3\n % 7\n".toUTF8 ++
    ⟨#[255, 10, 128]⟩

def spreadLayout : Layout 3 spreadClauses spreadBytes where
  skipped := ["c \u00e9".toList, []]
  title := "p\u00a0cnf 3  4".toList
  body := ["1\u2003-2".toList, "c 9".toList, "\t0 0\u000b2 0 -1\u2028 3".toList]
  words := formulaWords (spreadClauses.take 3) ++ [['-', '1'], ['3']]
  skip := by decide +kernel
  titled := by decide +kernel
  spells := .unended (spreadClauses.take 3) (by decide) (by decide +kernel)
  laid := by
    have words : formulaWords (spreadClauses.take 3) ++ [['-', '1'], ['3']] =
        [['1'], ['-', '2']] ++ ([['0'], ['0'], ['2'], ['0'], ['-', '1'], ['3']] ++ []) := by
      decide +kernel
    rw [words]
    exact .line (by decide +kernel) (.skip (by decide +kernel) (.line (by decide +kernel) .nil))
  unbroken := by decide +kernel
  encodes := by
    have bytes : spreadBytes = encodeLines (["c \u00e9".toList, []] ++ "p\u00a0cnf 3  4".toList ::
        ["1\u2003-2".toList, "c 9".toList, "\t0 0\u000b2 0 -1\u2028 3".toList] ++
          [" % 7".toList]) ++ ("\n".toUTF8 ++ ⟨#[255, 10, 128]⟩) := by
      decide +kernel
    rw [bytes]
    exact .cut _ (by decide +kernel) (by decide)

theorem read_layout_spread :
    (Memory.holds .addressable 3 = true ∧ spreadClauses.length < 2 ^ 64 ∧ Declares 3 spreadClauses ∧
      (transcriptReceiver none true).Agreeable) ∧
    (read .addressable (transcriptReceiver none true) { bytes := spreadBytes } {}).1 = none ∧
    calls .addressable (transcriptReceiver none true) { bytes := spreadBytes } {} =
      .createVariables 3 :: spreadClauses.map (fun clause => .addClause clause.toArray) := by
  have allocatable : Memory.holds .addressable 3 = true := by decide
  have countable : spreadClauses.length < 2 ^ 64 := by decide
  have declared : Declares 3 spreadClauses := by decide
  have agreeable : (transcriptReceiver none true).Agreeable := fun _ _ => rfl
  obtain ⟨accepted, asked, -⟩ :=
    read_layout spreadLayout allocatable countable declared agreeable {}
  exact ⟨⟨allocatable, countable, declared, agreeable⟩, accepted, asked⟩

end Layouts

end Dimacs

end Dpll
