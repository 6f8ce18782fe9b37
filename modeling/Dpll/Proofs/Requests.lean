import Dpll.Dimacs.Receivers
import Dpll.Proofs.Reading

/-!
# Requests to receivers

Reading never looks at what a receiver holds, only at its answer to a clause, and that answer decides
nothing but whether later clauses are handed over. Two receivers that are related stay related while
one text is read into both. From this follows that every text has one plan: the clauses that any
receiver is handed in turn, up to the first that it refuses (`exists_plan`). The result of reading
does not depend on the receiver, also where the text is refused.
-/

set_option autoImplicit false

namespace Dpll.Dimacs

variable {σ τ : Type} {memory : Memory}

/-! ## Reading into two receivers -/

structure Alike (header : Header) (related : Bool × σ → Bool × τ → Prop) (first : Reader σ)
    (second : Reader τ) : Prop where
  left : first.header = some header
  right : second.header = some header
  pending : second.pending = first.pending
  found : second.found = first.found
  inside : ∀ literal ∈ first.pending, literal.var < header.variableCount
  related : related (first.accepting, first.receiver) (second.accepting, second.receiver)

def Outcome.Alike (header : Header) (related : Bool × σ → Bool × τ → Prop) (first : Outcome σ)
    (second : Outcome τ) : Prop :=
  first.1 = second.1 ∧ Dimacs.Alike header related first.2 second.2

/-- A relation between two receivers that lasts while both are handed clauses of so many variables. -/
def Lasting (left : Receiver σ) (right : Receiver τ) (count : Nat)
    (related : Bool × σ → Bool × τ → Prop) : Prop :=
  ∀ clause first second, (∀ literal ∈ clause, literal.var < count) → related first second →
    related (left.hand first clause) (right.hand second clause)

section Lockstep

variable {header : Header} {left : Receiver σ} {right : Receiver τ}
  {related : Bool × σ → Bool × τ → Prop} {first : Reader σ} {second : Reader τ}

theorem Outcome.Alike.andThen {first : Outcome σ} {second : Outcome τ} {one : Reader σ → Outcome σ}
    {two : Reader τ → Outcome τ} (alike : Outcome.Alike header related first second)
    (goOn : ∀ left right, Dimacs.Alike header related left right →
      Outcome.Alike header related (one left) (two right)) :
    Outcome.Alike header related (first.andThen one) (second.andThen two) := by
  obtain ⟨error, left⟩ := first
  obtain ⟨_, right⟩ := second
  obtain ⟨rfl, next⟩ := alike
  cases error with
  | some reason => exact ⟨rfl, next⟩
  | none => exact goOn left right next

namespace Alike

theorem endClause (lasting : Lasting left right header.variableCount related)
    (alike : Alike header related first second) :
    Alike header related (first.endClause left) (second.endClause right) where
  left := Reader.header_endClause.trans alike.left
  right := Reader.header_endClause.trans alike.right
  pending := by rw [Reader.pending_endClause, Reader.pending_endClause]
  found := by rw [Reader.found_endClause, Reader.found_endClause, alike.found]
  inside := by
    intro literal member
    rw [Reader.pending_endClause] at member
    simp at member
  related := by
    rw [Reader.handed_endClause, Reader.handed_endClause, alike.pending]
    exact lasting _ _ _ alike.inside alike.related

theorem readClauses (lasting : Lasting left right header.variableCount related)
    (alike : Alike header related first second) (line : Nat) (words : List (List Char)) :
    Outcome.Alike header related (Reader.readClauses left header.variableCount line words first)
      (Reader.readClauses right header.variableCount line words second) := by
  induction words generalizing first second with
  | nil => exact ⟨rfl, alike⟩
  | cons word rest ih =>
      simp only [Reader.readClauses]
      cases Text.signed? word with
      | none => exact ⟨rfl, alike⟩
      | some value =>
          dsimp only
          cases Literal.ofDimacs? value with
          | none => exact ih (alike.endClause lasting)
          | some literal =>
              dsimp only
              split
              · next covered =>
                apply ih
                refine ⟨alike.left, alike.right, by rw [alike.pending], alike.found, ?_,
                  alike.related⟩
                intro other member
                rcases Array.mem_push.mp member with old | rfl
                · exact alike.inside other old
                · exact covered
              · exact ⟨rfl, alike⟩

theorem readLine (lasting : Lasting left right header.variableCount related)
    (alike : Alike header related first second) (number : Nat) (words : List (List Char)) :
    Outcome.Alike header related (first.readLine memory left number words)
      (second.readLine memory right number words) := by
  unfold Reader.readLine Reader.readHeader
  rw [alike.left, alike.right]
  cases lineKind words with
  | skipped => exact ⟨rfl, alike⟩
  | last => exact ⟨rfl, alike⟩
  | header => exact ⟨rfl, alike⟩
  | clauses => exact alike.readClauses lasting number words

theorem finish (lasting : Lasting left right header.variableCount related)
    (alike : Alike header related first second) :
    Outcome.Alike header related (first.finish left) (second.finish right) := by
  unfold Reader.finish
  rw [alike.left, alike.right, alike.pending]
  have ended : Alike header related (if first.pending.isEmpty then first else first.endClause left)
      (if first.pending.isEmpty then second else second.endClause right) := by
    split
    · exact alike
    · exact alike.endClause lasting
  revert ended
  dsimp only
  generalize (if first.pending.isEmpty then first else first.endClause left) = one
  generalize (if first.pending.isEmpty then second else second.endClause right) = two
  intro ended
  rw [ended.found]
  split
  · exact ⟨rfl, ended⟩
  · exact ⟨rfl, ended⟩

/-- Reading on into related receivers gives the same result and leaves them related. -/
theorem readLines (lasting : Lasting left right header.variableCount related)
    (alike : Alike header related first second) (number : Nat) (lines : List (Option (List Char))) :
    Outcome.Alike header related (Reader.readLines memory left number lines first)
      (Reader.readLines memory right number lines second) := by
  induction lines generalizing number first second with
  | nil => exact alike.finish lasting
  | cons line rest ih =>
      cases line with
      | none => exact ⟨rfl, alike⟩
      | some line =>
          simp only [Reader.readLines]
          split
          · exact alike.finish lasting
          · exact (alike.readLine lasting number (Text.words line)).andThen
              fun _ _ next => ih next (number + 1)

end Alike

end Lockstep

/-! ## The plan of a text -/

def collector : Receiver (List (Array Literal)) where
  createVariables _ clauses := clauses
  addClause clause clauses := (true, clauses ++ [clause])

/-- After its opening, a text hands every receiver the same clauses in turn, as long as it takes them. -/
theorem exists_plan (memory : Memory) (lines : List (Option (List Char))) (number : Nat)
    (header : Header) :
    ∃ (error : Option ReadError) (plan : List (Array Literal)),
      (∀ clause ∈ plan, ∀ literal ∈ clause, literal.var < header.variableCount) ∧
      ∀ {σ : Type} (receiver : Receiver σ) (state : σ),
        ∃ final, Reader.readLines memory receiver number lines (Reader.begun receiver header
            { receiver := state }) = (error, final) ∧
          (final.accepting, final.receiver) =
            plan.foldl receiver.hand (true, receiver.createVariables header.variableCount state) := by
  let reference := Reader.readLines memory collector number lines (Reader.begun collector header
    { receiver := [] })
  have follow {σ : Type} (receiver : Receiver σ) (state : σ) :
      Outcome.Alike header (fun mine theirs => theirs.1 = true ∧
        (∀ clause ∈ theirs.2, ∀ literal ∈ clause, literal.var < header.variableCount) ∧
        mine = theirs.2.foldl receiver.hand
          (true, receiver.createVariables header.variableCount state))
        (Reader.readLines memory receiver number lines
          (Reader.begun receiver header { receiver := state }))
        reference := by
    apply Alike.readLines
    · rintro clause first ⟨accepting, clauses⟩ inside ⟨rfl, within, rfl⟩
      refine ⟨rfl, List.forall_mem_append.mpr ⟨within, by simpa using inside⟩, ?_⟩
      rw [show (collector.hand (true, clauses) clause).2 = clauses ++ [clause] from rfl,
        List.foldl_append]
      rfl
    · exact ⟨rfl, rfl, rfl, rfl, by simp [Reader.begun], rfl, by simp [Reader.begun, collector], rfl⟩
  refine ⟨reference.1, reference.2.receiver, (follow collector []).2.related.2.1, ?_⟩
  intro σ receiver state
  obtain ⟨same, alike⟩ := follow receiver state
  exact ⟨_, Prod.ext same rfl, alike.related.2.2⟩

/-! ## Writing requests down -/

/-- A receiver that also writes down what it is asked and how it answers, the oldest first. -/
def Receiver.noted (receiver : Receiver σ) : Receiver (List (Call × Bool) × σ) where
  createVariables count state :=
    (state.1 ++ [(.createVariables count, true)], receiver.createVariables count state.2)
  addClause clause state :=
    let answer := receiver.addClause clause state.2
    (answer.1, state.1 ++ [(.addClause clause, answer.1)], answer.2)

def exchanges (memory : Memory) (receiver : Receiver σ) (source : Source) (state : σ) :
    List (Call × Bool) :=
  (read memory receiver.noted source ([], state)).2.receiver.1

def calls (memory : Memory) (receiver : Receiver σ) (source : Source) (state : σ) : List Call :=
  (exchanges memory receiver source state).map Prod.fst

/-- Hands clauses over up to and including the first that is refused. -/
def Receiver.consult (receiver : Receiver σ) : List (Array Literal) → σ → List (Call × Bool) × σ
  | [], state => ([], state)
  | clause :: rest, state =>
    match receiver.addClause clause state with
    | (false, state) => ([(.addClause clause, false)], state)
    | (true, state) =>
      ((.addClause clause, true) :: (receiver.consult rest state).1, (receiver.consult rest state).2)

def Receiver.Agreeable (receiver : Receiver σ) : Prop :=
  ∀ clause state, (receiver.addClause clause state).1 = true

namespace Receiver

variable (receiver : Receiver σ)

theorem foldl_hand (clauses : List (Array Literal)) (state : σ) :
    (clauses.foldl receiver.hand (true, state)).2 = (receiver.consult clauses state).2 := by
  induction clauses generalizing state with
  | nil => rfl
  | cons clause rest ih =>
      rw [List.foldl_cons, hand, if_pos rfl, consult]
      rcases receiver.addClause clause state with ⟨accepted, next⟩
      cases accepted with
      | false => rw [foldl_hand_refused]
      | true => exact ih next

private theorem foldl_hand_noted (clauses : List (Array Literal)) (log : List (Call × Bool))
    (state : σ) :
    (clauses.foldl receiver.noted.hand (true, (log, state))).2 =
      (log ++ (receiver.consult clauses state).1, (receiver.consult clauses state).2) := by
  induction clauses generalizing log state with
  | nil => simp [consult]
  | cons clause rest ih =>
      rw [List.foldl_cons, hand, if_pos rfl, consult]
      simp only [noted]
      rcases receiver.addClause clause state with ⟨accepted, next⟩
      cases accepted with
      | false => rw [foldl_hand_refused]
      | true =>
          have later := ih (log ++ [(.addClause clause, true)]) next
          simp only [noted] at later
          simp [later]

private theorem consult_isPrefix (clauses : List (Array Literal)) (state : σ) :
    (receiver.consult clauses state).1.map Prod.fst <+: clauses.map .addClause := by
  induction clauses generalizing state with
  | nil => exact List.prefix_rfl
  | cons clause rest ih =>
      rw [consult]
      rcases receiver.addClause clause state with ⟨accepted, next⟩
      cases accepted with
      | false => simp
      | true => simpa using ih next

private theorem consult_cons_of_agreeable (agreeable : receiver.Agreeable) (clause : Array Literal)
    (rest : List (Array Literal)) (state : σ) :
    receiver.consult (clause :: rest) state =
      ((.addClause clause, true) :: (receiver.consult rest (receiver.addClause clause state).2).1,
        (receiver.consult rest (receiver.addClause clause state).2).2) := by
  have accepted := agreeable clause state
  rw [consult]
  cases outcome : receiver.addClause clause state with
  | mk answer next =>
      rw [outcome] at accepted
      cases accepted
      rfl

theorem consult_of_agreeable (agreeable : receiver.Agreeable) (clauses : List (Array Literal))
    (state : σ) : (receiver.consult clauses state).1.map Prod.fst = clauses.map .addClause := by
  induction clauses generalizing state with
  | nil => rfl
  | cons clause rest ih =>
      rw [receiver.consult_cons_of_agreeable agreeable]
      exact congrArg _ (ih _)

theorem snd_consult_of_agreeable (agreeable : receiver.Agreeable) (clauses : List (Array Literal))
    (state : σ) : (receiver.consult clauses state).2 =
      clauses.foldl (fun state clause => (receiver.addClause clause state).2) state := by
  induction clauses generalizing state with
  | nil => rfl
  | cons clause rest ih =>
      rw [receiver.consult_cons_of_agreeable agreeable, List.foldl_cons]
      exact ih _

private theorem consult_dropLast (clauses : List (Array Literal)) (state : σ) :
    ∀ exchange ∈ (receiver.consult clauses state).1.dropLast, exchange.2 = true := by
  induction clauses generalizing state with
  | nil => simp [consult]
  | cons clause rest ih =>
      rw [consult]
      rcases receiver.addClause clause state with ⟨accepted, next⟩
      cases accepted with
      | false => simp
      | true =>
          intro exchange member
          cases shape : (receiver.consult rest next).1 with
          | nil => simp [shape] at member
          | cons head tail =>
              simp only [shape, List.dropLast_cons_cons] at member
              rcases List.mem_cons.mp member with rfl | later
              · rfl
              · exact ih next exchange (shape ▸ later)

end Receiver

/-! ## Words that cannot be read -/

def Offence.following {lines : List (Option (List Char))} {declared : Nat}
    (offence : Offence lines declared) (line : List Char) (unmarked : isEndMark line = false)
    (first : List Int)
    (spelled : (([line].filter isContent).flatMap Text.words).mapM Text.signed? = some first)
    (inside : ∀ number ∈ first, number.natAbs ≤ declared) : Offence (some line :: lines) declared :=
  { offence with
    earlier := line :: offence.earlier
    lines_eq := congrArg (some line :: ·) offence.lines_eq
    unmarked := List.forall_mem_cons.mpr ⟨unmarked, offence.unmarked⟩
    numbers := first ++ offence.numbers
    spelled := by
      rw [← List.singleton_append, List.filter_append, List.flatMap_append, List.append_assoc,
        Reader.mapM_signed?_append, spelled, offence.spelled]
      rfl
    inside := List.forall_mem_append.mpr ⟨inside, offence.inside⟩ }

private theorem finish_ne_wordError {receiver : Receiver σ} {reader final : Reader σ}
    {error : ReadError}
    (atWord : error.isWordError = true) : reader.finish receiver ≠ (some error, final) := by
  intro stopped
  unfold Reader.finish at stopped
  cases known : reader.header with
  | none =>
      rw [known] at stopped
      cases stopped
      cases atWord
  | some header =>
      rw [known] at stopped
      dsimp only at stopped
      generalize (if reader.pending.isEmpty then reader else reader.endClause receiver) = ended
        at stopped
      split at stopped
      · cases stopped
      · cases stopped
        cases atWord

/-- Where reading stops at a word, everything before the word is in order and has been taken. -/
theorem exists_offence {receiver : Receiver σ} {reader final : Reader σ} {header : Header}
    {error : ReadError} (known : reader.header = some header) {number : Nat}
    {lines : List (Option (List Char))}
    (stopped : Reader.readLines memory receiver number lines reader = (some error, final))
    (atWord : error.isWordError = true) :
    ∃ offence : Offence lines header.variableCount,
      error = wordError (number + offence.earlier.length) header.variableCount offence.word ∧
      final = offence.numbers.foldl (Reader.take receiver) reader := by
  induction lines generalizing number reader with
  | nil => exact absurd stopped (finish_ne_wordError atWord)
  | cons line rest ih =>
      cases line with
      | none =>
          cases stopped
          cases atWord
      | some line =>
          cases mark : isEndMark line with
          | true =>
              rw [readLines_of_mark number rest reader mark] at stopped
              exact absurd stopped (finish_ne_wordError atWord)
          | false =>
              cases content : isContent line with
              | false =>
                  rw [readLines_of_skipped number rest reader content] at stopped
                  obtain ⟨offence, same, taken⟩ := ih known stopped
                  refine ⟨offence.following line mark [] (by simp [content]) (by simp), ?_, taken⟩
                  rw [same]
                  simp [Offence.following, Nat.add_assoc, Nat.add_comm 1]
              | true =>
                  rw [readLines_of_content number rest reader mark] at stopped
                  rcases lineKind_of_content mark content with kind | kind
                  · simp only [Reader.readLine, kind, Reader.readHeader, known,
                      Outcome.andThen] at stopped
                    cases stopped
                    cases atWord
                  · simp only [Reader.readLine, kind, known] at stopped
                    rcases Reader.readClauses_or receiver header.variableCount number
                      (Text.words line) reader with
                      ⟨first, spelled, inside, done⟩ |
                      ⟨front, word, back, numbers, words_eq, spelled, inside, offends, done⟩
                    · rw [done] at stopped
                      obtain ⟨offence, same, taken⟩ :=
                        ih ((Reader.header_foldl_take first).trans known) stopped
                      refine ⟨offence.following line mark first (by simpa [content] using spelled)
                        inside, ?_, ?_⟩
                      · rw [same]
                        simp [Offence.following, Nat.add_assoc, Nat.add_comm 1]
                      · rw [taken]
                        exact (List.foldl_append ..).symm
                    · rw [done] at stopped
                      cases stopped
                      refine ⟨⟨[], line, rest, rfl, by simp, kind, front, word, back, words_eq,
                        numbers, by simpa using spelled, inside, offends⟩, rfl, rfl⟩

/-! ## What a receiver is asked -/

/-- Every receiver is asked along one plan, or reading fails without asking anything. -/
theorem read_plan (memory : Memory) (source : Source) :
    (∃ (opening : Opening memory source.lines) (error : Option ReadError) (plan : List (Array Literal)),
      (∀ clause ∈ plan, ∀ literal ∈ clause, literal.var < opening.header.variableCount) ∧
      ∀ {σ : Type} (receiver : Receiver σ) (state : σ), ∃ final,
        read memory receiver source state = (error, final) ∧
        (final.accepting, final.receiver) = plan.foldl receiver.hand
          (true, receiver.createVariables opening.header.variableCount state)) ∨
    ∃ error : ReadError, error.isWordError = false ∧
      ∀ {σ : Type} (receiver : Receiver σ) (state : σ),
        read memory receiver source state = (some error, { receiver := state }) := by
  rcases readLines_opening memory 1 source.lines with ⟨opening, -, goesOn⟩ | ⟨error, kind, -, stops⟩
  · obtain ⟨error, plan, within, planned⟩ :=
      exists_plan memory opening.rest (1 + opening.skipped.length + 1) opening.header
    refine .inl ⟨opening, error, plan, within, fun receiver state => ?_⟩
    obtain ⟨final, done, handed⟩ := planned receiver state
    exact ⟨final, (goesOn receiver { receiver := state } rfl).trans done, handed⟩
  · exact .inr ⟨error, kind, fun receiver state => stops receiver { receiver := state } rfl⟩

/-- What a receiver has noted of a run, told from the clauses that were handed on. -/
theorem noted_of_foldl {receiver : Receiver σ} {state : σ} {count : Nat}
    {clauses : List (Array Literal)} {final : Reader (List (Call × Bool) × σ)}
    (handed : (final.accepting, final.receiver) = clauses.foldl receiver.noted.hand
      (true, receiver.noted.createVariables count ([], state))) :
    final.receiver = ((.createVariables count, true) ::
        (receiver.consult clauses (receiver.createVariables count state)).1,
      (receiver.consult clauses (receiver.createVariables count state)).2) :=
  (congrArg Prod.snd handed).trans
    (receiver.foldl_hand_noted clauses [(.createVariables count, true)] _)

theorem exchanges_of_foldl {receiver : Receiver σ} {source : Source} {state : σ} {count : Nat}
    {clauses : List (Array Literal)} {error : Option ReadError}
    {final : Reader (List (Call × Bool) × σ)}
    (done : read memory receiver.noted source ([], state) = (error, final))
    (handed : (final.accepting, final.receiver) = clauses.foldl receiver.noted.hand
      (true, receiver.noted.createVariables count ([], state))) :
    exchanges memory receiver source state = (.createVariables count, true) ::
      (receiver.consult clauses (receiver.createVariables count state)).1 := by
  rw [exchanges, done, noted_of_foldl handed]

private theorem result_eq (memory : Memory) (receiver : Receiver σ) (other : Receiver τ)
    (source : Source) (state : σ)
    (start : τ) : (read memory receiver source state).1 = (read memory other source start).1 := by
  rcases read_plan memory source with ⟨_, error, _, _, planned⟩ | ⟨error, _, fails⟩
  · obtain ⟨_, done, -⟩ := planned receiver state
    obtain ⟨_, doneOther, -⟩ := planned other start
    rw [done, doneOther]
  · rw [fails, fails]

/-- An agreeable receiver has been handed the clauses that ended before the word at which reading
stopped. -/
theorem exists_offence_of_read {receiver : Receiver σ} (agreeable : receiver.Agreeable)
    {source : Source} {state : σ} {error : ReadError}
    (stopped : (read memory receiver source state).1 = some error) (atWord : error.isWordError = true) :
    ∃ (opening : Opening memory source.lines)
      (offence : Offence opening.rest opening.header.variableCount),
      error = wordError (opening.skipped.length + offence.earlier.length + 2)
        opening.header.variableCount offence.word ∧
      calls memory receiver source state = .createVariables opening.header.variableCount ::
        (endedClauses offence.numbers).map fun clause => .addClause (literalsOf clause) := by
  have noted : (read memory receiver.noted source ([], state)).1 = some error :=
    (result_eq memory receiver.noted receiver source ([], state) state).trans stopped
  rcases readLines_opening memory 1 source.lines with ⟨opening, -, goesOn⟩ | ⟨reason, kind, -, stops⟩
  · let begun := Reader.begun receiver.noted opening.header { receiver := ([], state) }
    have run : read memory receiver.noted source ([], state) = Reader.readLines memory receiver.noted
        (1 + opening.skipped.length + 1) opening.rest begun := goesOn _ _ rfl
    obtain ⟨offence, same, taken⟩ := exists_offence (rfl : begun.header = some opening.header)
      (Prod.ext (run ▸ noted) rfl) atWord
    refine ⟨opening, offence, ?_, ?_⟩
    · rw [same]
      congr 1
      omega
    · have small : AllSmall offence.numbers := fun number member =>
        Nat.le_trans (offence.inside number member)
          (Nat.le_of_lt (Nat.lt_trans (lt_of_ofWords? opening.titled) (by decide)))
      have took : Took receiver.noted (true, begun.receiver) offence.numbers
          (offence.numbers.foldl (Reader.take receiver.noted) begun) := .foldl ⟨rfl, rfl, rfl⟩ small
      rw [← taken] at took
      rw [calls, exchanges_of_foldl run took.handed, List.map_cons,
        receiver.consult_of_agreeable agreeable, List.map_map]
      rfl
  · have run : read memory receiver.noted source ([], state) = (some reason, _) := stops _ _ rfl
    rw [run] at noted
    cases noted
    rw [kind] at atWord
    cases atWord

/-- Clauses of so many variables that are handed over one by one, none after a refusal. -/
structure Orderly (count : Nat) (log : List (Call × Bool)) : Prop where
  clauses : ∀ exchange ∈ log, ∃ clause, exchange.1 = .addClause clause ∧
    ∀ literal ∈ clause, literal.var < count
  accepted : ∀ exchange ∈ log.dropLast, exchange.2 = true

/-- The result of reading does not depend on the receiver, and the requests follow a protocol on every
text. -/
theorem read_protocol (memory : Memory) (receiver : Receiver σ) (other : Receiver τ)
    (source : Source) (state : σ) (start : τ) :
    (read memory receiver source state).1 = (read memory other source start).1 ∧
    (read memory receiver.noted source ([], state)).2.receiver.2 =
        (read memory receiver source state).2.receiver ∧
    (exchanges memory receiver source state = [] ∨
      ∃ (opening : Opening memory source.lines) (log : List (Call × Bool)),
        exchanges memory receiver source state =
          (.createVariables opening.header.variableCount, true) :: log ∧
        Orderly opening.header.variableCount log) ∧
    (other.Agreeable →
      calls memory receiver source state <+: calls memory other source start ∧
      ∀ error, (read memory other source start).1 = some error → error.isWordError = true →
        ∃ (opening : Opening memory source.lines)
          (offence : Offence opening.rest opening.header.variableCount),
          error = wordError (opening.skipped.length + offence.earlier.length + 2)
            opening.header.variableCount offence.word ∧
          calls memory other source start = .createVariables opening.header.variableCount ::
            (endedClauses offence.numbers).map fun clause => .addClause (literalsOf clause)) := by
  rcases read_plan memory source with ⟨opening, error, plan, within, planned⟩ | ⟨error, kind, fails⟩
  · obtain ⟨_, done, handed⟩ := planned receiver state
    obtain ⟨_, doneNoted, handedNoted⟩ := planned receiver.noted ([], state)
    obtain ⟨_, doneOther, handedOther⟩ := planned other.noted ([], start)
    have log := exchanges_of_foldl doneNoted handedNoted
    have otherLog := exchanges_of_foldl doneOther handedOther
    refine ⟨result_eq .., ?_, .inr ⟨opening, _, log, ?_⟩, fun agreeable => ⟨?_, ?_⟩⟩
    · rw [doneNoted, done, noted_of_foldl handedNoted]
      exact ((congrArg Prod.snd handed).trans (receiver.foldl_hand ..)).symm
    · refine ⟨fun exchange member => ?_, receiver.consult_dropLast plan _⟩
      have asked := (receiver.consult_isPrefix plan _).subset (List.mem_map_of_mem member)
      obtain ⟨clause, inPlan, same⟩ := List.mem_map.mp asked
      exact ⟨clause, same.symm, within clause inPlan⟩
    · rw [calls, calls, log, otherLog, List.map_cons, List.map_cons,
        other.consult_of_agreeable agreeable]
      exact (List.prefix_cons_inj _).mpr (receiver.consult_isPrefix plan _)
    · exact fun error stopped atWord => exists_offence_of_read agreeable stopped atWord
  · have log : exchanges memory receiver source state = [] := by rw [exchanges, fails]
    refine ⟨result_eq .., by rw [fails, fails], .inl log, fun agreeable => ⟨?_, ?_⟩⟩
    · rw [calls, log]
      exact List.nil_prefix
    · exact fun error stopped atWord => exists_offence_of_read agreeable stopped atWord

/-- The first of two clauses is refused by one receiver, and a number in the third is not that of a
variable. -/
theorem read_protocol_out_of_range :
    let memory := Memory.addressable
    let source : Source := { bytes := "c two\np cnf 2 3\n1 0 -2\n 0 1 5 0\n".toUTF8 }
    let refusing := transcriptReceiver (some 1) true
    let accepting := transcriptReceiver none true
    accepting.Agreeable ∧
    (read memory refusing source {}).1 = (read memory accepting source {}).1 ∧
    (read memory accepting source {}).1 = some (.variableOutOfRange 4 5 2) ∧
    calls memory refusing source {} = [.createVariables 2, .addClause #[⟨0, by decide⟩]] ∧
    calls memory accepting source {} =
      [.createVariables 2, .addClause #[⟨0, by decide⟩], .addClause #[⟨3, by decide⟩]] ∧
    calls memory refusing source {} <+: calls memory accepting source {} ∧
    ∃ (opening : Opening memory source.lines)
      (offence : Offence opening.rest opening.header.variableCount),
      ReadError.variableOutOfRange 4 5 2 =
        wordError (opening.skipped.length + offence.earlier.length + 2)
          opening.header.variableCount offence.word ∧
      calls memory accepting source {} = .createVariables opening.header.variableCount ::
        (endedClauses offence.numbers).map fun clause => .addClause (literalsOf clause) := by
  intro memory source refusing accepting
  have agreeable : accepting.Agreeable := fun clause state => rfl
  have stopped : (read memory accepting source {}).1 = some (.variableOutOfRange 4 5 2) := by
    decide +kernel
  obtain ⟨same, -, -, agree⟩ := read_protocol memory refusing accepting source {} {}
  obtain ⟨ordered, offends⟩ := agree agreeable
  exact ⟨agreeable, same, stopped, by decide +kernel, by decide +kernel, ordered,
    offends _ stopped rfl⟩

end Dpll.Dimacs
