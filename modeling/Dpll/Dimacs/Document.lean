import Dpll.Dimacs.Reader

/-!
# What a text says

Which texts are formulas, and which formula each of them is, told from the text as a whole: its lines
up to the end mark without blanks and comments, the header in the first of them and the numbers in all
the others.
-/

set_option autoImplicit false

namespace Dpll.Dimacs

/-- A formula as it is written: its header and the numbers of its clauses. -/
structure Document where
  header : Header
  clauses : List (List Int)
deriving DecidableEq

def initial? (line : List Char) : Option Char := line.find? (!Text.isBlank ·)

def isEndMark (line : List Char) : Bool := initial? line = some '%'

def isContent (line : List Char) : Bool := initial? line ≠ none ∧ initial? line ≠ some 'c'

/-- The lines before the end mark that are neither blank nor comments, if all lines up to the mark can
be read. -/
def contentLines? (lines : List (Option (List Char))) : Option (List (List Char)) :=
  ((lines.takeWhile fun line => !line.any isEndMark).mapM id).map (·.filter isContent)

def numbers? (lines : List (List Char)) : Option (List Int) :=
  (lines.flatMap Text.words).mapM Text.signed?

/-- The clauses that numbers spell. Each ends with a zero, which the last one may lack. -/
def clausesOf (numbers : List Int) : List (List Int) :=
  let pieces := Text.pieces (· == 0) numbers
  if pieces.getLast? = some [] then pieces.dropLast else pieces

def endedClauses (numbers : List Int) : List (List Int) := (Text.pieces (· == 0) numbers).dropLast

/-- The formula of a header and numbers, if the header declares its variables and its clauses. -/
def Header.document? (header : Header) (numbers : List Int) : Option Document :=
  if (∀ number ∈ numbers, number.natAbs ≤ header.variableCount) ∧
      (clausesOf numbers).length = header.clauseCount then
    some { header, clauses := clausesOf numbers }
  else none

def documentOf? (memory : Memory) : List (List Char) → Option Document
  | [] => none
  | first :: rest =>
    match Header.ofWords? memory (Text.words first), numbers? rest with
    | some header, some numbers => header.document? numbers
    | _, _ => none

def document? (memory : Memory) (source : Source) : Option Document :=
  (contentLines? source.lines).bind (documentOf? memory)

/-! ## Where a text stops to be a formula -/

/-- The first line that is neither blank nor a comment spells a header. -/
structure Opening (memory : Memory) (lines : List (Option (List Char))) where
  skipped : List (List Char)
  title : List Char
  rest : List (Option (List Char))
  header : Header
  lines_eq : lines = skipped.map some ++ some title :: rest
  skip : ∀ line ∈ skipped, isContent line = false
  titled : Header.ofWords? memory (Text.words title) = some header

/-- A word in a line of clauses that is no number of a declared variable. All words before it are, as
far as they do not stand in comments. -/
structure Offence (lines : List (Option (List Char))) (declared : Nat) where
  earlier : List (List Char)
  line : List Char
  later : List (Option (List Char))
  lines_eq : lines = earlier.map some ++ some line :: later
  unmarked : ∀ other ∈ earlier, isEndMark other = false
  kind : lineKind (Text.words line) = .clauses
  front : List (List Char)
  word : List Char
  back : List (List Char)
  words_eq : Text.words line = front ++ word :: back
  numbers : List Int
  spelled : ((earlier.filter isContent).flatMap Text.words ++ front).mapM Text.signed? = some numbers
  inside : ∀ number ∈ numbers, number.natAbs ≤ declared
  offends : ∀ number, Text.signed? word = some number → declared < number.natAbs

def wordError (line declared : Nat) (word : List Char) : ReadError :=
  match Text.signed? word with
  | none => .invalidLiteral line
  | some number => .variableOutOfRange line number.natAbs declared

def ReadError.isWordError : ReadError → Bool
  | .invalidLiteral _ => true
  | .variableOutOfRange .. => true
  | _ => false

/-! ## What a receiver is given -/

def literalsOf (numbers : List Int) : Array Literal :=
  (numbers.filterMap Literal.ofDimacs?).toArray

/-- Hands a clause to a receiver, unless it has refused one. -/
def Receiver.hand {σ : Type} (receiver : Receiver σ) (state : Bool × σ) (clause : Array Literal) :
    Bool × σ :=
  if state.1 then receiver.addClause clause state.2 else state

/-- Hands the clauses of a formula to a receiver in turn, up to the first that it refuses. -/
def Receiver.handAll {σ : Type} (receiver : Receiver σ) (clauses : List (List Int))
    (state : Bool × σ) : Bool × σ :=
  (clauses.map literalsOf).foldl receiver.hand state

/-- The numbers stand for true literals: an assignment gives every positive number a truth value. -/
def Document.Satisfied (document : Document) (assignment : Nat → Bool) : Prop :=
  ∀ clause ∈ document.clauses, ∃ number ∈ clause, assignment number.natAbs = decide (0 < number)

end Dpll.Dimacs
