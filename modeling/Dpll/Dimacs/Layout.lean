import Dpll.Dimacs.Document
import Dpll.Engine.Clause

/-!
# Written formulas

A formula is written as a header on a line of its own and the words of its clauses. The words may be
spread over lines in any way, with blank lines and comments anywhere, and a line with an end mark may
follow, after which anything can stand.
-/

set_option autoImplicit false

namespace Dpll.Dimacs

/-! ## Words -/

def clauseText (clause : List Literal) : String :=
  match Clause.ofLiterals? clause.toArray with
  | some stored => stored.text
  | none => "0"

def clauseWords (clause : List Literal) : List (List Char) := Text.words (clauseText clause).toList

def formulaWords (formula : List (List Literal)) : List (List Char) := formula.flatMap clauseWords

def Header.words (header : Header) : List (List Char) :=
  [['p'], ['c', 'n', 'f'], (toString header.variableCount).toList,
    (toString header.clauseCount).toList]

/-- The words stand for the clauses. The last clause may lack its zero unless it is empty. -/
inductive Spells : List (List Literal) → List (List Char) → Prop where
  | ended (formula : List (List Literal)) : Spells formula (formulaWords formula)
  | unended (formula : List (List Literal)) {last : List Literal} {words : List (List Char)} :
      last ≠ [] → words ++ [['0']] = clauseWords last →
      Spells (formula ++ [last]) (formulaWords formula ++ words)

/-! ## Lines -/

inductive Spaced : List (List Char) → List Char → Prop where
  | nil {blanks : List Char} : (∀ char ∈ blanks, Text.isBlank char = true) → Spaced [] blanks
  | cons {blanks word line : List Char} {words : List (List Char)} :
      (∀ char ∈ blanks, Text.isBlank char = true) →
      word ≠ [] → (∀ char ∈ word, Text.isBlank char = false) →
      (∀ char ∈ line.head?, Text.isBlank char = true) → Spaced words line →
      Spaced (word :: words) (blanks ++ (word ++ line))

/-- The lines consist of the words, besides blank lines and comments. -/
inductive Laid : List (List Char) → List (List Char) → Prop where
  | nil : Laid [] []
  | skip {line : List Char} {words lines : List (List Char)} :
      isContent line = false → Laid words lines → Laid words (line :: lines)
  | line {line : List Char} {front words lines : List (List Char)} :
      Spaced front line → Laid words lines → Laid (front ++ words) (line :: lines)

/-! ## Bytes -/

def encodeLines (lines : List (List Char)) : ByteArray :=
  (String.ofList (List.intercalate ['\n'] lines)).toUTF8

/-- The bytes are those of the lines, or an end mark follows, after whose line feed there may be any
bytes at all. -/
inductive Encodes (lines : List (List Char)) : ByteArray → Prop where
  | whole : Encodes lines (encodeLines lines)
  | marked {mark : List Char} :
      isEndMark mark = true → '\n' ∉ mark → Encodes lines (encodeLines (lines ++ [mark]))
  | cut {mark : List Char} (later : ByteArray) :
      isEndMark mark = true → '\n' ∉ mark →
      Encodes lines (encodeLines (lines ++ [mark]) ++ ("\n".toUTF8 ++ later))

def Declares (variableCount : Nat) (formula : List (List Literal)) : Prop :=
  ∀ clause ∈ formula, ∀ literal ∈ clause, literal.var < variableCount

instance (variableCount : Nat) (formula : List (List Literal)) :
    Decidable (Declares variableCount formula) :=
  inferInstanceAs (Decidable (∀ clause ∈ formula, ∀ literal ∈ clause, literal.var < variableCount))

/-- A way to write a formula of so many variables. -/
structure Layout (variableCount : Nat) (formula : List (List Literal)) (bytes : ByteArray) where
  skipped : List (List Char)
  title : List Char
  body : List (List Char)
  words : List (List Char)
  skip : ∀ line ∈ skipped, isContent line = false
  titled : Spaced (Header.words { variableCount, clauseCount := formula.length }) title
  spells : Spells formula words
  laid : Laid words body
  unbroken : ∀ line ∈ skipped ++ title :: body, '\n' ∉ line
  encodes : Encodes (skipped ++ title :: body) bytes

end Dpll.Dimacs
