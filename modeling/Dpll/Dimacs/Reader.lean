import Dpll.Dimacs.ReadError
import Dpll.Dimacs.Source
import Dpll.Engine.Journal
import Dpll.Text.Blank
import Dpll.Text.Numeral

/-!
# Reading formulas

A formula is written as a header `p cnf <variables> <clauses>`, followed by the clauses, each as
signed variable numbers ended by a zero. White space separates the numbers and a clause may go on
over several lines. A line is a comment if its first word starts with `c`, and a line whose first
word starts with `%` ends the text.

Clauses are handed on to a receiver as they are completed. A receiver that refuses a clause, because
the formula cannot be satisfied any more, gets none of the later ones, but these are still checked
and counted.
-/

set_option autoImplicit false

namespace Dpll.Dimacs

/-- What becomes of a formula while it is read. A receiver makes room for the variables that the
header declares, and takes a clause or refuses this one and all that follow. -/
structure Receiver (σ : Type) where
  createVariables : Nat → σ → σ
  addClause : Array Literal → σ → Bool × σ

structure Header where
  variableCount : Nat
  clauseCount : Nat
deriving DecidableEq

/-- The header that the words of a line spell, if there is room for its variables. -/
def Header.ofWords? (memory : Memory) : List (List Char) → Option Header
  | [tag, format, first, second] =>
    if tag = ['p'] ∧ format = ['c', 'n', 'f'] then
      match Text.unsigned? first, Text.unsigned? second with
      | some variableCount, some clauseCount =>
        if memory.holds variableCount then some { variableCount, clauseCount } else none
      | _, _ => none
    else none
  | _ => none

inductive LineKind where
  | skipped
  | last
  | header
  | clauses
deriving DecidableEq

def lineKind : List (List Char) → LineKind
  | ('c' :: _) :: _ => .skipped
  | ('%' :: _) :: _ => .last
  | ('p' :: _) :: _ => .header
  | _ :: _ => .clauses
  | [] => .skipped

/-- How far reading has come: the header if it has been read, the literals of the clause that has
not ended yet, the number of clauses that have, and whether the receiver takes clauses. The newest
event comes first. -/
structure Reader (σ : Type) where
  header : Option Header := none
  pending : Array Literal := #[]
  found : Nat := 0
  accepting : Bool := true
  receiver : σ
  events : List Event := []

abbrev Outcome (σ : Type) := Option ReadError × Reader σ

namespace Reader

variable {σ : Type}

/-- Hands the pending clause to the receiver if it takes any, and counts it. -/
def endClause (receiver : Receiver σ) (reader : Reader σ) : Reader σ :=
  if reader.accepting then
    match receiver.addClause reader.pending reader.receiver with
    | (true, state) =>
      { reader with pending := #[], found := reader.found + 1, receiver := state }
    | (false, state) =>
      { reader with
        pending := #[]
        found := reader.found + 1
        receiver := state
        accepting := false
        events := .clauseRefused (reader.found + 1) :: reader.events }
  else { reader with pending := #[], found := reader.found + 1 }

def readClauses (receiver : Receiver σ) (declared line : Nat) :
    List (List Char) → Reader σ → Outcome σ
  | [], reader => (none, reader)
  | word :: rest, reader =>
    match Text.signed? word with
    | none => (some (.invalidLiteral line), reader)
    | some value =>
      match Literal.ofDimacs? value with
      | none => readClauses receiver declared line rest (reader.endClause receiver)
      | some literal =>
        if literal.var < declared then
          readClauses receiver declared line rest
            { reader with pending := reader.pending.push literal }
        else (some (.variableOutOfRange line value.natAbs declared), reader)

def readHeader (memory : Memory) (receiver : Receiver σ) (line : Nat) (words : List (List Char))
    (reader : Reader σ) : Outcome σ :=
  match reader.header, Header.ofWords? memory words with
  | none, some header =>
    (none, { reader with
      header := some header
      receiver := receiver.createVariables header.variableCount reader.receiver
      events := .headerRead header.variableCount header.clauseCount :: reader.events })
  | _, _ => (some (.invalidHeader line), reader)

/-- The end of the text: the last clause may lack its zero, and the number of clauses has to be the
one declared. -/
def finish (receiver : Receiver σ) (reader : Reader σ) : Outcome σ :=
  match reader.header with
  | none => (some (.missingHeader 0), reader)
  | some header =>
    let reader := if reader.pending.isEmpty then reader else reader.endClause receiver
    if reader.found = header.clauseCount then (none, reader)
    else (some (.clauseCount header.clauseCount reader.found), reader)

def readLine (memory : Memory) (receiver : Receiver σ) (number : Nat) (words : List (List Char))
    (reader : Reader σ) : Outcome σ :=
  match lineKind words, reader.header with
  | .header, _ => reader.readHeader memory receiver number words
  | .clauses, none => (some (.missingHeader number), reader)
  | .clauses, some header => readClauses receiver header.variableCount number words reader
  | _, _ => (none, reader)

def readLines (memory : Memory) (receiver : Receiver σ) :
    Nat → List (Option (List Char)) → Reader σ → Outcome σ
  | _, [], reader => reader.finish receiver
  | number, none :: _, reader => (some (.unreadable number), reader)
  | number, some line :: rest, reader =>
    let words := Text.words line
    if lineKind words = .last then reader.finish receiver
    else match reader.readLine memory receiver number words with
      | (some error, reader) => (some error, reader)
      | (none, reader) => readLines memory receiver (number + 1) rest reader

end Reader

def read {σ : Type} (memory : Memory) (receiver : Receiver σ) (source : Source) (state : σ) :
    Outcome σ :=
  Reader.readLines memory receiver 1 source.lines { receiver := state }

end Dpll.Dimacs
