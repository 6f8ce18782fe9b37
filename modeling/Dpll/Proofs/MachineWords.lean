import Mathlib.Data.Nat.Bitwise
import Dpll.Proofs.Layouts

/-!
# Literals at the width of a machine word

A code is a word of 64 bits. A shift of it gives the variable, its lowest bit the sign, and the word
with that bit flipped is the negated literal. `Literal.wordOf?` computes the code of a signed word by
operations on words and gives up as soon as one of them overflows. Main statement:
`Literal.machine_encoding`, by which it never gives up at a number other than zero, although its last
step reaches the largest word, which is the reserved code, at the least number.
-/

set_option autoImplicit false

namespace Dpll

abbrev Word := BitVec 64

namespace Word

/-! ## Operations that may overflow -/

def checked (overflow : Bool) (wrapped : Word) : Option Word :=
  if overflow then none else some wrapped

def add? (left right : Word) : Option Word := checked (left.uaddOverflow right) (left + right)

def sub? (left right : Word) : Option Word := checked (left.usubOverflow right) (left - right)

def mul? (left right : Word) : Option Word := checked (left.umulOverflow right) (left * right)

variable {left right result : Word}

private theorem checked_eq_some_iff {overflow : Bool} {wrapped : Word} {exact : Int}
    (inside : ¬ overflow → wrapped.toNat = exact) (outside : overflow → exact < 0 ∨ 2 ^ 64 ≤ exact) :
    checked overflow wrapped = some result ↔ exact = result.toNat := by
  cases overflow with
  | false =>
      rw [← inside Bool.false_ne_true, Int.natCast_inj, BitVec.toNat_inj]
      exact Option.some_inj
  | true =>
      have small := result.isLt
      have far := outside rfl
      have different : exact ≠ result.toNat := by omega
      exact iff_of_false (Option.some_ne_none result).symm different

private theorem add?_eq_some_iff :
    add? left right = some result ↔ (left.toNat + right.toNat : Int) = result.toNat := by
  apply checked_eq_some_iff
  · intro fits
    rw [BitVec.toNat_add_of_not_uaddOverflow fits, Int.natCast_add]
  · intro overflow
    have large : 2 ^ 64 ≤ left.toNat + right.toNat := by simpa [BitVec.uaddOverflow] using overflow
    omega

private theorem sub?_eq_some_iff :
    sub? left right = some result ↔ (left.toNat - right.toNat : Int) = result.toNat := by
  apply checked_eq_some_iff
  · intro fits
    have order : right.toNat ≤ left.toNat := by simpa [BitVec.usubOverflow] using fits
    rw [BitVec.toNat_sub_of_not_usubOverflow fits, Int.natCast_sub order]
  · intro overflow
    have less : left.toNat < right.toNat := by simpa [BitVec.usubOverflow] using overflow
    omega

private theorem mul?_eq_some_iff :
    mul? left right = some result ↔ (left.toNat * right.toNat : Int) = result.toNat := by
  apply checked_eq_some_iff
  · intro fits
    rw [BitVec.toNat_mul_of_not_umulOverflow fits, Int.natCast_mul]
  · intro overflow
    have large : 2 ^ 64 ≤ left.toNat * right.toNat := by simpa [BitVec.umulOverflow] using overflow
    rw [← Int.natCast_mul]
    omega

/-! ## Signed words -/

variable {value : Int64}

private theorem toNat_abs_eq_natAbs (value : Int64) :
    value.toBitVec.abs.toNat = value.toInt.natAbs := by
  have bound := value.toBitVec.isLt
  rw [BitVec.toNat_abs, ← Int64.toInt_toBitVec, BitVec.toInt_eq_msb_cond]
  split <;> omega

private theorem natAbs_le (value : Int64) : value.toInt.natAbs ≤ 9223372036854775808 := by
  have least := value.le_toInt
  have greatest := value.toInt_lt
  omega

private theorem toInt_ne_zero (nonzero : value ≠ 0) : value.toInt ≠ 0 :=
  fun zero => nonzero (Int64.toInt_inj.mp zero)

/-- Above the least signed word there is room for the negation. -/
theorem natAbs_lt (above : value ≠ Int64.minValue) : value.toInt.natAbs < 2 ^ 63 := by
  have least := value.le_toInt
  have greatest := value.toInt_lt
  have different : value.toInt ≠ -2 ^ 63 := fun same => above (Int64.toInt_inj.mp same)
  omega

private theorem toInt_neg (above : value ≠ Int64.minValue) : (-value).toInt = -value.toInt := by
  have room := natAbs_lt above
  rw [Int64.toInt_neg]
  exact Int.bmod_eq_of_le (by omega) (by omega)

end Word

namespace Literal

variable {literal : Literal} {value : Int64}

/-! ## Codes as words -/

def word (literal : Literal) : Word := .ofNatLT literal.code literal.code_lt

@[simp] theorem toNat_word (literal : Literal) : literal.word.toNat = literal.code := rfl

private theorem toNat_word_shift (literal : Literal) : (literal.word >>> 1).toNat = literal.var := by
  rw [BitVec.toNat_ushiftRight, toNat_word, Nat.shiftRight_one]
  rfl

private theorem positive_eq_word_mask (literal : Literal) :
    literal.positive = (literal.word &&& 1#64 == 0#64) := by
  rw [Bool.eq_iff_iff, beq_iff_eq, ← BitVec.toNat_inj, BitVec.toNat_and, toNat_word]
  simp [positive]

private theorem word_negate (literal : Literal) : literal.negate.word = literal.word ^^^ 1#64 := by
  apply BitVec.eq_of_toNat_eq
  rw [BitVec.toNat_xor, toNat_word, toNat_word]
  change literal.negate.code = literal.code ^^^ 1
  by_cases even : literal.code % 2 = 0
  · rw [Nat.xor_one_of_even (Nat.even_iff.mpr even)]
    simp [negate, even]
  · rw [Nat.xor_one_of_odd (Nat.odd_iff.mpr (Nat.mod_two_ne_zero.mp even))]
    simp [negate, even]

/-! ## Signed words as literals -/

/-- The code of the literal that a signed word denotes, computed on words. The magnitude of the least
signed word is a word, though not a signed one. -/
def wordOf? (value : Int64) : Option Word :=
  (Word.sub? value.toBitVec.abs 1#64).bind fun var =>
    (Word.mul? 2#64 var).bind fun twice =>
      Word.add? twice (if 0 < value then 0#64 else 1#64)

private theorem toDimacs_inj {left right : Literal} (same : left.toDimacs = right.toDimacs) :
    left = right := by
  have denoted := Dimacs.ofDimacs?_toDimacs left
  rw [same, Dimacs.ofDimacs?_toDimacs] at denoted
  exact (Option.some_inj.mp denoted).symm

private theorem toDimacs_negate (literal : Literal) :
    literal.negate.toDimacs = -literal.toDimacs := by
  unfold toDimacs
  cases sign : literal.positive <;> simp [sign]

private theorem toDimacs_of_denoted (denoted : ofDimacs? value.toInt = some literal) :
    literal.toDimacs = value.toInt := by
  have nonzero : value ≠ 0 := by
    rintro rfl
    rw [Int64.toInt_zero, ofDimacs?_zero] at denoted
    cases denoted
  exact Dimacs.toDimacs_of_ofDimacs? (Word.toInt_ne_zero nonzero) (Word.natAbs_le value) denoted

/-- The literal is what the signed word denotes: computed on words without overflow, printed as a
numeral of the word and negated with it. -/
structure Numbered (value : Int64) (literal : Literal) : Prop where
  denoted : ofDimacs? value.toInt = some literal
  computed : wordOf? value = some literal.word
  reserved : literal = invalid ↔ value = Int64.minValue
  var : literal.var + 1 = value.toInt.natAbs
  printed : value ≠ Int64.minValue → Text.signed? literal.text.toList = some value.toInt
  negated : value ≠ Int64.minValue → ofDimacs? (-value).toInt = some literal.negate

private theorem wordOf?_eq_word (size : literal.var + 1 = value.toInt.natAbs)
    (sign : literal.positive = decide (0 < value.toInt)) : wordOf? value = some literal.word := by
  have code : literal.code = 2 * literal.var + if literal.positive then 0 else 1 :=
    (Dimacs.codeOf_var_positive literal).symm
  have twiceFits : 2 * literal.var < 2 ^ 64 :=
    Nat.lt_of_le_of_lt (Nat.le_add_right _ _) (code ▸ literal.code_lt)
  have varFits : literal.var < 2 ^ 64 :=
    Nat.lt_of_le_of_lt (Nat.le_mul_of_pos_left _ (by decide)) twiceFits
  have subtracted : Word.sub? value.toBitVec.abs 1#64 = some (.ofNatLT literal.var varFits) := by
    rw [Word.sub?_eq_some_iff, Word.toNat_abs_eq_natAbs, ← size]
    exact Int.add_sub_cancel (literal.var : Int) 1
  have doubled : Word.mul? 2#64 (.ofNatLT literal.var varFits) =
      some (.ofNatLT (2 * literal.var) twiceFits) :=
    Word.mul?_eq_some_iff.mpr rfl
  have signed : (if 0 < value then 0#64 else 1#64).toNat = if literal.positive then 0 else 1 := by
    simp only [sign, Int64.lt_iff_toInt_lt, Int64.toInt_zero, decide_eq_true_eq]
    split <;> rfl
  rw [wordOf?, subtracted, Option.bind_some, doubled, Option.bind_some, Word.add?_eq_some_iff,
    signed, toNat_word, code]
  rfl

private theorem exists_numbered (nonzero : value ≠ 0) : ∃ literal, Numbered value literal := by
  obtain ⟨literal, denoted, size, sign⟩ :=
    exists_ofDimacs? (Word.toInt_ne_zero nonzero) (Word.natAbs_le value)
  have number := toDimacs_of_denoted denoted
  refine ⟨literal, denoted, wordOf?_eq_word size sign, ⟨?_, ?_⟩, size, ?_, ?_⟩
  · rintro rfl
    exact Int64.toInt_inj.mp number.symm
  · rintro rfl
    exact toDimacs_inj number
  · intro above
    have fits : literal.var + 1 < 2 ^ 63 := by
      rw [size]
      exact Word.natAbs_lt above
    rw [Text.signed?_eq_some_iff, ← number]
    exact Dimacs.signed_text fits
  · intro above
    rw [Word.toInt_neg above, ← number, ← toDimacs_negate]
    exact Dimacs.ofDimacs?_toDimacs _

private theorem eq_zero_of_ofDimacs?_eq_none (nothing : ofDimacs? value.toInt = none) :
    value = 0 := by
  by_contra nonzero
  obtain ⟨literal, numbered⟩ := exists_numbered nonzero
  rw [numbered.denoted] at nothing
  cases nothing

private theorem ofDimacs?_toInt_inj {left right : Int64}
    (same : ofDimacs? left.toInt = ofDimacs? right.toInt) : left = right := by
  cases denoted : ofDimacs? left.toInt with
  | none =>
      rw [eq_zero_of_ofDimacs?_eq_none denoted,
        eq_zero_of_ofDimacs?_eq_none (same.symm.trans denoted)]
  | some literal =>
      apply Int64.toInt_inj.mp
      rw [← toDimacs_of_denoted denoted, ← toDimacs_of_denoted (same.symm.trans denoted)]

/-! ## Values of literals -/

section Values

variable {values : Valuation}

private theorem value_eq_holds_iff :
    literal.value values = .holds ↔ values[literal.var]? = some (.ofSign literal.positive) := by
  rw [value, Valuation.value_eq_getElem?]
  cases literal.positive <;> rcases values[literal.var]? with _ | (_ | _ | _) <;>
    simp [Truth.ofSign, Truth.complement]

private theorem value_negate_eq_unset_iff :
    literal.negate.value values = .unset ↔ literal.value values = .unset := by
  rw [value_eq_unset_iff, value_eq_unset_iff, var_negate]

theorem value_of_size_le (beyond : values.size ≤ literal.var) : literal.value values = .unset :=
  value_eq_unset_iff.mpr (Valuation.value_of_size_le beyond)

end Values

/-- Every signed word other than zero denotes a literal of its own, which is computed on words without
overflow and is the reserved one for the least word alone. The operations on codes are those on words,
and the value of a negated literal is the complement, whether or not the values reach its variable. -/
theorem machine_encoding :
    (∀ value : Int64, value ≠ 0 → ∃ literal, Numbered value literal) ∧
    (∀ left right : Int64, ofDimacs? left.toInt = ofDimacs? right.toInt → left = right) ∧
    (∀ literal : Literal, literal.var = (literal.word >>> 1).toNat ∧
      literal.positive = (literal.word &&& 1#64 == 0#64) ∧
      literal.negate.word = literal.word ^^^ 1#64) ∧
    ∀ (values : Valuation) (literal : Literal),
      literal.negate.value values = (literal.value values).complement ∧
      (literal.negate.value values = .unset ↔ literal.value values = .unset) ∧
      (literal.value values = .holds ↔
        values[literal.var]? = some (.ofSign literal.positive)) ∧
      (values.size ≤ literal.var →
        literal.value values = .unset ∧ literal.negate.value values = .unset) := by
  refine ⟨fun _ => exists_numbered, fun _ _ => ofDimacs?_toInt_inj, fun literal => ?_,
    fun values literal => ?_⟩
  · exact ⟨(toNat_word_shift literal).symm, positive_eq_word_mask literal, word_negate literal⟩
  · refine ⟨value_negate values literal, value_negate_eq_unset_iff, value_eq_holds_iff, ?_⟩
    intro beyond
    have free := value_of_size_le beyond
    exact ⟨free, value_negate_eq_unset_iff.mpr free⟩

/-- The code of the least word is the reserved one. The word after it and the greatest word denote the
two literals of one variable, which lies beyond a table of one entry. -/
theorem machine_encoding_at_ends :
    let lower : Literal := ⟨18446744073709551613, by decide⟩
    let upper : Literal := ⟨18446744073709551612, by decide⟩
    Numbered Int64.minValue invalid ∧ Numbered (-Int64.maxValue) lower ∧
      Numbered Int64.maxValue upper ∧
      Text.signed? "-9223372036854775807".toList = some (-Int64.maxValue).toInt ∧
      ofDimacs? (-Int64.maxValue).toInt = some upper.negate ∧
      upper.value #[.holds] = .unset ∧ upper.negate.value #[.holds] = .unset := by
  intro lower upper
  have numbered {value : Int64} {literal : Literal} (nonzero : value ≠ 0)
      (denoted : ofDimacs? value.toInt = some literal) : Numbered value literal := by
    obtain ⟨other, numbered⟩ := machine_encoding.1 value nonzero
    rw [numbered.denoted] at denoted
    cases denoted
    exact numbered
  have atLower : Numbered (-Int64.maxValue) lower := numbered (by decide) (by decide)
  have atUpper : Numbered Int64.maxValue upper := numbered (by decide) (by decide)
  have text : lower.text = "-9223372036854775807" := by decide +kernel
  obtain ⟨-, -, -, beyond⟩ := machine_encoding.2.2.2 #[.holds] upper
  refine ⟨numbered (by decide) (by decide), atLower, atUpper, ?_, ?_, beyond (by decide)⟩
  · rw [← text]
    exact atLower.printed (by decide)
  · exact atUpper.negated (by decide)

end Literal

end Dpll
