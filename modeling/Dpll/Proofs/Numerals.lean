import Mathlib.Data.List.Induction
import Mathlib.Data.Nat.Digits.Defs
import Dpll.Text.Numeral

/-!
# Numerals and numbers

Which texts are numerals, told by the digits at their places, and that exactly these are read as
numbers of a machine word. A number that is printed is a numeral of that number.
-/

set_option autoImplicit false

namespace Dpll.Text

/-- The text is a decimal numeral of the number. It may begin with zeros. -/
def Decimal (text : List Char) (number : Nat) : Prop :=
  ∃ digits : List Nat, digits ≠ [] ∧ (∀ digit ∈ digits, digit < 10) ∧
    text = digits.map Nat.digitChar ∧ number = Nat.ofDigits 10 digits.reverse

inductive Unsigned : List Char → Nat → Prop where
  | plain {text : List Char} {number : Nat} :
      Decimal text number → number < 2 ^ 64 → Unsigned text number
  | plus {text : List Char} {number : Nat} :
      Decimal text number → number < 2 ^ 64 → Unsigned ('+' :: text) number

/-- The text is a numeral of a number of 64 bits, one of which is its sign. -/
inductive Signed : List Char → Int → Prop where
  | plain {text : List Char} {number : Nat} :
      Decimal text number → number < 2 ^ 63 → Signed text number
  | plus {text : List Char} {number : Nat} :
      Decimal text number → number < 2 ^ 63 → Signed ('+' :: text) number
  | minus {text : List Char} {number : Nat} :
      Decimal text number → number ≤ 2 ^ 63 → Signed ('-' :: text) (-number)

/-! ## Digits -/

private theorem ofDigits_map_digitChar {digits : List Nat} (small : ∀ digit ∈ digits, digit < 10) :
    ofDigits (digits.map Nat.digitChar) = Nat.ofDigits 10 digits.reverse := by
  induction digits using List.reverseRecOn with
  | nil => rfl
  | append_singleton front last ih =>
      obtain ⟨smallFront, smallLast⟩ := List.forall_mem_append.mp small
      have value : last.digitChar.toNat - '0'.toNat = last :=
        Nat.toNat_digitChar_sub_48_of_lt_ten (smallLast last (List.mem_singleton.mpr rfl))
      have step : ofDigits (front.map Nat.digitChar ++ [last.digitChar]) =
          10 * ofDigits (front.map Nat.digitChar) + (last.digitChar.toNat - '0'.toNat) := by
        simp [ofDigits]
      rw [List.map_append, List.map_singleton, step, ih smallFront, value, List.reverse_append,
        List.reverse_singleton, List.singleton_append, Nat.ofDigits_cons, Nat.add_comm]

theorem exists_digitChar {char : Char} (isDigit : char.isDigit = true) :
    ∃ digit, digit < 10 ∧ char = digit.digitChar := by
  have bounds : 48 ≤ char.toNat ∧ char.toNat ≤ 57 := by
    simpa [Char.isDigit, UInt32.le_iff_toNat_le] using isDigit
  refine ⟨char.toNat - 48, by omega, Char.toNat_inj.mp ?_⟩
  rw [Nat.toNat_digitChar_of_lt_ten (by omega)]
  omega

private theorem exists_digits {text : List Char} (isDigits : ∀ char ∈ text, char.isDigit = true) :
    ∃ digits : List Nat, (∀ digit ∈ digits, digit < 10) ∧ text = digits.map Nat.digitChar := by
  induction text with
  | nil => exact ⟨[], by simp, rfl⟩
  | cons char rest ih =>
      obtain ⟨first, others⟩ := List.forall_mem_cons.mp isDigits
      obtain ⟨digit, small, rfl⟩ := exists_digitChar first
      obtain ⟨digits, allSmall, rfl⟩ := ih others
      exact ⟨digit :: digits, List.forall_mem_cons.mpr ⟨small, allSmall⟩, rfl⟩

private theorem natural?_eq_some_iff {text : List Char} {number : Nat} :
    natural? text = some number ↔ Decimal text number := by
  constructor
  · intro read
    have parts : (text ≠ [] ∧ ∀ char ∈ text, char.isDigit = true) ∧ ofDigits text = number := by
      simpa [natural?] using read
    obtain ⟨⟨nonempty, isDigits⟩, rfl⟩ := parts
    obtain ⟨digits, small, rfl⟩ := exists_digits isDigits
    exact ⟨digits, by simpa using nonempty, small, rfl, ofDigits_map_digitChar small⟩
  · rintro ⟨digits, nonempty, small, rfl, rfl⟩
    have isDigits : ∀ digit ∈ digits, digit.digitChar.isDigit = true := by
      intro digit member
      simpa [Nat.isDigit_digitChar] using small digit member
    simpa [natural?, nonempty, ofDigits_map_digitChar small] using isDigits

theorem Decimal.head_isDigit {char : Char} {rest : List Char} {number : Nat}
    (decimal : Decimal (char :: rest) number) : char.isDigit = true := by
  have read := natural?_eq_some_iff.mpr decimal
  have parts : (char.isDigit = true ∧ ∀ char ∈ rest, char.isDigit = true) ∧
      ofDigits (char :: rest) = number := by
    simpa [natural?] using read
  exact parts.1.1

private theorem Decimal.withoutPlus_eq {text : List Char} {number : Nat}
    (decimal : Decimal text number) :
    withoutPlus text = text := by
  unfold withoutPlus
  split
  · exact absurd decimal.head_isDigit (by decide)
  · rfl

/-! ## Numbers of a machine word -/

theorem unsigned?_eq_some_iff {text : List Char} {number : Nat} :
    unsigned? text = some number ↔ Unsigned text number := by
  have read : unsigned? text = some number ↔
      Decimal (withoutPlus text) number ∧ number < 2 ^ 64 := by
    simp [unsigned?, Option.filter_eq_some_iff, natural?_eq_some_iff]
  rw [read]
  constructor
  · rintro ⟨decimal, small⟩
    unfold withoutPlus at decimal
    split at decimal
    · exact .plus decimal small
    · exact .plain decimal small
  · rintro (⟨decimal, small⟩ | ⟨decimal, small⟩)
    · exact ⟨by rwa [decimal.withoutPlus_eq], small⟩
    · exact ⟨decimal, small⟩

private theorem signed?_minus {text : List Char} {value : Int} :
    signed? ('-' :: text) = some value ↔
      ∃ number : Nat, (Decimal text number ∧ number ≤ 2 ^ 63) ∧ -(number : Int) = value := by
  simp [signed?, Option.bind_eq_some_iff, Option.filter_eq_some_iff, natural?_eq_some_iff]

private theorem signed?_of_ne_minus {text : List Char} (unsigned : ∀ rest, text ≠ '-' :: rest)
    {value : Int} :
    signed? text = some value ↔
      ∃ number : Nat, (Decimal (withoutPlus text) number ∧ number < 2 ^ 63) ∧
        (number : Int) = value := by
  rw [signed?.eq_2 text unsigned]
  simp [Option.filter_eq_some_iff, natural?_eq_some_iff]

theorem signed?_eq_some_iff {text : List Char} {value : Int} :
    signed? text = some value ↔ Signed text value := by
  constructor
  · intro read
    by_cases negative : ∃ rest, text = '-' :: rest
    · obtain ⟨rest, rfl⟩ := negative
      obtain ⟨number, ⟨decimal, small⟩, rfl⟩ := signed?_minus.mp read
      exact .minus decimal small
    · obtain ⟨number, ⟨decimal, small⟩, rfl⟩ :=
        (signed?_of_ne_minus (not_exists.mp negative)).mp read
      unfold withoutPlus at decimal
      split at decimal
      · exact .plus decimal small
      · exact .plain decimal small
  · rintro (⟨decimal, small⟩ | ⟨decimal, small⟩ | ⟨decimal, small⟩)
    · refine (signed?_of_ne_minus ?_).mpr ⟨_, ⟨by rwa [decimal.withoutPlus_eq], small⟩, rfl⟩
      rintro rest rfl
      exact absurd decimal.head_isDigit (by decide)
    · exact (signed?_of_ne_minus (by simp)).mpr ⟨_, ⟨decimal, small⟩, rfl⟩
    · exact signed?_minus.mpr ⟨_, ⟨decimal, small⟩, rfl⟩

/-! ## Printed numbers -/

theorem decimal_toString (number : Nat) : Decimal (toString number).toList number := by
  have isDigits : ∀ char ∈ Nat.toDigits 10 number, char.isDigit = true :=
    fun _ member => Nat.isDigit_of_mem_toDigits (by decide) (by decide) member
  have value : ofDigits (Nat.toDigits 10 number) = number :=
    (Nat.ofDigitChars_eq_foldl.symm).trans Nat.ofDigitChars_ten_toDigits
  apply natural?_eq_some_iff.mp
  change natural? number.repr.toList = some number
  rw [Nat.toList_repr]
  simpa [natural?, value, Nat.toDigits_ne_nil] using isDigits

end Dpll.Text
