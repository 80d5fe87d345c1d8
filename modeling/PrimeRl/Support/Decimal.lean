import Mathlib.Algebra.Ring.Int.Defs
import Mathlib.Algebra.Ring.Nat
import Mathlib.Data.List.Induction

/-!
# Canonical decimals

The decimal of a number has no superfluous zero in front. Texts of that shape
are exactly the decimals, and decimals are compared by length first and then by
their characters in order.
-/

namespace Decimal

/-- Digits without a superfluous zero in front. -/
def Canonical (text : List Char) : Prop :=
  text ≠ [] ∧ (∀ digit ∈ text, digit.isDigit) ∧ (text.head? = some '0' → text = ['0'])

/-- A digit shows a number below ten. -/
theorem digit_value {digit : Char} (isDigit : digit.isDigit) :
    ∃ value < 10, digit = Nat.digitChar value ∧ digit.toNat = 48 + value := by
  have codes : 48 ≤ digit.val ∧ digit.val ≤ 57 := by
    simpa [Char.isDigit] using isDigit
  have bounds : 48 ≤ digit.toNat ∧ digit.toNat ≤ 57 := codes
  have small : digit.toNat - 48 < 10 := by omega
  refine ⟨digit.toNat - 48, small, ?_, by omega⟩
  apply Char.toNat_inj.mp
  rw [Nat.toNat_digitChar_of_lt_ten small]
  omega

/-- The decimal of a positive number starts with a positive digit. -/
theorem head_of_positive (number : Nat) (positive : 0 < number) :
    (Nat.toDigits 10 number).head? ≠ some '0' := by
  induction number using Nat.strongRecOn with
  | ind number inductionHypothesis =>
    by_cases small : number < 10
    · rw [Nat.toDigits_of_lt_base small]
      intro zero
      have code := congrArg Char.toNat (Option.some.inj zero)
      rw [Nat.toNat_digitChar_of_lt_ten small] at code
      have base : '0'.toNat = 48 := rfl
      omega
    · have shorter := inductionHypothesis (number / 10) (by omega) (by omega)
      obtain ⟨first, rest, isShorter⟩ := List.exists_cons_of_ne_nil
        (Nat.toDigits_ne_nil (n := number / 10) (b := 10))
      rw [isShorter] at shorter
      rw [Nat.toDigits_of_base_le (by decide) (by omega), isShorter]
      exact shorter

theorem canonical_toDigits (number : Nat) : Canonical (Nat.toDigits 10 number) := by
  refine ⟨Nat.toDigits_ne_nil, ?_, ?_⟩
  · intro digit member
    exact Nat.isDigit_of_mem_toDigits (by decide) (by decide) member
  · intro zero
    by_cases positive : 0 < number
    · exact absurd zero (head_of_positive number positive)
    · rw [Nat.eq_zero_of_not_pos positive, Nat.toDigits_zero]

/-- Only decimals are canonical. The induction removes the last digit; what is
    left is the decimal of a positive number unless nothing is left. -/
theorem canonical_decimal (text : List Char) (canonical : Canonical text) :
    ∃ number, text = Nat.toDigits 10 number := by
  induction text using List.reverseRecOn with
  | nil => exact absurd rfl canonical.1
  | append_singleton front last inductionHypothesis =>
    obtain ⟨-, digits, noZero⟩ := canonical
    obtain ⟨value, small, isLast, -⟩ := digit_value (digits last (by simp))
    cases front with
    | nil => exact ⟨value, by rw [Nat.toDigits_of_lt_base small, isLast, List.nil_append]⟩
    | cons first rest =>
      have positive : first ≠ '0' := by
        intro zero
        have short := congrArg List.length (noZero (congrArg some zero))
        simp at short
      have frontCanonical : Canonical (first :: rest) := by
        refine ⟨List.cons_ne_nil first rest, ?_, ?_⟩
        · intro digit member
          exact digits digit (List.mem_append_left [last] member)
        · intro zero
          exact absurd (Option.some.inj zero) positive
      obtain ⟨number, isFront⟩ := inductionHypothesis frontCanonical
      have nonzero : 0 < number := by
        apply Nat.pos_of_ne_zero
        rintro rfl
        rw [Nat.toDigits_zero] at isFront
        exact positive (List.cons.inj isFront).1
      refine ⟨10 * number + value, ?_⟩
      rw [isFront, isLast, ← Nat.toDigits_append_toDigits (by decide) nonzero small,
        Nat.toDigits_of_lt_base small]

/-- Texts of the stated shape are the decimals. -/
theorem canonical_iff (text : List Char) :
    Canonical text ↔ ∃ number, text = Nat.toDigits 10 number := by
  constructor
  · exact canonical_decimal text
  · rintro ⟨number, rfl⟩
    exact canonical_toDigits number

/-- A first digit counts the power of ten of the digits behind it. -/
theorem number_cons (rest : List Char) {digit : Char} {value : Nat} (code : digit.toNat = 48 + value) :
    Nat.ofDigitChars 10 (digit :: rest) 0 =
      10 ^ rest.length * value + Nat.ofDigitChars 10 rest 0 := by
  have base : '0'.toNat = 48 := rfl
  rw [Nat.ofDigitChars_cons, Nat.ofDigitChars_eq_ofDigitChars_zero, code, base, Nat.mul_zero,
    Nat.zero_add, Nat.add_sub_cancel_left]

/-- Digits show a number below the power of ten of their count. -/
theorem number_bound (text : List Char) (digits : ∀ digit ∈ text, digit.isDigit) :
    Nat.ofDigitChars 10 text 0 < 10 ^ text.length := by
  induction text with
  | nil => exact Nat.one_pos
  | cons digit rest inductionHypothesis =>
    obtain ⟨here, later⟩ := List.forall_mem_cons.mp digits
    obtain ⟨value, small, -, code⟩ := digit_value here
    have below := inductionHypothesis later
    rw [number_cons rest code, List.length_cons, Nat.pow_succ]
    have scaled := Nat.mul_le_mul_left (10 ^ rest.length) (Nat.le_of_lt_succ small)
    omega

/-- Numbers below a unit compare after the counts of the unit in front of them. -/
theorem scaled_lt_iff {unit value otherValue rest otherRest : Nat} (below : rest < unit)
    (otherBelow : otherRest < unit) :
    unit * value + rest < unit * otherValue + otherRest ↔
      value < otherValue ∨ value = otherValue ∧ rest < otherRest := by
  rcases Nat.lt_trichotomy value otherValue with less | rfl | more
  · have scaled := Nat.mul_le_mul_left unit (Nat.succ_le_of_lt less)
    rw [Nat.mul_succ] at scaled
    omega
  · omega
  · have scaled := Nat.mul_le_mul_left unit (Nat.succ_le_of_lt more)
    rw [Nat.mul_succ] at scaled
    omega

/-- Digits of equal count compare as the numbers they show. -/
theorem lt_iff_number (text other : List Char) (digits : ∀ digit ∈ text, digit.isDigit)
    (otherDigits : ∀ digit ∈ other, digit.isDigit) (sameLength : text.length = other.length) :
    text < other ↔ Nat.ofDigitChars 10 text 0 < Nat.ofDigitChars 10 other 0 := by
  induction text generalizing other with
  | nil =>
    rw [List.eq_nil_of_length_eq_zero sameLength.symm]
    simp
  | cons digit rest inductionHypothesis =>
    cases other with
    | nil => cases sameLength
    | cons otherDigit otherRest =>
      have restLength : rest.length = otherRest.length := Nat.succ.inj sameLength
      obtain ⟨here, later⟩ := List.forall_mem_cons.mp digits
      obtain ⟨otherHere, otherLater⟩ := List.forall_mem_cons.mp otherDigits
      obtain ⟨value, small, isDigit, code⟩ := digit_value here
      obtain ⟨otherValue, otherSmall, isOther, otherCode⟩ := digit_value otherHere
      have below := number_bound rest later
      have otherBelow := number_bound otherRest otherLater
      have less : digit < otherDigit ↔ value < otherValue := by
        change digit.toNat < otherDigit.toNat ↔ value < otherValue
        omega
      have same : digit = otherDigit ↔ value = otherValue := by
        rw [← Char.toNat_inj]
        omega
      rw [← restLength] at otherBelow
      rw [List.cons_lt_cons_iff, less, same, inductionHypothesis otherRest later otherLater restLength,
        number_cons rest code, number_cons otherRest otherCode, ← restLength]
      exact (scaled_lt_iff below otherBelow).symm

/-- A number exceeds a bound when its decimal is longer, or as long and later in
    the order of characters. -/
theorem exceeds_iff (number bound : Nat) :
    bound < number ↔
      (Nat.toDigits 10 bound).length < (Nat.toDigits 10 number).length ∨
        (Nat.toDigits 10 number).length = (Nat.toDigits 10 bound).length ∧
          Nat.toDigits 10 bound < Nat.toDigits 10 number := by
  have shorter : ∀ small large : Nat,
      (Nat.toDigits 10 small).length < (Nat.toDigits 10 large).length → small < large := by
    intro small large less
    have positive : 0 < (Nat.toDigits 10 small).length := Nat.length_toDigits_pos
    have below := (Nat.length_toDigits_le_iff (by decide) positive).mp (Nat.le_refl _)
    have above := mt (Nat.length_toDigits_le_iff (n := large) (by decide) positive).mpr
      (Nat.not_le_of_lt less)
    omega
  have digits : ∀ value digit, digit ∈ Nat.toDigits 10 value → digit.isDigit := by
    intro value digit member
    exact Nat.isDigit_of_mem_toDigits (by decide) (by decide) member
  have sameLength : (Nat.toDigits 10 number).length = (Nat.toDigits 10 bound).length →
      (Nat.toDigits 10 bound < Nat.toDigits 10 number ↔ bound < number) := by
    intro same
    rw [lt_iff_number _ _ (digits bound) (digits number) same.symm, Nat.ofDigitChars_ten_toDigits,
      Nat.ofDigitChars_ten_toDigits]
  constructor
  · intro more
    rcases Nat.lt_trichotomy (Nat.toDigits 10 bound).length (Nat.toDigits 10 number).length
      with less | same | greater
    · exact .inl less
    · exact .inr ⟨same.symm, (sameLength same.symm).mpr more⟩
    · exact absurd (shorter number bound greater) (Nat.lt_asymm more)
  · rintro (less | ⟨same, later⟩)
    · exact shorter bound number less
    · exact (sameLength same).mp later

end Decimal
