import Mathlib.Algebra.Ring.Int.Defs
import Mathlib.Algebra.Ring.Nat
import Mathlib.Data.Int.Init

/-!
# Signed words of 64 bits

A word is the integer it stands for. Results outside the range wrap around, and
arithmetic on words is exact wherever the exact result fits.
-/

namespace SignedWord

def lowest : Int := -2 ^ 63
def highest : Int := 2 ^ 63 - 1

/-- In the range of a word. -/
def Fits (value : Int) : Prop := lowest ≤ value ∧ value ≤ highest

instance (value : Int) : Decidable (Fits value) := inferInstanceAs (Decidable (_ ∧ _))

/-- The word that a result is stored as. -/
def wrap (value : Int) : Int := Int.bmod value (2 ^ 64)

theorem wrap_of_fits {value : Int} (fits : Fits value) : wrap value = value := by
  obtain ⟨low, high⟩ := fits
  simp only [lowest, highest] at low high
  apply Int.bmod_eq_of_le <;> omega

end SignedWord
