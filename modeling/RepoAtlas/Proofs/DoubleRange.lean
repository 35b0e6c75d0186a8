/-
Module: RepoAtlas.Proofs.DoubleRange
Purpose: Which integers lie beyond every double.
  The greatest finite double is `(2 ^ 53 - 1) * 2 ^ 971`.  An integer is rounded to an infinity from
  half a unit above it on, where the tie goes to the even neighbour, which no longer is finite.
Main exports: exponentFor_one, roundHalfEven_eq_top_iff, ofInt_isInfinite_iff
-/
import RepoAtlas.Number.Binary64
import Mathlib.Tactic.Ring
import Mathlib.Tactic.Linarith

namespace RepoAtlas.Number

/-- Half a unit in the last place of the greatest finite doubles. -/
def halfUnit : Nat := powerOfTwo 970

/-- The least size at which an integer is rounded to an infinity. -/
def infiniteFrom : Nat := (2 ^ 54 - 1) * halfUnit

theorem powerOfTwo_pos (exponent : Nat) : 0 < powerOfTwo exponent :=
  Nat.two_pow_pos exponent

theorem powerOfTwo_add (first second : Nat) :
    powerOfTwo (first + second) = powerOfTwo first * powerOfTwo second :=
  Nat.pow_add 2 first second

theorem powerOfTwo_add_high (exponent : Nat) :
    powerOfTwo (exponent + 970) = powerOfTwo exponent * halfUnit := by
  rw [halfUnit, powerOfTwo_add]

/-- A number reaches a multiple of the half unit with the highest bit of that multiple. -/
theorem le_log2_iff_halfUnit {size : Nat} (positive : 0 < size) (exponent : Nat) :
    exponent + 970 ≤ size.log2 ↔ powerOfTwo exponent * halfUnit ≤ size := by
  rw [← powerOfTwo_add_high]
  exact Nat.le_log2 (Nat.ne_of_gt positive)

/-- Below an even bound, rounding reaches the bound from half a unit below it on. -/
theorem roundHalfEven_eq_top_iff {num half top : Nat} (positive : 0 < half) (even : top % 2 = 0)
    (below : num < top * (2 * half)) :
    roundHalfEven num (2 * half) = top ↔ (2 * top - 1) * half ≤ num := by
  have split := Nat.div_add_mod num (2 * half)
  have remainder := Nat.mod_lt num (show 0 < 2 * half by omega)
  have quotient : num / (2 * half) < top := Nat.div_lt_of_lt_mul (by rwa [Nat.mul_comm])
  unfold roundHalfEven
  generalize num / (2 * half) = whole at *
  generalize num % (2 * half) = rest at *
  obtain ⟨gap, rfl⟩ := Nat.exists_eq_add_of_lt quotient
  have bound : (2 * (whole + gap + 1) - 1) * half = 2 * half * whole + 2 * (gap * half) + half := by
    have unfolded : 2 * (whole + gap + 1) - 1 = 2 * whole + 2 * gap + 1 := by omega
    rw [unfolded]
    ring
  rw [bound, ← split]
  cases gap with
  | zero =>
    -- The quotient is odd, so a tie goes up.
    simp only
    split_ifs <;> omega
  | succ gap =>
    have far : half ≤ (gap + 1) * half := Nat.le_mul_of_pos_left half (by omega)
    simp only
    split_ifs <;> omega

/-- Fifty-three bits below its highest bit a number has a mantissa that is too long. -/
private theorem scaleRatio_one_ge {size : Nat} (positive : 0 < size) :
    powerOfTwo 53 * (Binary64.scaleRatio size 1 ((size.log2 : Int) - 53)).2 ≤
      (Binary64.scaleRatio size 1 ((size.log2 : Int) - 53)).1 := by
  have low := Nat.log2_self_le (Nat.ne_of_gt positive)
  unfold Binary64.scaleRatio
  split
  · next large =>
    have exponent : ((size.log2 : Int) - 53).toNat = size.log2 - 53 := by omega
    have whole : 2 ^ 53 * 2 ^ (size.log2 - 53) = 2 ^ size.log2 := by
      rw [← Nat.pow_add]
      congr 1
      omega
    simp only [exponent, powerOfTwo, Nat.pow_eq, Nat.one_mul, whole]
    exact low
  · next small =>
    have exponent : (-((size.log2 : Int) - 53)).toNat = 53 - size.log2 := by omega
    have whole : 2 ^ size.log2 * 2 ^ (53 - size.log2) = 2 ^ 53 := by
      rw [← Nat.pow_add]
      congr 1
      omega
    simp only [exponent, powerOfTwo, Nat.pow_eq, Nat.mul_one, ← whole]
    exact Nat.mul_le_mul_right _ low

/-- A positive integer has its mantissa of fifty-three bits at the exponent of its highest bit. -/
theorem exponentFor_one {size : Nat} (positive : 0 < size) :
    Binary64.exponentFor size 1 = (size.log2 : Int) - 52 := by
  have guess : (size.log2 : Int) - (Nat.log2 1 : Nat) - 53 = (size.log2 : Int) - 53 := by
    have single : Nat.log2 1 = 0 := by decide
    omega
  unfold Binary64.exponentFor
  simp only [guess, if_pos (scaleRatio_one_ge positive), Binary64.minExponent]
  rw [if_neg (by omega)]
  omega

/-- A positive integer is rounded to an infinity when its highest bit is too high, or when it is the
highest that is allowed and rounding carries into the next. -/
private theorem ofRatio_isInfinite_iff {size : Nat} (positive : 0 < size) (negative : Bool) :
    (∃ sign, Binary64.ofRatio negative size 1 = .infinite sign) ↔
      1024 ≤ size.log2 ∨ size.log2 = 1023 ∧ roundHalfEven size (2 * halfUnit) = powerOfTwo 53 := by
  have scaled : size.log2 = 1023 →
      Binary64.scaleRatio size 1 ((size.log2 : Int) - 52) = (size, 2 * halfUnit) := by
    intro edge
    have exponent : ((size.log2 : Int) - 52).toNat = 1 + 970 := by omega
    have two : powerOfTwo 1 = 2 := rfl
    rw [Binary64.scaleRatio, if_pos (by omega), Nat.one_mul, exponent, powerOfTwo_add_high, two]
  unfold Binary64.ofRatio
  rw [if_neg (Nat.ne_of_gt positive)]
  simp only [exponentFor_one positive, Binary64.maxExponent]
  rcases Nat.lt_trichotomy size.log2 1023 with small | edge | large
  · rw [if_neg (by split_ifs <;> omega)]
    constructor
    · rintro ⟨sign, infinite⟩
      cases infinite
    · rintro (large | ⟨edge, _⟩) <;> omega
  · simp only [scaled edge]
    by_cases carried : roundHalfEven size (2 * halfUnit) = powerOfTwo 53
    · rw [if_pos (by rw [if_pos carried]; omega)]
      exact ⟨fun _ => .inr ⟨edge, carried⟩, fun _ => ⟨negative, rfl⟩⟩
    · rw [if_neg (by rw [if_neg carried]; omega)]
      constructor
      · rintro ⟨sign, infinite⟩
        cases infinite
      · rintro (large | ⟨_, equal⟩)
        · omega
        · exact absurd equal carried
  · rw [if_pos (by split_ifs <;> omega)]
    exact ⟨fun _ => .inl large, fun _ => ⟨negative, rfl⟩⟩

/-- An integer is rounded to an infinity exactly from `infiniteFrom` on. -/
theorem ofInt_isInfinite_iff (value : Int) :
    (∃ negative, Binary64.ofInt value = .infinite negative) ↔ infiniteFrom ≤ value.natAbs := by
  have half : 0 < halfUnit := powerOfTwo_pos 970
  have bits : powerOfTwo 53 = 2 ^ 53 ∧ powerOfTwo 54 = 2 ^ 54 := ⟨rfl, rfl⟩
  unfold Binary64.ofInt infiniteFrom
  generalize value.natAbs = size
  rcases Nat.eq_zero_or_pos size with rfl | positive
  · constructor
    · rintro ⟨sign, infinite⟩
      cases infinite
    · intro beyond
      omega
  · have lower := le_log2_iff_halfUnit positive 53
    have upper := le_log2_iff_halfUnit positive 54
    rw [bits.1] at lower
    rw [bits.2] at upper
    rw [ofRatio_isInfinite_iff positive, bits.1]
    by_cases large : 1024 ≤ size.log2
    · omega
    · rw [roundHalfEven_eq_top_iff half (by decide) (by omega)]
      omega

end RepoAtlas.Number
