/-
Module: RepoAtlas.Proofs.DecimalText
Purpose: Decimal digits and the numbers they spell.
  The digits of a number are ASCII digits, spell that number, and begin with a zero only for zero
  itself.  The shortest decimal of a positive double is positive: the coarsest grid that is tried
  has a point between one and ten units below the number, and every finer grid has one too.
Main exports: isPlainDigit_of_mem_digits, digitsValue_digits, exists_digits_eq_cons,
  coefficient_shortest_pos
-/
import RepoAtlas.Number.Reading
import Mathlib.Tactic.Ring
import Mathlib.Tactic.Positivity

namespace RepoAtlas.Number

theorem isPlainDigit_eq_isDigit (char : Char) : isPlainDigit char = char.isDigit := by
  simp [isPlainDigit, Char.isDigit, Char.le_def, UInt32.le_iff_toNat_le]

/-- The digits of a number are ASCII digits. -/
theorem isPlainDigit_of_mem_digits {value : Nat} {char : Char} (member : char ∈ digits value) :
    isPlainDigit char = true := by
  rw [isPlainDigit_eq_isDigit]
  exact Nat.isDigit_of_mem_toDigits (by decide) (by decide) member

theorem digits_ne_nil (value : Nat) : digits value ≠ [] :=
  Nat.toDigits_ne_nil

/-- The digits of a number spell that number. -/
theorem digitsValue_digits (value : Nat) : digitsValue (digits value) = value := by
  have spelled := Nat.ofDigitChars_toDigits (n := value) (b := 10) (by decide) (by decide)
  rw [Nat.ofDigitChars_eq_foldl] at spelled
  simpa [digitsValue, digits, Nat.mul_comm] using spelled

/-- The digits of a positive number begin with another digit than zero. -/
theorem exists_digits_eq_cons {value : Nat} (positive : 0 < value) :
    ∃ first rest, digits value = first :: rest ∧ first ≠ '0' := by
  induction value using Nat.strongRecOn with
  | ind value ih =>
    by_cases single : value < 10
    · refine ⟨value.digitChar, [], Nat.toDigits_of_lt_base single, ?_⟩
      rw [Ne, Nat.digitChar_eq_zero]
      omega
    · obtain ⟨first, rest, spelled, nonzero⟩ := ih (value / 10) (by omega) (by omega)
      refine ⟨first, rest ++ [(value % 10).digitChar], ?_, nonzero⟩
      rw [digits, Nat.toDigits_of_base_le (by decide) (by omega), ← digits, spelled,
        List.cons_append]

section Shortest

namespace Decimal

/-- Whether `num / den` is at least `10 ^ exponent`. -/
private def Reaches (num den : Nat) (exponent : Int) : Prop :=
  den * (Decimal.mk 1 exponent).ratio.1 ≤ num * (Decimal.mk 1 exponent).ratio.2

private theorem ratio_of_nonneg {exponent : Int} (nonneg : 0 ≤ exponent) :
    (Decimal.mk 1 exponent).ratio = (10 ^ exponent.toNat, 1) := by
  simp [ratio, nonneg]

private theorem ratio_of_neg {exponent : Int} (negative : exponent < 0) :
    (Decimal.mk 1 exponent).ratio = (1, 10 ^ (-exponent).toNat) := by
  simp [ratio, not_le.2 negative]

private theorem ratio_fst_pos (exponent : Int) : 0 < (Decimal.mk 1 exponent).ratio.1 := by
  rcases lt_or_ge exponent 0 with negative | nonneg
  · simp [ratio_of_neg negative]
  · simp [ratio_of_nonneg nonneg]

/-- A number that reaches a power of ten reaches the one below. -/
private theorem Reaches.pred {num den : Nat} {exponent : Int} (reaches : Reaches num den exponent) :
    Reaches num den (exponent - 1) := by
  unfold Reaches at *
  rcases lt_trichotomy exponent 0 with negative | rfl | positive
  · have grown : (-(exponent - 1)).toNat = (-exponent).toNat + 1 := by omega
    rw [ratio_of_neg negative] at reaches
    rw [ratio_of_neg (by omega), grown, pow_succ]
    simp only [mul_one] at reaches ⊢
    calc den ≤ num * 10 ^ (-exponent).toNat := reaches
      _ ≤ num * 10 ^ (-exponent).toNat * 10 := Nat.le_mul_of_pos_right _ (by decide)
      _ = num * (10 ^ (-exponent).toNat * 10) := by ring
  · simp only [ratio_of_nonneg le_rfl, ratio_of_neg (show (0 : Int) - 1 < 0 by decide)] at reaches ⊢
    simp at reaches ⊢
    omega
  · have shrunk : exponent.toNat = (exponent - 1).toNat + 1 := by omega
    rw [ratio_of_nonneg positive.le, shrunk, pow_succ] at reaches
    rw [ratio_of_nonneg (by omega)]
    simp only [mul_one] at reaches ⊢
    calc den * 10 ^ (exponent - 1).toNat ≤ den * 10 ^ (exponent - 1).toNat * 10 :=
          Nat.le_mul_of_pos_right _ (by decide)
      _ = den * (10 ^ (exponent - 1).toNat * 10) := by ring
      _ ≤ num := reaches

private theorem pow_le_of_digits {value : Nat} (positive : 0 < value) :
    10 ^ ((digits value).length - 1) ≤ value := by
  by_contra small
  have some_digit := List.length_pos_iff.2 (digits_ne_nil value)
  by_cases single : (digits value).length = 1
  · simp [single] at small
    omega
  · have shorter := (Nat.length_toDigits_le_iff (b := 10) (n := value)
      (k := (digits value).length - 1) (by decide) (by omega)).2 (by omega)
    rw [← digits] at shorter
    omega

private theorem lt_pow_digits (value : Nat) : value < 10 ^ (digits value).length :=
  (Nat.length_toDigits_le_iff (by decide) (List.length_pos_iff.2 (digits_ne_nil value))).1 le_rfl

/-- The grid that is tried first is not coarser than the number. -/
private theorem reaches_magnitude {num den : Nat} (positive : 0 < num) :
    Reaches num den (magnitude num den) := by
  unfold magnitude
  simp only
  split
  · next reached =>
    unfold Reaches
    rw [mul_comm den]
    exact reached
  · have least := pow_le_of_digits positive
    have most := lt_pow_digits den
    have some_digit := List.length_pos_iff.2 (digits_ne_nil num)
    unfold Reaches
    rcases lt_or_ge (((digits num).length : Int) - (digits den).length - 1) 0 with negative | nonneg
    · rw [ratio_of_neg negative]
      simp only [mul_one]
      calc den ≤ 10 ^ (digits den).length := most.le
        _ = 10 ^ ((digits num).length - 1) *
            10 ^ (-(((digits num).length : Int) - (digits den).length - 1)).toNat := by
          rw [← pow_add]
          congr 1
          omega
        _ ≤ num * 10 ^ (-(((digits num).length : Int) - (digits den).length - 1)).toNat :=
          Nat.mul_le_mul_right _ least
    · rw [ratio_of_nonneg nonneg]
      simp only [mul_one]
      calc den * 10 ^ (((digits num).length : Int) - (digits den).length - 1).toNat
          ≤ 10 ^ (digits den).length *
            10 ^ (((digits num).length : Int) - (digits den).length - 1).toNat :=
          Nat.mul_le_mul_right _ most.le
        _ = 10 ^ ((digits num).length - 1) := by
          rw [← pow_add]
          congr 1
          omega
        _ ≤ num := least

private theorem div_pos_of_reaches {num den : Nat} {exponent : Int} (positive : 0 < den)
    (reaches : Reaches num den exponent) :
    0 < num * (Decimal.mk 1 exponent).ratio.2 / (den * (Decimal.mk 1 exponent).ratio.1) :=
  Nat.div_pos reaches (Nat.mul_pos positive (ratio_fst_pos exponent))

private theorem roundHalfEven_ge (num den : Nat) : num / den ≤ roundHalfEven num den := by
  unfold roundHalfEven
  simp only
  split
  · exact le_rfl
  · split
    · omega
    · split <;> omega

/-- Both neighbours on a grid that is not coarser than the number are positive. -/
private theorem coefficient_neighbours_pos {target : Binary64} {num den : Nat} {exponent : Int}
    (positive : 0 < den) (reaches : Reaches num den exponent) {decimal : Decimal}
    (member : decimal ∈ neighbours target num den exponent) : 0 < decimal.coefficient := by
  have below := div_pos_of_reaches positive reaches
  have nearest := roundHalfEven_ge (num * (Decimal.mk 1 exponent).ratio.2)
    (den * (Decimal.mk 1 exponent).ratio.1)
  simp only [neighbours, List.mem_map, List.mem_filter, List.mem_cons, List.not_mem_nil,
    or_false] at member
  obtain ⟨coefficient, ⟨rfl | rfl, -⟩, rfl⟩ := member
  · exact lt_of_lt_of_le below nearest
  · show 0 < if _ then _ else _
    split
    · exact Nat.succ_pos _
    · exact below

private theorem coefficient_search_pos {target : Binary64} {num den : Nat} (positive : 0 < den)
    (tries : Nat) (exponent : Int) (reaches : Reaches num den exponent) :
    0 < (search target num den tries exponent).coefficient := by
  induction tries generalizing exponent with
  | zero =>
    have below := div_pos_of_reaches positive reaches
    exact lt_of_lt_of_le below (roundHalfEven_ge _ _)
  | succ tries ih =>
    rw [search]
    split
    · next best others found =>
      exact coefficient_neighbours_pos positive reaches (by rw [found]; simp)
    · exact ih (exponent - 1) reaches.pred

/-- The shortest decimal of a positive double is positive. -/
theorem coefficient_shortest_pos {mantissa : Nat} (positive : 0 < mantissa) (exponent : Int) :
    0 < (shortest mantissa exponent).coefficient := by
  have parts : 0 < (Binary64.ratio mantissa exponent).1 ∧
      0 < (Binary64.ratio mantissa exponent).2 := by
    unfold Binary64.ratio powerOfTwo
    split
    · exact ⟨Nat.mul_pos positive (Nat.pow_pos (by decide)), Nat.one_pos⟩
    · exact ⟨positive, Nat.pow_pos (by decide)⟩
  exact coefficient_search_pos parts.2 17 _ (reaches_magnitude parts.1)

end Decimal

end Shortest

end RepoAtlas.Number
