/-
Module: RepoAtlas.Proofs.RoundedRatios
Purpose: Rounding a quotient to the nearest double keeps the order of quotients.
  A quotient is scaled until its mantissa has fifty-three bits and then rounded to a natural number.
  Between two quotients of one exponent the rounding decides; a greater exponent always means a
  greater double, because the smaller quotient rounds at most up to the next power of two.  A
  quotient that is a double already has a whole mantissa at its exponent and stays as it is.
Main exports: succ_le_roundHalfEven_iff, roundHalfEven_mono, exponentFor_bounds, exponentFor_of_lt,
  toRat_ofRatio, toRat_ofRatio_mono, IsRepresentable, isRepresentable_toRat_ofRatio,
  toRat_ofRatio_of_isRepresentable, toRat_ofRatio_lt
-/
import RepoAtlas.Proofs.DoubleRange
import Mathlib.Algebra.Order.Field.Power
import Mathlib.Data.Rat.Cast.Order
import Mathlib.Tactic.FieldSimp
import Mathlib.Tactic.NormNum
import Mathlib.Tactic.Positivity
import Mathlib.Tactic.Push

namespace RepoAtlas.Number

open Binary64

/-! ### Rounding to a natural number -/

/-- A number is reached from half a unit below it on; exactly there only if it is even. -/
theorem succ_le_roundHalfEven_iff {den : Nat} (positive : 0 < den) (num count : Nat) :
    count + 1 ≤ roundHalfEven num den ↔
      (2 * count + 1) * den < 2 * num ∨ (2 * count + 1) * den = 2 * num ∧ count % 2 = 1 := by
  have split := Nat.div_add_mod num den
  have remainder := Nat.mod_lt num positive
  unfold roundHalfEven
  generalize num / den = whole at *
  generalize num % den = rest at *
  subst split
  rcases Nat.lt_trichotomy count whole with below | rfl | above
  · have reached : (count + 1) * den ≤ whole * den := Nat.mul_le_mul_right den below
    have spread : (2 * count + 1) * den < 2 * (den * whole + rest) := by linarith
    simp only
    split_ifs <;> omega
  · have spread : (2 * count + 1) * den = 2 * (den * count) + den := by ring
    rw [spread]
    simp only
    split_ifs <;> omega
  · have passed : (whole + 1) * den ≤ count * den := Nat.mul_le_mul_right den above
    have spread : 2 * (den * whole + rest) < (2 * count + 1) * den := by linarith
    simp only
    split_ifs <;> omega

theorem roundHalfEven_mono {num den num' den' : Nat} (positive : 0 < den) (positive' : 0 < den')
    (ordered : (num : ℚ) / den ≤ (num' : ℚ) / den') :
    roundHalfEven num den ≤ roundHalfEven num' den' := by
  cases reached : roundHalfEven num den with
  | zero => exact Nat.zero_le _
  | succ count =>
    have condition := (succ_le_roundHalfEven_iff positive num count).1 (Nat.le_of_eq reached.symm)
    rw [succ_le_roundHalfEven_iff positive']
    rw [div_le_div_iff₀ (by exact_mod_cast positive) (by exact_mod_cast positive')] at ordered
    have crossed : num * den' ≤ num' * den := by exact_mod_cast ordered
    have scaled : (2 * count + 1) * den * den' ≤ 2 * num * den' := by
      apply Nat.mul_le_mul_right
      rcases condition with strict | ⟨tied, _⟩
      · exact Nat.le_of_lt strict
      · exact Nat.le_of_eq tied
    have least : (2 * count + 1) * den' ≤ 2 * num' := by
      apply Nat.le_of_mul_le_mul_right _ positive
      linarith
    rcases Nat.lt_or_eq_of_le least with strict | tied
    · exact .inl strict
    · refine .inr ⟨tied, ?_⟩
      rcases condition with strict | ⟨_, odd⟩
      · -- A strict bound for the smaller quotient cannot be a tie for the greater one.
        have between : (2 * count + 1) * den * den' < 2 * num * den' :=
          Nat.mul_lt_mul_of_pos_right strict positive'
        have same : (2 * count + 1) * den' * den = 2 * num' * den := by rw [tied]
        linarith
      · exact odd

theorem roundHalfEven_mul {den : Nat} (positive : 0 < den) (count : Nat) :
    roundHalfEven (count * den) den = count := by
  simp [roundHalfEven, Nat.mul_div_cancel count positive, positive]

/-! ### Scaling -/

theorem twoPow_eq (exponent : Int) : twoPow exponent = (2 : ℚ) ^ exponent := by
  unfold twoPow
  split
  · next nonneg =>
    rw [← zpow_natCast, Int.toNat_of_nonneg nonneg]
  · next neg =>
    rw [one_div, ← zpow_natCast, ← zpow_neg, Int.toNat_of_nonneg (by omega), neg_neg]

theorem powerOfTwo_cast (exponent : Nat) :
    ((powerOfTwo exponent : Nat) : ℚ) = 2 ^ (exponent : Int) := by
  rw [powerOfTwo, Nat.pow_eq, Nat.cast_pow, zpow_natCast, Nat.cast_ofNat]

theorem scaleRatio_snd_pos {den : Nat} (positive : 0 < den) (num : Nat) (exponent : Int) :
    0 < (scaleRatio num den exponent).2 := by
  unfold scaleRatio
  split
  · exact Nat.mul_pos positive (powerOfTwo_pos _)
  · exact positive

theorem scaleRatio_eq (num den : Nat) (exponent : Int) :
    ((scaleRatio num den exponent).1 : ℚ) / (scaleRatio num den exponent).2 =
      (num : ℚ) / den / 2 ^ exponent := by
  unfold scaleRatio
  split
  · next nonneg =>
    have power : ((powerOfTwo exponent.toNat : Nat) : ℚ) = 2 ^ exponent := by
      rw [powerOfTwo_cast, Int.toNat_of_nonneg nonneg]
    rw [Nat.cast_mul, power, div_div]
  · next neg =>
    have power : ((powerOfTwo (-exponent).toNat : Nat) : ℚ) = (2 ^ exponent)⁻¹ := by
      rw [powerOfTwo_cast, Int.toNat_of_nonneg (by omega), zpow_neg]
    rw [Nat.cast_mul, power]
    ring

/-- Between two powers of two that their highest bits give. -/
theorem ratio_bounds {num den : Nat} (positive : 0 < num) (positive' : 0 < den) :
    (2 : ℚ) ^ ((num.log2 : Int) - den.log2 - 1) < (num : ℚ) / den ∧
      (num : ℚ) / den < 2 ^ ((num.log2 : Int) - den.log2 + 1) := by
  have two : (2 : ℚ) ≠ 0 := by norm_num
  have lower : (2 : ℚ) ^ (num.log2 : Int) ≤ num := by
    exact_mod_cast Nat.log2_self_le (Nat.ne_of_gt positive)
  have upper : (num : ℚ) < 2 ^ ((num.log2 : Int) + 1) := by
    exact_mod_cast Nat.lt_log2_self (n := num)
  have lower' : (2 : ℚ) ^ (den.log2 : Int) ≤ den := by
    exact_mod_cast Nat.log2_self_le (Nat.ne_of_gt positive')
  have upper' : (den : ℚ) < 2 ^ ((den.log2 : Int) + 1) := by
    exact_mod_cast Nat.lt_log2_self (n := den)
  have below : (0 : ℚ) < den := by exact_mod_cast positive'
  constructor
  · rw [lt_div_iff₀ below, sub_sub, zpow_sub₀ two, div_mul_eq_mul_div,
      div_lt_iff₀ (zpow_pos (by norm_num) _)]
    calc (2 : ℚ) ^ (num.log2 : Int) * den ≤ num * den := by gcongr
      _ < num * 2 ^ ((den.log2 : Int) + 1) := by gcongr
  · rw [div_lt_iff₀ below, sub_add_eq_add_sub, zpow_sub₀ two, div_mul_eq_mul_div,
      lt_div_iff₀ (zpow_pos (by norm_num) _)]
    calc (num : ℚ) * 2 ^ (den.log2 : Int) ≤ num * den := by gcongr
      _ < 2 ^ ((num.log2 : Int) + 1) * den := by gcongr

theorem scaleRatio_ge_iff {den : Nat} (positive : 0 < den) (num : Nat) (exponent : Int) :
    powerOfTwo 53 * (scaleRatio num den exponent).2 ≤ (scaleRatio num den exponent).1 ↔
      (2 : ℚ) ^ (exponent + 53) ≤ (num : ℚ) / den := by
  have below : (0 : ℚ) < (scaleRatio num den exponent).2 := by
    exact_mod_cast scaleRatio_snd_pos positive num exponent
  rw [add_comm exponent, zpow_add₀ (by norm_num), ← le_div_iff₀ (zpow_pos (by norm_num) _),
    ← scaleRatio_eq, le_div_iff₀ below, ← Nat.cast_le (α := ℚ)]
  norm_num [powerOfTwo]

/-- Apart from the least exponent, a quotient has exactly fifty-three bits at its exponent. -/
theorem exponentFor_eq {num den : Nat} (positive : 0 < num) (positive' : 0 < den) :
    ∃ exponent : Int, exponentFor num den = max exponent minExponent ∧
      (num : ℚ) / den < 2 ^ (exponent + 53) ∧ 2 ^ (exponent + 52) ≤ (num : ℚ) / den := by
  obtain ⟨lower, upper⟩ := ratio_bounds positive positive'
  have clamp (exponent : Int) :
      (if exponent < minExponent then minExponent else exponent) = max exponent minExponent := by
    rw [max_def]
    split_ifs <;> omega
  simp only [exponentFor, scaleRatio_ge_iff positive', clamp]
  split
  · next large =>
    refine ⟨_, rfl, ?_, ?_⟩
    · have next : (num.log2 : Int) - den.log2 - 53 + 1 + 53 = num.log2 - den.log2 + 1 := by ring
      rw [next]
      exact upper
    · have next : (num.log2 : Int) - den.log2 - 53 + 1 + 52 = num.log2 - den.log2 - 53 + 53 := by
        ring
      rw [next]
      exact large
  · next small =>
    refine ⟨_, rfl, not_le.1 small, ?_⟩
    have next : (num.log2 : Int) - den.log2 - 53 + 52 = num.log2 - den.log2 - 1 := by ring
    rw [next]
    exact lower.le

/-- At its exponent a quotient has at most fifty-three bits, and exactly so many unless the exponent
is the least one. -/
theorem exponentFor_bounds {num den : Nat} (positive : 0 < num) (positive' : 0 < den) :
    (num : ℚ) / den < 2 ^ (exponentFor num den + 53) ∧
      (minExponent < exponentFor num den → 2 ^ (exponentFor num den + 52) ≤ (num : ℚ) / den) := by
  obtain ⟨exponent, here, upper, lower⟩ := exponentFor_eq positive positive'
  rw [here]
  constructor
  · exact upper.trans_le (zpow_le_zpow_right₀ (by norm_num) (by omega))
  · intro above
    rwa [max_eq_left (by omega)]

theorem minExponent_le_exponentFor {num den : Nat} (positive : 0 < num) (positive' : 0 < den) :
    minExponent ≤ exponentFor num den := by
  obtain ⟨exponent, here, _⟩ := exponentFor_eq positive positive'
  rw [here]
  exact le_max_right _ _

/-! ### Rounding to a double -/

/-- The mantissa of a quotient at its exponent, before a carry. -/
def mantissaOf (num den : Nat) : Nat :=
  let scaled := scaleRatio num den (exponentFor num den)
  roundHalfEven scaled.1 scaled.2

theorem mantissaOf_le {num den : Nat} (positive : 0 < num) (positive' : 0 < den) :
    mantissaOf num den ≤ 2 ^ 53 := by
  have below := (exponentFor_bounds positive positive').1
  rw [zpow_add₀ (by norm_num), mul_comm, ← div_lt_iff₀ (zpow_pos (by norm_num) _),
    ← scaleRatio_eq] at below
  have whole : roundHalfEven (2 ^ 53) 1 = 2 ^ 53 := by decide
  rw [← whole]
  apply roundHalfEven_mono (scaleRatio_snd_pos positive' _ _) (by norm_num)
  norm_num at below ⊢
  exact below.le

theorem le_mantissaOf {num den : Nat} (positive : 0 < num) (positive' : 0 < den)
    (above : minExponent < exponentFor num den) : 2 ^ 52 ≤ mantissaOf num den := by
  have least := (exponentFor_bounds positive positive').2 above
  rw [zpow_add₀ (by norm_num), mul_comm, ← le_div_iff₀ (zpow_pos (by norm_num) _),
    ← scaleRatio_eq] at least
  have whole : roundHalfEven (2 ^ 52) 1 = 2 ^ 52 := by decide
  rw [← whole]
  apply roundHalfEven_mono (by norm_num) (scaleRatio_snd_pos positive' _ _)
  norm_num at least ⊢
  exact least

theorem infiniteFrom_eq : (infiniteFrom : ℚ) = (2 ^ 54 - 1) * 2 ^ (970 : Int) := by
  rw [infiniteFrom, Nat.cast_mul, halfUnit, powerOfTwo_cast]
  norm_num

theorem zpow_lt_infiniteFrom : (2 : ℚ) ^ (1023 : Int) < infiniteFrom := by
  have whole : (2 : ℚ) ^ (1023 : Int) = 2 ^ 53 * 2 ^ (970 : Int) := by
    rw [← zpow_natCast, ← zpow_add₀ (by norm_num)]
    norm_num
  rw [whole, infiniteFrom_eq]
  gcongr
  norm_num

theorem zpow_maxExponent : (2 : ℚ) ^ maxExponent = 2 * 2 ^ (970 : Int) := by
  rw [← zpow_one_add₀ (by norm_num)]
  rfl

/-- Below the range where doubles end, the exponent is not too great, and at the greatest exponent
there is no carry. -/
theorem exponentFor_of_lt {num den : Nat} (positive : 0 < num) (positive' : 0 < den)
    (bounded : (num : ℚ) / den < infiniteFrom) :
    exponentFor num den ≤ maxExponent ∧
      (exponentFor num den = maxExponent → mantissaOf num den < 2 ^ 53) := by
  have two : (2 : ℚ) ≠ 0 := by norm_num
  rw [infiniteFrom_eq] at bounded
  constructor
  · by_contra large
    rw [maxExponent] at large
    have least := (exponentFor_bounds positive positive').2 (by rw [minExponent]; omega)
    have more : ((2 : ℚ) ^ 54 - 1) * 2 ^ (970 : Int) ≤ 2 ^ (exponentFor num den + 52) :=
      calc ((2 : ℚ) ^ 54 - 1) * 2 ^ (970 : Int) ≤ 2 ^ 54 * 2 ^ (970 : Int) := by
            gcongr
            norm_num
        _ = 2 ^ (1024 : Int) := by
            rw [← zpow_natCast, ← zpow_add₀ two]
            norm_num
        _ ≤ 2 ^ (exponentFor num den + 52) := zpow_le_zpow_right₀ (by norm_num) (by omega)
    exact absurd (more.trans least) (not_le.2 bounded)
  · intro greatest
    by_contra carried
    have reached : 2 ^ 53 - 1 + 1 ≤ mantissaOf num den := by omega
    have below : (0 : ℚ) < (scaleRatio num den (exponentFor num den)).2 := by
      exact_mod_cast scaleRatio_snd_pos positive' _ _
    -- A mantissa is rounded up to the power of two from half a unit below it on.
    have half : (2 * (2 ^ 53 - 1) + 1) * (scaleRatio num den (exponentFor num den)).2 ≤
        2 * (scaleRatio num den (exponentFor num den)).1 := by
      rcases (succ_le_roundHalfEven_iff (scaleRatio_snd_pos positive' _ _) _ _).1 reached with
        strict | ⟨tied, _⟩
      · exact strict.le
      · exact tied.le
    have scaled : ((2 : ℚ) ^ 54 - 1) / 2 ≤ (num : ℚ) / den / 2 ^ maxExponent := by
      rw [← greatest, ← scaleRatio_eq, div_le_div_iff₀ (by norm_num) below]
      have cast : ((2 * (2 ^ 53 - 1) + 1 : Nat) : ℚ) *
          (scaleRatio num den (exponentFor num den)).2 ≤
            2 * (scaleRatio num den (exponentFor num den)).1 := by exact_mod_cast half
      norm_num at cast ⊢
      linarith
    rw [le_div_iff₀ (zpow_pos (by norm_num) _)] at scaled
    rw [zpow_maxExponent] at scaled
    linarith

/-- The value of the double nearest to a quotient that is not too large.  A carry changes how it is
written, not what it is. -/
theorem toRat_ofRatio {num den : Nat} (positive : 0 < num) (positive' : 0 < den)
    (bounded : (num : ℚ) / den < infiniteFrom) :
    (ofRatio false num den).toRat = mantissaOf num den * 2 ^ exponentFor num den := by
  obtain ⟨finite, uncarried⟩ := exponentFor_of_lt positive positive' bounded
  have rounded : roundHalfEven (scaleRatio num den (exponentFor num den)).1
      (scaleRatio num den (exponentFor num den)).2 = mantissaOf num den := rfl
  have two : (2 : ℚ) ≠ 0 := by norm_num
  unfold ofRatio
  simp only [if_neg (Nat.ne_of_gt positive), rounded]
  by_cases carried : mantissaOf num den = powerOfTwo 53
  · have smaller : exponentFor num den ≠ maxExponent := by
      intro greatest
      exact absurd carried (uncarried greatest).ne
    simp only [carried, if_true, if_neg (show ¬ maxExponent < exponentFor num den + 1 by omega),
      Binary64.toRat, twoPow_eq, Bool.false_eq_true, if_false]
    rw [zpow_add₀ two]
    norm_num [powerOfTwo]
    ring
  · simp only [carried, if_false, if_neg (show ¬ maxExponent < exponentFor num den by omega),
      Binary64.toRat, twoPow_eq, Bool.false_eq_true]

theorem toRat_ofRatio_zero (den : Nat) : (ofRatio false 0 den).toRat = 0 := by
  simp [ofRatio, Binary64.toRat]

/-- The nearest double of a greater quotient is no smaller. -/
theorem toRat_ofRatio_mono {num den num' den' : Nat} (positive : 0 < den) (positive' : 0 < den')
    (ordered : (num : ℚ) / den ≤ (num' : ℚ) / den')
    (bounded : (num' : ℚ) / den' < infiniteFrom) :
    (ofRatio false num den).toRat ≤ (ofRatio false num' den').toRat := by
  have two : (2 : ℚ) ≠ 0 := by norm_num
  rcases Nat.eq_zero_or_pos num' with rfl | filled'
  · have empty : (num : ℚ) = 0 := by
      rw [Nat.cast_zero, zero_div, div_le_iff₀ (by exact_mod_cast positive), zero_mul] at ordered
      exact le_antisymm ordered (Nat.cast_nonneg num)
    rw [Nat.cast_eq_zero.1 empty, toRat_ofRatio_zero, toRat_ofRatio_zero]
  rcases Nat.eq_zero_or_pos num with rfl | filled
  · rw [toRat_ofRatio_zero, toRat_ofRatio filled' positive' bounded]
    exact mul_nonneg (Nat.cast_nonneg _) (zpow_nonneg (by norm_num) _)
  rw [toRat_ofRatio filled positive (ordered.trans_lt bounded),
    toRat_ofRatio filled' positive' bounded]
  rcases lt_trichotomy (exponentFor num den) (exponentFor num' den') with less | same | more
  · -- The smaller quotient rounds at most up to the power of two that the greater one reaches.
    have most : (mantissaOf num den : ℚ) ≤ 2 ^ 53 := by
      exact_mod_cast mantissaOf_le filled positive
    have least : (2 : ℚ) ^ 52 ≤ mantissaOf num' den' := by
      exact_mod_cast le_mantissaOf filled' positive'
        (lt_of_le_of_lt (minExponent_le_exponentFor filled positive) less)
    calc (mantissaOf num den : ℚ) * 2 ^ exponentFor num den
        ≤ 2 ^ 53 * 2 ^ exponentFor num den := by gcongr
      _ = 2 ^ 52 * 2 ^ (exponentFor num den + 1) := by rw [zpow_add₀ two]; ring
      _ ≤ 2 ^ 52 * 2 ^ exponentFor num' den' := by
        gcongr
        · norm_num
        · exact less
      _ ≤ mantissaOf num' den' * 2 ^ exponentFor num' den' := by gcongr
  · have rounded : mantissaOf num den ≤ mantissaOf num' den' := by
      apply roundHalfEven_mono (scaleRatio_snd_pos positive _ _) (scaleRatio_snd_pos positive' _ _)
      rw [scaleRatio_eq, scaleRatio_eq, same]
      gcongr
    rw [same]
    gcongr
  · -- The smaller quotient would be at least a power of two that the greater one stays below.
    have least := (exponentFor_bounds filled positive).2
      (lt_of_le_of_lt (minExponent_le_exponentFor filled' positive') more)
    have most := (exponentFor_bounds filled' positive').1
    have between : (2 : ℚ) ^ (exponentFor num' den' + 53) ≤ 2 ^ (exponentFor num den + 52) :=
      zpow_le_zpow_right₀ (by norm_num) (by omega)
    exact absurd ordered (not_le.2 (most.trans_le (between.trans least)))

/-! ### Doubles are rounded to themselves -/

/-- Whether a number has a mantissa of at most fifty-three bits at an exponent of doubles. -/
def IsRepresentable (value : ℚ) : Prop :=
  ∃ (mantissa : Nat) (exponent : Int), mantissa < 2 ^ 53 ∧ minExponent ≤ exponent ∧
    value = mantissa * 2 ^ exponent

theorem isRepresentable_zero : IsRepresentable 0 :=
  ⟨0, minExponent, by norm_num, le_refl _, by simp⟩

/-- A carry gives a mantissa of fifty-three bits at the next exponent. -/
theorem isRepresentable_of_le {mantissa : Nat} {exponent : Int} (bits : mantissa ≤ 2 ^ 53)
    (least : minExponent ≤ exponent) : IsRepresentable (mantissa * 2 ^ exponent) := by
  rcases Nat.lt_or_eq_of_le bits with fewer | carried
  · exact ⟨mantissa, exponent, fewer, least, rfl⟩
  · refine ⟨2 ^ 52, exponent + 1, by norm_num, by omega, ?_⟩
    rw [carried, zpow_add₀ (by norm_num)]
    norm_num
    ring

theorem isRepresentable_toRat_ofRatio (num : Nat) {den : Nat} (positive' : 0 < den)
    (bounded : (num : ℚ) / den < infiniteFrom) : IsRepresentable (ofRatio false num den).toRat := by
  rcases Nat.eq_zero_or_pos num with rfl | positive
  · rw [toRat_ofRatio_zero]
    exact isRepresentable_zero
  · rw [toRat_ofRatio positive positive' bounded]
    exact isRepresentable_of_le (mantissaOf_le positive positive')
      (minExponent_le_exponentFor positive positive')

/-- At the exponent of a representable quotient its mantissa is whole, so rounding leaves it alone. -/
theorem toRat_ofRatio_of_isRepresentable {num den : Nat} (positive' : 0 < den)
    (exact : IsRepresentable ((num : ℚ) / den)) (bounded : (num : ℚ) / den < infiniteFrom) :
    (ofRatio false num den).toRat = (num : ℚ) / den := by
  rcases Nat.eq_zero_or_pos num with rfl | positive
  · rw [toRat_ofRatio_zero, Nat.cast_zero, zero_div]
  obtain ⟨mantissa, exponent, bits, least, whole⟩ := exact
  have two : (2 : ℚ) ≠ 0 := by norm_num
  have lower : exponentFor num den ≤ exponent := by
    by_contra above
    have bits' : (mantissa : ℚ) < 2 ^ 53 := by exact_mod_cast bits
    have reached := (exponentFor_bounds positive positive').2 (by omega)
    have more : (2 : ℚ) ^ 53 * 2 ^ exponent ≤ 2 ^ (exponentFor num den + 52) := by
      rw [← zpow_natCast, ← zpow_add₀ two]
      exact zpow_le_zpow_right₀ (by norm_num) (by push_cast; omega)
    have less : (mantissa : ℚ) * 2 ^ exponent < 2 ^ 53 * 2 ^ exponent := by gcongr
    rw [whole] at reached
    exact absurd (more.trans reached) (not_le.2 less)
  obtain ⟨shift, rfl⟩ : ∃ shift : Nat, exponent = exponentFor num den + shift :=
    ⟨(exponent - exponentFor num den).toNat, by omega⟩
  have shifted : (2 : ℚ) ^ (exponentFor num den + shift) = 2 ^ shift * 2 ^ exponentFor num den := by
    rw [zpow_add₀ two, zpow_natCast, mul_comm]
  have scaled : (scaleRatio num den (exponentFor num den)).1 =
      mantissa * 2 ^ shift * (scaleRatio num den (exponentFor num den)).2 := by
    have below : ((scaleRatio num den (exponentFor num den)).2 : ℚ) ≠ 0 := by
      exact_mod_cast (scaleRatio_snd_pos positive' num (exponentFor num den)).ne'
    have quotient := scaleRatio_eq num den (exponentFor num den)
    rw [whole, shifted, ← mul_assoc, mul_div_cancel_right₀ _ (zpow_ne_zero _ two),
      div_eq_iff below] at quotient
    exact_mod_cast quotient
  have mantissa_eq : mantissaOf num den = mantissa * 2 ^ shift := by
    rw [mantissaOf, scaled]
    exact roundHalfEven_mul (scaleRatio_snd_pos positive' num _) _
  rw [toRat_ofRatio positive positive' bounded, mantissa_eq, whole, shifted]
  push_cast
  ring

/-- A rounded quotient stays below the range where doubles end. -/
theorem toRat_ofRatio_lt (num : Nat) {den : Nat} (positive' : 0 < den)
    (bounded : (num : ℚ) / den < infiniteFrom) : (ofRatio false num den).toRat < infiniteFrom := by
  rcases Nat.eq_zero_or_pos num with rfl | positive
  · rw [toRat_ofRatio_zero]
    exact (zpow_pos (by norm_num) _).trans zpow_lt_infiniteFrom
  obtain ⟨finite, uncarried⟩ := exponentFor_of_lt positive positive' bounded
  rw [toRat_ofRatio positive positive' bounded, infiniteFrom_eq]
  rcases lt_or_eq_of_le finite with less | greatest
  · have most : (mantissaOf num den : ℚ) ≤ 2 ^ 53 := by
      exact_mod_cast mantissaOf_le positive positive'
    calc (mantissaOf num den : ℚ) * 2 ^ exponentFor num den
        ≤ 2 ^ 53 * 2 ^ (970 : Int) := by
          gcongr
          · norm_num
          · exact Int.le_of_lt_add_one less
      _ < (2 ^ 54 - 1) * 2 ^ (970 : Int) := by
          gcongr
          norm_num
  · have most : (mantissaOf num den : ℚ) ≤ 2 ^ 53 - 1 := by
      have fewer : (mantissaOf num den : ℚ) + 1 ≤ 2 ^ 53 := by exact_mod_cast uncarried greatest
      linarith
    calc (mantissaOf num den : ℚ) * 2 ^ exponentFor num den
        ≤ (2 ^ 53 - 1) * (2 * 2 ^ (970 : Int)) := by
          rw [greatest, zpow_maxExponent]
          gcongr
      _ < (2 ^ 54 - 1) * 2 ^ (970 : Int) := by
          rw [← mul_assoc]
          gcongr
          norm_num

end RepoAtlas.Number
