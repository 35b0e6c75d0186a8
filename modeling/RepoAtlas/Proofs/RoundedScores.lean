/-
Module: RepoAtlas.Proofs.RoundedScores
Purpose: Rounding at every step keeps the order of scores.
  A score is computed in doubles: a product, a quotient, a sum and for tests one more product, each
  rounded, then a cut to the range from zero to one and a rounding to thousandths.  Each of these
  keeps an order that is there before it, and a double that is rounded again stays as it is; so more
  importers never lower a score, and a test never has more than the same share of importers earns.
Main exports: IsInRange, double_mono, double_of_isRepresentable, double_double, importScore_mono,
  rawScore_le, score_le, Importance.decimal, Importance.value, Importance.thousandths_ofScore_mono,
  Importance.value_mono, Importance.value_lt_value
-/
import RepoAtlas.Proofs.RoundedRatios
import RepoAtlas.Ranking.Score

namespace RepoAtlas.Ranking

open Number Binary64

/-! ### Rounded numbers -/

/-- Whether a number is neither negative nor beyond the range of doubles. -/
structure IsInRange (value : ℚ) : Prop where
  nonneg : 0 ≤ value
  bounded : value < infiniteFrom

theorem IsInRange.of_le {first second : ℚ} (range : IsInRange second) (nonneg : 0 ≤ first)
    (ordered : first ≤ second) : IsInRange first :=
  ⟨nonneg, ordered.trans_lt range.bounded⟩

theorem isInRange_of_le_two {value : ℚ} (nonneg : 0 ≤ value) (small : value ≤ 2) :
    IsInRange value := by
  refine ⟨nonneg, small.trans_lt (lt_of_le_of_lt ?_ zpow_lt_infiniteFrom)⟩
  exact le_of_eq_of_le (zpow_one 2).symm (zpow_le_zpow_right₀ (by norm_num) (by norm_num))

theorem natAbs_num_div_den {value : ℚ} (nonneg : 0 ≤ value) :
    (value.num.natAbs : ℚ) / value.den = value := by
  rw [Nat.cast_natAbs, abs_of_nonneg (Rat.num_nonneg.2 nonneg), Rat.num_div_den]

theorem double_of_nonneg {value : ℚ} (nonneg : 0 ≤ value) :
    double value = (ofRatio false value.num.natAbs value.den).toRat := by
  rw [double, Binary64.ofRat, decide_eq_false (not_lt.2 nonneg)]

/-- The nearest double of a greater number is no smaller. -/
theorem double_mono {first second : ℚ} (nonneg : 0 ≤ first) (ordered : first ≤ second)
    (bounded : second < infiniteFrom) : double first ≤ double second := by
  rw [double_of_nonneg nonneg, double_of_nonneg (nonneg.trans ordered)]
  apply toRat_ofRatio_mono first.den_pos second.den_pos
  · rwa [natAbs_num_div_den nonneg, natAbs_num_div_den (nonneg.trans ordered)]
  · rwa [natAbs_num_div_den (nonneg.trans ordered)]

theorem double_of_isRepresentable {value : ℚ} (range : IsInRange value)
    (exact : IsRepresentable value) : double value = value := by
  have quotient := natAbs_num_div_den range.nonneg
  rw [double_of_nonneg range.nonneg, toRat_ofRatio_of_isRepresentable value.den_pos] <;>
    rw [quotient]
  · exact exact
  · exact range.bounded

theorem double_zero : double 0 = 0 :=
  double_of_isRepresentable (isInRange_of_le_two (by norm_num) (by norm_num)) isRepresentable_zero

theorem double_one : double 1 = 1 :=
  double_of_isRepresentable (isInRange_of_le_two (by norm_num) (by norm_num))
    ⟨1, 0, by norm_num, by decide, by norm_num⟩

section Rounded

variable {value : ℚ}

theorem isRepresentable_double (range : IsInRange value) : IsRepresentable (double value) := by
  rw [double_of_nonneg range.nonneg]
  apply isRepresentable_toRat_ofRatio _ value.den_pos
  rw [natAbs_num_div_den range.nonneg]
  exact range.bounded

theorem isInRange_double (range : IsInRange value) : IsInRange (double value) where
  nonneg := by
    rw [← double_zero]
    exact double_mono le_rfl range.nonneg range.bounded
  bounded := by
    rw [double_of_nonneg range.nonneg]
    apply toRat_ofRatio_lt _ value.den_pos
    rw [natAbs_num_div_den range.nonneg]
    exact range.bounded

/-- A double that is rounded again stays as it is. -/
theorem double_double (range : IsInRange value) : double (double value) = double value :=
  double_of_isRepresentable (isInRange_double range) (isRepresentable_double range)

/-- Rounding does not leave the range from zero to one. -/
theorem double_mem_unit (nonneg : 0 ≤ value) (small : value ≤ 1) :
    0 ≤ double value ∧ double value ≤ 1 := by
  have range := isInRange_of_le_two nonneg (small.trans (by norm_num))
  refine ⟨(isInRange_double range).nonneg, ?_⟩
  rw [← double_one]
  exact double_mono nonneg small (isInRange_of_le_two (by norm_num) (by norm_num)).bounded

end Rounded

/-! ### The part that the importers give -/

/-- A count beyond the range of doubles has no double, and counts as zero. -/
theorem double_of_infinite {count : Nat} (beyond : infiniteFrom ≤ count) : double (count : ℚ) = 0 := by
  obtain ⟨sign, infinite⟩ := (ofInt_isInfinite_iff count).2 (by rwa [Int.natAbs_natCast])
  have same : Binary64.ofRat (count : ℚ) = Binary64.ofInt count := by
    have nonneg : decide ((count : ℚ) < 0) = decide ((count : Int) < 0) := by
      rw [decide_eq_false (not_lt.2 (Nat.cast_nonneg count)),
        decide_eq_false (not_lt.2 (Int.natCast_nonneg count))]
    rw [Binary64.ofRat, Binary64.ofInt, nonneg, Rat.num_natCast, Rat.den_natCast]
  rw [double, same, infinite]
  rfl

section Importers

variable {fewer more most : Nat}

theorem isInRange_natCast (within : more < infiniteFrom) : IsInRange (more : ℚ) :=
  ⟨Nat.cast_nonneg more, by exact_mod_cast within⟩

theorem inDegreeWeight_mem_unit : 0 ≤ inDegreeWeight ∧ inDegreeWeight ≤ 1 :=
  double_mem_unit (by norm_num) (by norm_num)

/-- What the importers of a file weigh, before they are compared with the most imported file. -/
def weightOf (count : Nat) : ℚ :=
  double (inDegreeWeight * double count)

theorem weightOf_mono (ordered : fewer ≤ more) (within : more < infiniteFrom) :
    0 ≤ weightOf fewer ∧ weightOf fewer ≤ weightOf more := by
  obtain ⟨nonneg, small⟩ := inDegreeWeight_mem_unit
  have range := isInRange_double (isInRange_natCast within)
  have range' := isInRange_double (isInRange_natCast (ordered.trans_lt within))
  have counts : double (fewer : ℚ) ≤ double (more : ℚ) :=
    double_mono (Nat.cast_nonneg fewer) (by exact_mod_cast ordered)
      (isInRange_natCast within).bounded
  have weighed : inDegreeWeight * double (more : ℚ) ≤ double (more : ℚ) :=
    mul_le_of_le_one_left range.nonneg small
  have product : inDegreeWeight * double (fewer : ℚ) ≤ inDegreeWeight * double (more : ℚ) :=
    mul_le_mul_of_nonneg_left counts nonneg
  have least : 0 ≤ inDegreeWeight * double (fewer : ℚ) := mul_nonneg nonneg range'.nonneg
  have bounded : inDegreeWeight * double (more : ℚ) < infiniteFrom :=
    weighed.trans_lt range.bounded
  exact ⟨(isInRange_double ⟨least, product.trans_lt bounded⟩).nonneg,
    double_mono least product bounded⟩

/-- No file weighs more than the most imported one counts. -/
theorem weightOf_le (within : most < infiniteFrom) : weightOf most ≤ double (most : ℚ) := by
  obtain ⟨nonneg, small⟩ := inDegreeWeight_mem_unit
  have range := isInRange_double (isInRange_natCast within)
  rw [← double_double (isInRange_natCast within)]
  exact double_mono (mul_nonneg nonneg range.nonneg) (mul_le_of_le_one_left range.nonneg small)
    range.bounded

/-- What the importers of a file weigh, compared with the most imported file. -/
def shareOf (count most : Nat) : ℚ :=
  weightOf count / double most

theorem shareOf_mono (ordered : fewer ≤ more) (greatest : more ≤ most) :
    0 ≤ shareOf fewer most ∧ shareOf fewer most ≤ shareOf more most ∧ shareOf more most ≤ 1 := by
  rw [shareOf, shareOf]
  rcases Nat.lt_or_ge most infiniteFrom with within | beyond
  · have range := isInRange_double (isInRange_natCast within)
    obtain ⟨nonneg, weights⟩ := weightOf_mono ordered (greatest.trans_lt within)
    have topmost : weightOf more ≤ double (most : ℚ) :=
      (weightOf_mono greatest within).2.trans (weightOf_le within)
    exact ⟨div_nonneg nonneg range.nonneg, div_le_div_of_nonneg_right weights range.nonneg,
      div_le_one_of_le₀ topmost range.nonneg⟩
  · rw [double_of_infinite beyond, div_zero, div_zero]
    norm_num

theorem importScore_eq (count most : Nat) :
    importScore count most = double (shareOf count most) := by
  rcases Nat.eq_zero_or_pos most with rfl | positive
  · have none : importScore count (0 : Nat) = 0 := rfl
    rw [none, shareOf, Nat.cast_zero, double_zero, div_zero, double_zero]
  · rw [importScore, if_pos (by exact_mod_cast positive)]
    rfl

/-- More importers never give less, and never more than one. -/
theorem importScore_mono (ordered : fewer ≤ more) (greatest : more ≤ most) :
    0 ≤ importScore fewer most ∧ importScore fewer most ≤ importScore more most ∧
      importScore more most ≤ 1 := by
  obtain ⟨nonneg, shares, unit⟩ := shareOf_mono ordered greatest
  have range := isInRange_of_le_two (nonneg.trans shares) (unit.trans (by norm_num))
  rw [importScore_eq, importScore_eq]
  exact ⟨(isInRange_double (range.of_le nonneg shares)).nonneg,
    double_mono nonneg shares range.bounded, (double_mem_unit range.nonneg unit).2⟩

/-- The part that the importers give is a double already. -/
theorem double_importScore (greatest : more ≤ most) :
    double (importScore more most) = importScore more most := by
  obtain ⟨nonneg, -, unit⟩ := shareOf_mono le_rfl greatest
  rw [importScore_eq]
  exact double_double (isInRange_of_le_two nonneg (unit.trans (by norm_num)))

/-! ### Scores -/

theorem testFactor_mem_unit : 0 ≤ testFactor ∧ testFactor ≤ 1 :=
  double_mem_unit (by norm_num) (by norm_num)

/-- No role has a greater bonus than an entry. -/
theorem bonus_le (role : Role) : 0 ≤ bonus role ∧ bonus role ≤ bonus .entry ∧ bonus .entry ≤ 1 := by
  have entry : 0 ≤ bonus .entry ∧ bonus .entry ≤ 1 := double_mem_unit (by norm_num) (by norm_num)
  have core : 0 ≤ bonus .core ∧ bonus .core ≤ bonus .entry :=
    ⟨(double_mem_unit (by norm_num) (by norm_num)).1, double_mono (by norm_num) (by norm_num)
      (isInRange_of_le_two (by norm_num) (by norm_num)).bounded⟩
  cases role with
  | entry => exact ⟨entry.1, le_rfl, entry.2⟩
  | core => exact ⟨core.1, core.2, entry.2⟩
  | config | types | test | util | doc => exact ⟨le_rfl, entry.1, entry.2⟩

/-- The part of the importers with the bonus of a role. -/
def totalScore (count most : Nat) (role : Role) : ℚ :=
  double (importScore count most + bonus role)

theorem rawScore_eq (count most : Nat) (role : Role) :
    rawScore count most role =
      if role = .test then double (totalScore count most role * testFactor)
      else totalScore count most role :=
  rfl

theorem isInRange_sum (greatest : more ≤ most) (role : Role) :
    IsInRange (importScore more most + bonus role) := by
  obtain ⟨nonneg, -, unit⟩ := importScore_mono le_rfl greatest
  obtain ⟨least, ordered, entry⟩ := bonus_le role
  exact isInRange_of_le_two (by linarith) (by linarith)

theorem totalScore_mono (ordered : fewer ≤ more) (greatest : more ≤ most) {role role' : Role}
    (bonuses : bonus role ≤ bonus role') :
    totalScore fewer most role ≤ totalScore more most role' := by
  obtain ⟨nonneg, scores, -⟩ := importScore_mono ordered greatest
  exact double_mono (isInRange_sum (ordered.trans greatest) role).nonneg (add_le_add scores bonuses)
    (isInRange_sum greatest role').bounded

/-- A test earns no more than its importers alone would. -/
theorem rawScore_test_le (ordered : fewer ≤ more) (greatest : more ≤ most) (role : Role) :
    rawScore fewer most .test ≤ totalScore more most role := by
  obtain ⟨nonneg, scores, -⟩ := importScore_mono ordered greatest
  have alone : totalScore fewer most .test = importScore fewer most := by
    have none : bonus .test = 0 := rfl
    rw [totalScore, none, add_zero, double_importScore (ordered.trans greatest)]
  have damped : importScore fewer most * testFactor ≤ importScore more most + bonus role :=
    calc importScore fewer most * testFactor ≤ importScore fewer most :=
          mul_le_of_le_one_right nonneg testFactor_mem_unit.2
      _ ≤ importScore more most := scores
      _ ≤ importScore more most + bonus role := le_add_of_nonneg_right (bonus_le role).1
  rw [rawScore_eq, if_pos rfl, alone]
  exact double_mono (mul_nonneg nonneg testFactor_mem_unit.1) damped
    (isInRange_sum greatest role).bounded

/-- The order of scores.  More importers mean no smaller score for files of one role, for a test
against any file, and for any file against an entry. -/
theorem rawScore_le (ordered : fewer ≤ more) (greatest : more ≤ most) {role role' : Role}
    (roles : role = role' ∨ role = .test ∨ role' = .entry) :
    rawScore fewer most role ≤ rawScore more most role' := by
  by_cases test' : role' = .test
  · -- Only a test is compared with a test: both are damped alike.
    have test : role = .test := by
      rcases roles with same | test | entry
      · exact same.trans test'
      · exact test
      · exact absurd (entry.symm.trans test') (by decide)
    subst test test'
    have totals := totalScore_mono ordered greatest (le_refl (bonus .test))
    have range := isInRange_double (isInRange_sum greatest .test)
    have range' := isInRange_double (isInRange_sum (ordered.trans greatest) .test)
    rw [rawScore_eq, rawScore_eq, if_pos rfl, if_pos rfl]
    exact double_mono (mul_nonneg range'.nonneg testFactor_mem_unit.1)
      (mul_le_mul_of_nonneg_right totals testFactor_mem_unit.1)
      ((mul_le_of_le_one_right range.nonneg testFactor_mem_unit.2).trans_lt range.bounded)
  · rw [rawScore_eq more, if_neg test']
    by_cases test : role = .test
    · subst test
      exact rawScore_test_le ordered greatest role'
    · rw [rawScore_eq, if_neg test]
      apply totalScore_mono ordered greatest
      rcases roles with rfl | test'' | rfl
      · exact le_rfl
      · exact absurd test'' test
      · exact (bonus_le role).2.1

theorem score_eq (count most : Nat) (role : Role) :
    score count most role = max 0 (min 1 (rawScore count most role)) := by
  rw [score]
  split_ifs with negative large
  · rw [max_eq_left (min_le_of_right_le negative.le)]
  · rw [min_eq_left large.le, max_eq_right (by norm_num)]
  · rw [min_eq_right (not_lt.1 large), max_eq_right (not_lt.1 negative)]

theorem score_mem_unit (count most : Nat) (role : Role) :
    0 ≤ score count most role ∧ score count most role ≤ 1 := by
  rw [score_eq]
  exact ⟨le_max_left _ _, max_le (by norm_num) (min_le_left _ _)⟩

theorem score_le (ordered : fewer ≤ more) (greatest : more ≤ most) {role role' : Role}
    (roles : role = role' ∨ role = .test ∨ role' = .entry) :
    score fewer most role ≤ score more most role' := by
  rw [score_eq, score_eq]
  exact max_le_max_left _ (min_le_min_left _ (rawScore_le ordered greatest roles))

end Importers

/-! ### Importance -/

namespace Importance

/-- An importance as a number of three decimal places. -/
def decimal (importance : Importance) : ℚ :=
  importance.thousandths / 1000

/-- The double that stands for an importance. -/
def value (importance : Importance) : ℚ :=
  double importance.decimal

theorem decimal_mem_unit {importance : Importance} (unit : importance.thousandths ≤ 1000) :
    0 ≤ importance.decimal ∧ importance.decimal ≤ 1 := by
  have most : (importance.thousandths : ℚ) ≤ 1000 := by exact_mod_cast unit
  rw [decimal]
  constructor
  · positivity
  · linarith

theorem decimal_mono {first second : Importance}
    (ordered : first.thousandths ≤ second.thousandths) : first.decimal ≤ second.decimal := by
  have counts : (first.thousandths : ℚ) ≤ second.thousandths := by exact_mod_cast ordered
  rw [decimal, decimal]
  linarith

theorem thousandths_ofScore_le {score : ℚ} (nonneg : 0 ≤ score) (small : score ≤ 1) :
    (ofScore score).thousandths ≤ 1000 := by
  have ordered : ((score.num.natAbs * 1000 : Nat) : ℚ) / score.den ≤ (1000 : Nat) / (1 : Nat) := by
    rw [Nat.cast_mul, mul_div_right_comm, natAbs_num_div_den nonneg]
    norm_num
    linarith
  calc (ofScore score).thousandths ≤ roundHalfEven 1000 1 :=
        roundHalfEven_mono score.den_pos (by norm_num) ordered
    _ = 1000 := by decide

theorem thousandths_ofScore_mono {score score' : ℚ} (nonneg : 0 ≤ score) (ordered : score ≤ score') :
    (ofScore score).thousandths ≤ (ofScore score').thousandths := by
  apply roundHalfEven_mono score.den_pos score'.den_pos
  rw [Nat.cast_mul, Nat.cast_mul, mul_div_right_comm, mul_div_right_comm, natAbs_num_div_den nonneg,
    natAbs_num_div_den (nonneg.trans ordered)]
  exact mul_le_mul_of_nonneg_right ordered (by norm_num)

theorem value_mono {first second : Importance}
    (ordered : first.thousandths ≤ second.thousandths) (unit : second.thousandths ≤ 1000) :
    first.value ≤ second.value := by
  obtain ⟨nonneg, small⟩ := decimal_mem_unit unit
  exact double_mono (decimal_mem_unit (ordered.trans unit)).1 (decimal_mono ordered)
    (isInRange_of_le_two nonneg (small.trans (by norm_num))).bounded

theorem double_step {step : Nat} (unit : step ≤ 4096) : double (step / 4096) = step / 4096 := by
  have most : (step : ℚ) ≤ 4096 := by exact_mod_cast unit
  apply double_of_isRepresentable (isInRange_of_le_two (by positivity) (by linarith))
  refine ⟨step, -12, by omega, by decide, ?_⟩
  norm_num
  ring

/-- Between two different numbers of thousandths there are two multiples of `2 ^ -12`, which are
doubles; so their doubles differ in the same way. -/
theorem value_lt_value {first second : Importance} (less : first.thousandths < second.thousandths)
    (unit : second.thousandths ≤ 1000) : first.value < second.value := by
  obtain ⟨step, below, above⟩ : ∃ step : Nat, first.thousandths * 4096 ≤ step * 1000 ∧
      (step + 1) * 1000 ≤ second.thousandths * 4096 :=
    ⟨(first.thousandths * 4096 + 999) / 1000, by omega, by omega⟩
  have below' : (first.thousandths : ℚ) * 4096 ≤ step * 1000 := by exact_mod_cast below
  have above' : ((step : ℚ) + 1) * 1000 ≤ second.thousandths * 4096 := by exact_mod_cast above
  have small : (second.thousandths : ℚ) ≤ 1000 := by exact_mod_cast unit
  calc first.value ≤ double (step / 4096) := by
        apply double_mono (decimal_mem_unit (by omega)).1
        · rw [decimal]
          linarith
        · exact (isInRange_of_le_two (by positivity) (by linarith)).bounded
    _ = step / 4096 := double_step (by omega)
    _ < ((step + 1 : Nat) : ℚ) / 4096 := by
        push_cast
        linarith
    _ = double (((step + 1 : Nat) : ℚ) / 4096) := (double_step (by omega)).symm
    _ ≤ second.value := by
        apply double_mono (by positivity)
        · rw [decimal]
          push_cast
          linarith
        · obtain ⟨nonneg, unit⟩ := decimal_mem_unit unit
          exact (isInRange_of_le_two nonneg (unit.trans (by norm_num))).bounded

end Importance

end RepoAtlas.Ranking
