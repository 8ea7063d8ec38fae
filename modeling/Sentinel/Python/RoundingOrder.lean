import Sentinel.Python.Rounding

/-! Rounding on both signs: it is odd, keeps the order, leaves floats alone and commutes with
doubling. -/
namespace Python

theorem floor_neg_of_fraction {x : ℚ} (fraction : (⌊x⌋ : ℚ) < x) : ⌊-x⌋ = -⌊x⌋ - 1 := by
  have above := Int.lt_floor_add_one x
  refine Int.floor_eq_iff.mpr ⟨?_, ?_⟩ <;> push_cast <;> linarith

theorem roundEven_neg (x : ℚ) : roundEven (-x) = -roundEven x := by
  rcases eq_or_lt_of_le (Int.floor_le x) with whole | fraction
  · rw [← whole, ← Int.cast_neg, roundEven_intCast, roundEven_intCast]
  · have floor := floor_neg_of_fraction fraction
    have rest : -x - ((-⌊x⌋ - 1 : ℤ) : ℚ) = 1 - (x - ⌊x⌋) := by
      push_cast
      ring
    simp only [roundEven, floor, rest]
    generalize x - ⌊x⌋ = f
    generalize ⌊x⌋ = n
    split_ifs <;> first | omega | (exfalso; linarith)

theorem rnd_neg (x : ℚ) : rnd (-x) = -rnd x := by
  unfold rnd
  simp only [neg_eq_zero, abs_neg, neg_div, roundEven_neg]
  split_ifs
  · exact neg_zero.symm
  · push_cast
    ring

/-- Rounding keeps the order. -/
theorem rnd_monotone : Monotone rnd := by
  intro x y le
  rcases le_total 0 x with nonneg | nonpos
  · exact rnd_mono nonneg le
  rcases le_total 0 y with above | below
  · exact (rnd_nonpos nonpos).trans (rnd_nonneg above)
  · have flipped := rnd_mono (neg_nonneg.mpr below) (neg_le_neg le)
    rw [rnd_neg, rnd_neg] at flipped
    exact neg_le_neg_iff.mp flipped

theorem rnd_two_mul (x : ℚ) : rnd (2 * x) = 2 * rnd x := by
  by_cases zero : x = 0
  · simp [zero, rnd]
  have positive : 0 < |x| := abs_pos.mpr zero
  have log : Int.log 2 |2 * x| = Int.log 2 |x| + 1 := by
    have low : (2 : ℚ) ^ Int.log 2 |x| ≤ |x| := by
      exact_mod_cast Int.zpow_log_le_self one_lt_two positive
    have high : |x| < (2 : ℚ) ^ (Int.log 2 |x| + 1) := by
      exact_mod_cast Int.lt_zpow_succ_log_self one_lt_two |x|
    have doubled := log_eq_of_bounds (x := |2 * x|) (e := Int.log 2 |x| + 1) ?_ ?_
    · rwa [abs_abs] at doubled
    · rw [abs_mul, abs_two, zpow_add_one₀ two_ne_zero]
      linarith
    · rw [abs_mul, abs_two, zpow_add_one₀ two_ne_zero (Int.log 2 |x| + 1)]
      linarith
  have power : (2 : ℚ) ^ (Int.log 2 |x| + 1 - 52) = 2 * 2 ^ (Int.log 2 |x| - 52) := by
    rw [show Int.log 2 |x| + 1 - 52 = 1 + (Int.log 2 |x| - 52) by omega, zpow_add₀ two_ne_zero,
      zpow_one]
  rw [rnd, rnd, if_neg zero, if_neg (mul_ne_zero two_ne_zero zero), log, power,
    mul_div_mul_left _ _ two_ne_zero]
  ring

theorem abs_roundEven_le {n : ℤ} {x : ℚ} (bound : |x| ≤ n) : |roundEven x| ≤ n := by
  obtain ⟨low, high⟩ := abs_le.mp bound
  exact abs_le.mpr ⟨le_roundEven (by exact_mod_cast low), roundEven_le high⟩

/-- A rounded number is a float. -/
theorem rnd_rnd (x : ℚ) : rnd (rnd x) = rnd x := by
  by_cases zero : x = 0
  · simp [zero, rnd]
  have high : |x| < (2 : ℚ) ^ (Int.log 2 |x| + 1) := by
    exact_mod_cast Int.lt_zpow_succ_log_self one_lt_two |x|
  rw [rnd.eq_def x, if_neg zero]
  generalize Int.log 2 |x| = e at high
  have unit : (0 : ℚ) < 2 ^ (e - 52) := zpow_pos two_pos _
  have digits : |roundEven (x / 2 ^ (e - 52))| ≤ 2 ^ 53 := by
    apply abs_roundEven_le
    rw [abs_div, abs_of_pos unit, div_le_iff₀ unit]
    refine high.le.trans (le_of_eq ?_)
    rw [show e + 1 = 53 + (e - 52) by omega, zpow_add₀ two_ne_zero]
    norm_num
  rcases lt_or_eq_of_le digits with below | full
  · exact rnd_scaled below
  · have carried : rnd ((2 ^ 53 : ℤ) * 2 ^ (e - 52)) = (2 ^ 53 : ℤ) * 2 ^ (e - 52) := by
      have power : ((2 ^ 53 : ℤ) : ℚ) * 2 ^ (e - 52) = (1 : ℤ) * 2 ^ (e + 1) := by
        rw [show e + 1 = 53 + (e - 52) by omega, zpow_add₀ two_ne_zero]
        norm_num
      rw [power]
      exact rnd_scaled (by norm_num)
    rcases abs_choice (roundEven (x / 2 ^ (e - 52))) with same | flipped
    · rw [full] at same
      rw [← same]
      exact carried
    · rw [full] at flipped
      rw [← neg_neg (roundEven (x / 2 ^ (e - 52))), ← flipped, Int.cast_neg, neg_mul, rnd_neg, carried]

end Python
