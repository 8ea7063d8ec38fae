import Mathlib.Algebra.Order.Floor.Ring
import Mathlib.Data.Int.Log
import Mathlib.Data.Rat.Floor
import Mathlib.Tactic.Linarith
import Sentinel.Python.Exn

/-! Floats as rationals of 53 significant bits: rounding to nearest with ties to even,
`float(n)` and `int(x)`. Overflow in arithmetic and underflow are left out. -/
namespace Python

/-- The nearest integer, the even one of two. -/
def roundEven (x : ℚ) : ℤ :=
  if x - ⌊x⌋ < 1 / 2 then ⌊x⌋
  else if 1 / 2 < x - ⌊x⌋ then ⌊x⌋ + 1
  else if ⌊x⌋ % 2 = 0 then ⌊x⌋
  else ⌊x⌋ + 1

/-- The nearest float. -/
def rnd (x : ℚ) : ℚ :=
  if x = 0 then 0 else roundEven (x / 2 ^ (Int.log 2 |x| - 52)) * 2 ^ (Int.log 2 |x| - 52)

/-- `float(n)`. -/
def toFloat (n : ℤ) : Py ℚ :=
  if 2 ^ 1024 - 2 ^ 970 ≤ |n| then
    .error ⟨"OverflowError", "int too large to convert to float", false⟩
  else .ok (rnd n)

/-- `int(x)`. -/
def truncate (x : ℚ) : ℤ := if 0 ≤ x then ⌊x⌋ else ⌈x⌉

/-- `format(x, ".nf")` with `n` places; the sign of a zero is left out. -/
def fixedText (places : ℕ) (x : ℚ) : String :=
  let n := (roundEven (|x| * 10 ^ places)).toNat
  let fraction := toString (n % 10 ^ places)
  (if x < 0 then "-" else "") ++ toString (n / 10 ^ places) ++
    if places = 0 then "" else
      "." ++ String.ofList (List.replicate (places - fraction.length) '0') ++ fraction

theorem truncate_of_bounds {x : ℚ} {n : ℤ} (nonneg : 0 ≤ n) (low : n ≤ x) (high : x < n + 1) :
    truncate x = n := by
  have positive : 0 ≤ x := le_trans (by exact_mod_cast nonneg) low
  rw [truncate, if_pos positive, Int.floor_eq_iff]
  exact ⟨low, high⟩

theorem roundEven_of_near {x : ℚ} {n : ℤ} (near : |x - n| < 1 / 2) : roundEven x = n := by
  obtain ⟨below, above⟩ := abs_lt.mp near
  rcases le_or_gt (n : ℚ) x with up | down
  · have floor : ⌊x⌋ = n := Int.floor_eq_iff.mpr ⟨up, by linarith⟩
    rw [roundEven, floor, if_pos above]
  · have floor : ⌊x⌋ = n - 1 := Int.floor_eq_iff.mpr ⟨by push_cast; linarith, by push_cast; linarith⟩
    rw [roundEven, floor, if_neg (by push_cast; linarith), if_pos (by push_cast; linarith)]
    ring

/-- Moving by an even integer keeps the ties. -/
theorem roundEven_add {n : ℤ} (even : n % 2 = 0) (x : ℚ) : roundEven (n + x) = n + roundEven x := by
  have fraction : (n + x : ℚ) - (n + ⌊x⌋ : ℤ) = x - ⌊x⌋ := by
    push_cast
    ring
  have parity : (n + ⌊x⌋) % 2 = ⌊x⌋ % 2 := by omega
  simp only [roundEven, Int.floor_intCast_add, fraction, parity]
  split_ifs <;> ring

theorem log_eq_of_bounds {x : ℚ} {e : ℤ} (lower : 2 ^ e ≤ x) (upper : x < 2 ^ (e + 1)) :
    Int.log 2 |x| = e := by
  have positive : 0 < x := (zpow_pos two_pos e).trans_le lower
  rw [abs_of_pos positive]
  refine le_antisymm ?_ ((Int.zpow_le_iff_le_log one_lt_two positive).mp (by exact_mod_cast lower))
  exact Int.lt_add_one_iff.mp ((Int.lt_zpow_iff_log_lt one_lt_two positive).mp (by exact_mod_cast upper))

/-- A float between two powers of two is a multiple of the last place. -/
theorem rnd_of_bounds {x : ℚ} {e : ℤ} (lower : 2 ^ e ≤ x) (upper : x < 2 ^ (e + 1)) :
    rnd x = roundEven (x / 2 ^ (e - 52)) * 2 ^ (e - 52) := by
  have positive : 0 < x := (zpow_pos two_pos e).trans_le lower
  rw [rnd, if_neg positive.ne', log_eq_of_bounds lower upper]

/-- A float near an integer below 2^52 is a multiple of the last place away from it. -/
theorem rnd_add_int {m : ℤ} {x : ℚ} {k : ℕ} (places : k ≠ 0) (lower : 2 ^ (52 - k : ℤ) ≤ m + x)
    (upper : m + x < 2 ^ (53 - k : ℤ)) : rnd (m + x) = m + roundEven (2 ^ k * x) / 2 ^ k := by
  have next : (52 - k : ℤ) + 1 = 53 - k := by omega
  have scale : (2 : ℚ) ^ ((52 - k : ℤ) - 52) = (2 ^ k)⁻¹ := by
    rw [show (52 - k : ℤ) - 52 = -k by omega, zpow_neg, zpow_natCast]
  have even : 2 ^ k * m % 2 = 0 := by
    obtain ⟨j, rfl⟩ := Nat.exists_eq_succ_of_ne_zero places
    rw [pow_succ, mul_comm _ (2 : ℤ), mul_assoc]
    exact Int.mul_emod_right 2 _
  have nonzero : (2 : ℚ) ^ k ≠ 0 := pow_ne_zero k two_ne_zero
  have scaled : (m + x) / (2 ^ k)⁻¹ = (2 ^ k * m : ℤ) + 2 ^ k * x := by
    rw [div_inv_eq_mul]
    push_cast
    ring
  rw [rnd_of_bounds lower (next ▸ upper), scale, scaled, roundEven_add even]
  push_cast
  rw [add_mul, mul_comm ((2 : ℚ) ^ k) m, mul_assoc, mul_inv_cancel₀ nonzero, mul_one,
    div_eq_mul_inv]

theorem roundEven_intCast (n : ℤ) : roundEven n = n := roundEven_of_near (by simp)

/-- A number of 53 significant bits is a float. -/
theorem rnd_scaled {a e : ℤ} (bits : |a| < 2 ^ 53) : rnd (a * 2 ^ e) = a * 2 ^ e := by
  by_cases zero : a = 0
  · simp [zero, rnd]
  have power : (0 : ℚ) < 2 ^ e := zpow_pos two_pos e
  have nonzero : (a * 2 ^ e : ℚ) ≠ 0 := mul_ne_zero (by exact_mod_cast zero) power.ne'
  have size : |(a * 2 ^ e : ℚ)| < 2 ^ (53 + e : ℤ) := by
    have bits' : |(a : ℚ)| < 2 ^ (53 : ℤ) := by exact_mod_cast bits
    rw [abs_mul, abs_of_pos power, zpow_add₀ two_ne_zero]
    exact mul_lt_mul_of_pos_right bits' power
  have place : Int.log 2 |(a * 2 ^ e : ℚ)| < 53 + e :=
    (Int.lt_zpow_iff_log_lt one_lt_two (abs_pos.mpr nonzero)).mp (by exact_mod_cast size)
  obtain ⟨j, last⟩ : ∃ j : ℕ, e = Int.log 2 |(a * 2 ^ e : ℚ)| - 52 + j :=
    ⟨(e - (Int.log 2 |(a * 2 ^ e : ℚ)| - 52)).toNat, by omega⟩
  rw [rnd, if_neg nonzero]
  generalize Int.log 2 |(a * 2 ^ e : ℚ)| - 52 = f at last
  have scaled : (a * 2 ^ e : ℚ) = (a * 2 ^ j : ℤ) * 2 ^ f := by
    rw [last, zpow_add₀ two_ne_zero, zpow_natCast]
    push_cast
    ring
  have unit : (2 : ℚ) ^ f ≠ 0 := zpow_ne_zero f two_ne_zero
  rw [scaled, mul_div_cancel_right₀ _ unit, roundEven_intCast]

theorem rnd_eq_self {a : ℤ} {k : ℕ} (bits : |a| < 2 ^ 53) : rnd (a * 2 ^ k) = a * 2 ^ k := by
  have scaled := rnd_scaled (e := k) bits
  rwa [zpow_natCast] at scaled

theorem le_roundEven {n : ℤ} {x : ℚ} (low : n ≤ x) : n ≤ roundEven x := by
  have floor : n ≤ ⌊x⌋ := Int.le_floor.mpr low
  unfold roundEven
  split_ifs <;> omega

theorem roundEven_le {n : ℤ} {x : ℚ} (high : x ≤ n) : roundEven x ≤ n := by
  rcases eq_or_lt_of_le high with rfl | below
  · rw [roundEven_intCast]
  · have floor : ⌊x⌋ < n := Int.floor_lt.mpr below
    unfold roundEven
    split_ifs <;> omega

/-- Rounding does not cross a power of two. -/
theorem two_zpow_le_abs_rnd {x : ℚ} {k : ℤ} (low : 2 ^ k ≤ |x|) : 2 ^ k ≤ |rnd x| := by
  have positive : 0 < |x| := (zpow_pos two_pos k).trans_le low
  have nonzero : x ≠ 0 := abs_pos.mp positive
  have above : k ≤ Int.log 2 |x| := (Int.zpow_le_iff_le_log one_lt_two positive).mp (by exact_mod_cast low)
  have lead : (2 : ℚ) ^ Int.log 2 |x| ≤ |x| := by exact_mod_cast Int.zpow_log_le_self one_lt_two positive
  rw [rnd, if_neg nonzero]
  generalize Int.log 2 |x| = e at above lead
  have unit : (0 : ℚ) < 2 ^ (e - 52) := zpow_pos two_pos _
  have split : (2 : ℚ) ^ e = (2 ^ 52 : ℤ) * 2 ^ (e - 52) := by
    rw [Int.cast_pow, Int.cast_ofNat, ← zpow_natCast, ← zpow_add₀ two_ne_zero]
    congr 1
    omega
  have digits : (2 ^ 52 : ℤ) ≤ |roundEven (x / 2 ^ (e - 52))| := by
    rw [split, ← le_div_iff₀ unit] at lead
    rcases le_or_gt 0 x with nonneg | negative
    · rw [abs_of_nonneg nonneg] at lead
      exact (le_roundEven lead).trans (le_abs_self _)
    · rw [abs_of_neg negative, neg_div, le_neg] at lead
      have below : roundEven (x / 2 ^ (e - 52)) ≤ -2 ^ 52 := roundEven_le (by push_cast at lead ⊢; exact lead)
      exact (le_neg.mpr below).trans (neg_le_abs _)
  calc (2 : ℚ) ^ k ≤ 2 ^ e := zpow_le_zpow_right₀ one_le_two above
    _ = (2 ^ 52 : ℤ) * 2 ^ (e - 52) := split
    _ ≤ |(roundEven (x / 2 ^ (e - 52)) : ℚ)| * 2 ^ (e - 52) := by
      refine mul_le_mul_of_nonneg_right ?_ unit.le
      exact_mod_cast digits
    _ = |(roundEven (x / 2 ^ (e - 52)) : ℚ) * 2 ^ (e - 52)| := by rw [abs_mul, abs_of_pos unit]

theorem roundEven_mono {x y : ℚ} (le : x ≤ y) : roundEven x ≤ roundEven y := by
  have floors : ⌊x⌋ ≤ ⌊y⌋ := Int.floor_mono le
  rcases eq_or_lt_of_le floors with same | below
  · have fractions : x - ⌊x⌋ ≤ y - ⌊y⌋ := by rw [same]; linarith
    unfold roundEven
    rw [same] at fractions ⊢
    split_ifs <;> first | omega | linarith
  · have under : roundEven x ≤ ⌊x⌋ + 1 := roundEven_le (by push_cast; exact (Int.lt_floor_add_one x).le)
    have above : ⌊y⌋ ≤ roundEven y := le_roundEven (Int.floor_le y)
    omega

theorem rnd_nonneg {x : ℚ} (nonneg : 0 ≤ x) : 0 ≤ rnd x := by
  unfold rnd
  split_ifs
  · exact le_rfl
  · have power : (0 : ℚ) < 2 ^ (Int.log 2 |x| - 52) := zpow_pos two_pos _
    have scaled : (0 : ℤ) ≤ roundEven (x / 2 ^ (Int.log 2 |x| - 52)) :=
      le_roundEven (by exact_mod_cast div_nonneg nonneg power.le)
    exact mul_nonneg (by exact_mod_cast scaled) power.le

theorem rnd_ne_zero {x : ℚ} (nonzero : x ≠ 0) : rnd x ≠ 0 := by
  have lead : (2 : ℚ) ^ Int.log 2 |x| ≤ |x| := by
    exact_mod_cast Int.zpow_log_le_self one_lt_two (abs_pos.mpr nonzero)
  exact abs_pos.mp ((zpow_pos two_pos _).trans_le (two_zpow_le_abs_rnd lead))

theorem rnd_nonpos {x : ℚ} (nonpos : x ≤ 0) : rnd x ≤ 0 := by
  unfold rnd
  split_ifs
  · exact le_rfl
  · have power : (0 : ℚ) < 2 ^ (Int.log 2 |x| - 52) := zpow_pos two_pos _
    have scaled : roundEven (x / 2 ^ (Int.log 2 |x| - 52)) ≤ 0 :=
      roundEven_le (by exact_mod_cast div_nonpos_of_nonpos_of_nonneg nonpos power.le)
    exact mul_nonpos_of_nonpos_of_nonneg (by exact_mod_cast scaled) power.le

/-- Rounding keeps the sign. -/
theorem rnd_pos_iff {x : ℚ} : 0 < rnd x ↔ 0 < x := by
  constructor
  · intro positive
    by_contra nonpos
    exact absurd (rnd_nonpos (not_lt.mp nonpos)) (not_le.mpr positive)
  · intro positive
    exact lt_of_le_of_ne (rnd_nonneg positive.le) (rnd_ne_zero positive.ne').symm

theorem rnd_eq_zero_iff {x : ℚ} : rnd x = 0 ↔ x = 0 :=
  ⟨fun zero => not_not.mp fun nonzero => rnd_ne_zero nonzero zero, fun zero => by simp [zero, rnd]⟩

/-- Rounding stays below the next power of two. -/
theorem rnd_le_two_zpow {x : ℚ} {k : ℤ} (lower : 2 ^ k ≤ x) (upper : x < 2 ^ (k + 1)) :
    rnd x ≤ 2 ^ (k + 1) := by
  have power : (0 : ℚ) < 2 ^ (k - 52) := zpow_pos two_pos _
  have whole : (2 : ℚ) ^ (k + 1) = (2 ^ 53 : ℤ) * 2 ^ (k - 52) := by
    rw [show k + 1 = 53 + (k - 52) by omega, zpow_add₀ two_ne_zero]
    norm_num
  rw [rnd_of_bounds lower upper, whole]
  refine mul_le_mul_of_nonneg_right ?_ power.le
  have scaled : x / 2 ^ (k - 52) ≤ ((2 ^ 53 : ℤ) : ℚ) := by
    rw [div_le_iff₀ power, ← whole]
    exact upper.le
  exact_mod_cast roundEven_le scaled

/-- Rounding keeps the order of numbers that are not negative. -/
theorem rnd_mono {x y : ℚ} (nonneg : 0 ≤ x) (le : x ≤ y) : rnd x ≤ rnd y := by
  rcases eq_or_lt_of_le nonneg with rfl | positive
  · rw [rnd, if_pos rfl]
    exact rnd_nonneg le
  have within {z : ℚ} (pos : 0 < z) : 2 ^ Int.log 2 z ≤ z ∧ z < 2 ^ (Int.log 2 z + 1) :=
    ⟨by exact_mod_cast Int.zpow_log_le_self one_lt_two pos,
      by exact_mod_cast Int.lt_zpow_succ_log_self one_lt_two z⟩
  have wx := within positive
  have wy := within (positive.trans_le le)
  have logs : Int.log 2 x ≤ Int.log 2 y := Int.log_mono_right positive le
  rcases eq_or_lt_of_le logs with same | below
  · rw [rnd_of_bounds wx.1 wx.2, rnd_of_bounds wy.1 wy.2, same]
    have power : (0 : ℚ) < 2 ^ (Int.log 2 y - 52) := zpow_pos two_pos _
    refine mul_le_mul_of_nonneg_right ?_ power.le
    exact_mod_cast roundEven_mono (div_le_div_of_nonneg_right le power.le)
  · calc rnd x ≤ 2 ^ (Int.log 2 x + 1) := rnd_le_two_zpow wx.1 wx.2
      _ ≤ 2 ^ Int.log 2 y := zpow_le_zpow_right₀ one_le_two below
      _ ≤ |rnd y| := two_zpow_le_abs_rnd (wy.1.trans (le_abs_self y))
      _ = rnd y := abs_of_nonneg (rnd_nonneg (positive.le.trans le))

theorem roundEven_le_add_half (x : ℚ) : roundEven x ≤ x + 1 / 2 := by
  have floor := Int.floor_le x
  unfold roundEven
  split_ifs <;> push_cast <;> linarith

/-- Rounding adds at most half a unit in the last place. -/
theorem rnd_le_mul {x : ℚ} (nonneg : 0 ≤ x) : rnd x ≤ x * (1 + 1 / 2 ^ 53) := by
  rcases eq_or_lt_of_le nonneg with rfl | positive
  · simp [rnd]
  have lead : (2 : ℚ) ^ Int.log 2 x ≤ x := by
    exact_mod_cast Int.zpow_log_le_self one_lt_two positive
  have next : x < (2 : ℚ) ^ (Int.log 2 x + 1) := by
    exact_mod_cast Int.lt_zpow_succ_log_self one_lt_two x
  rw [rnd_of_bounds lead next]
  generalize Int.log 2 x = e at lead
  have unit : (0 : ℚ) < 2 ^ (e - 52) := zpow_pos two_pos _
  have half : (2 : ℚ) ^ (e - 52) / 2 = 2 ^ e / 2 ^ 53 := by
    rw [zpow_sub₀ two_ne_zero]
    norm_num
    ring
  calc (roundEven (x / 2 ^ (e - 52)) : ℚ) * 2 ^ (e - 52)
      ≤ (x / 2 ^ (e - 52) + 1 / 2) * 2 ^ (e - 52) :=
        mul_le_mul_of_nonneg_right (roundEven_le_add_half _) unit.le
    _ = x + 2 ^ e / 2 ^ 53 := by
      rw [add_mul, div_mul_cancel₀ _ unit.ne', ← half]
      ring
    _ ≤ x * (1 + 1 / 2 ^ 53) := by
      rw [mul_add, mul_one, mul_one_div]
      gcongr

/-- Different counts of thousandths stay different as floats. -/
theorem rnd_thousandths_lt {k l : ℤ} (nonneg : 0 ≤ k) (lt : k < l) (small : l < 2 ^ 30) :
    rnd (k / 1000) < rnd (l / 1000) := by
  -- two floats stand between any two counts
  obtain ⟨m, low, high⟩ : ∃ m : ℤ, (k / 1000 : ℚ) ≤ m * 2 ^ (-12 : ℤ) ∧
      ((m + 1 : ℤ) * 2 ^ (-12 : ℤ) : ℚ) ≤ l / 1000 := by
    refine ⟨⌈(k * 2 ^ 12 / 1000 : ℚ)⌉, ?_, ?_⟩
    · have above := Int.le_ceil (k * 2 ^ 12 / 1000 : ℚ)
      norm_num at above ⊢
      linarith
    · have above := Int.ceil_lt_add_one (k * 2 ^ 12 / 1000 : ℚ)
      have next : (k : ℚ) + 1 ≤ l := by exact_mod_cast lt
      push_cast
      norm_num at above ⊢
      linarith
  have start : (0 : ℚ) ≤ k / 1000 := div_nonneg (by exact_mod_cast nonneg) (by norm_num)
  have bound : ((m + 1 : ℤ) : ℚ) < 2 ^ 53 := by
    have top : (l : ℚ) < 2 ^ 30 := by exact_mod_cast small
    norm_num at high ⊢
    linarith
  have from_ : (0 : ℚ) ≤ m := by
    norm_num at low
    linarith
  have floor : 0 ≤ m := by exact_mod_cast from_
  have ceiling : m + 1 < 2 ^ 53 := by exact_mod_cast bound
  calc rnd (k / 1000) ≤ rnd (m * 2 ^ (-12 : ℤ)) := rnd_mono start low
    _ = m * 2 ^ (-12 : ℤ) := rnd_scaled (by rw [abs_of_nonneg floor]; omega)
    _ < (m + 1 : ℤ) * 2 ^ (-12 : ℤ) := by
      push_cast
      norm_num
    _ = rnd ((m + 1 : ℤ) * 2 ^ (-12 : ℤ)) := by
      rw [rnd_scaled]
      rw [abs_of_nonneg (by omega)]
      exact ceiling
    _ ≤ rnd (l / 1000) := rnd_mono (by positivity) high

theorem float_range {n : ℤ} (small : |n| < 2 ^ 53) : |n| < 2 ^ 1024 - 2 ^ 970 := by
  have power : (2 : ℤ) ^ 1024 = 2 ^ 970 * 2 ^ 54 := by rw [← pow_add]
  have positive : (0 : ℤ) < 2 ^ 970 := by positivity
  rw [power]
  omega

theorem rnd_intCast {n : ℤ} (small : |n| < 2 ^ 53) : rnd n = n := by
  have whole := rnd_eq_self (k := 0) small
  simpa using whole

/-- An integer of 53 bits is a float. -/
theorem toFloat_of_small {n : ℤ} (small : |n| < 2 ^ 53) : toFloat n = .ok (n : ℚ) := by
  rw [toFloat, if_neg (not_le.mpr (float_range small)), rnd_intCast small]

/-- `sum` of floats, in whatever way it adds them up: what is not negative sums up to zero
only if it is all zero. -/
class FloatSum where
  sum : List ℚ → ℚ
  sum_eq_zero : ∀ xs, (∀ x ∈ xs, 0 ≤ x) → (sum xs = 0 ↔ ∀ x ∈ xs, x = 0)

theorem foldl_rnd_eq_zero {start : ℚ} {xs : List ℚ} (from_ : 0 ≤ start) (nonneg : ∀ x ∈ xs, 0 ≤ x) :
    xs.foldl (fun sum x => rnd (sum + x)) start = 0 ↔ start = 0 ∧ ∀ x ∈ xs, x = 0 := by
  induction xs generalizing start with
  | nil => simp
  | cons x rest ih =>
    rw [List.forall_mem_cons] at nonneg
    rw [List.foldl_cons, ih (rnd_nonneg (add_nonneg from_ nonneg.1)) nonneg.2, rnd_eq_zero_iff,
      add_eq_zero_iff_of_nonneg from_ nonneg.1, List.forall_mem_cons, and_assoc]

/-- Addition from left to right. -/
@[reducible] def leftSum : FloatSum where
  sum xs := xs.foldl (fun sum x => rnd (sum + x)) 0
  sum_eq_zero xs nonneg := by simp [foldl_rnd_eq_zero le_rfl nonneg]

theorem truncate_intCast (n : ℤ) : truncate n = n := by
  unfold truncate
  split <;> simp

end Python
