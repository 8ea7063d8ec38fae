import Sentinel.Labs.Otel.LogBuckets

/-! The buckets as the code computes them, in floats. Each starts where the one before it
ends, and up to 2^51 of them do not leave the window. -/
namespace Sentinel.Labs.Otel
open Python Transition Sequences

/-- `bucket_start`. -/
def bucketStart (windowStart windowEnd : ℚ) (buckets : ℤ) (index : ℕ) : ℚ :=
  rnd (windowStart + rnd (rnd (rnd (windowEnd - windowStart) / buckets) * index))

/-- A bucket ends where the next one starts, and the last one with the window. -/
theorem bucketRange_rnd (windowStart windowEnd : ℚ) (buckets : ℤ) (index : ℕ) :
    bucketRange rnd windowStart windowEnd buckets index =
      (bucketStart windowStart windowEnd buckets index,
        if (index : ℤ) = buckets - 1 then windowEnd
        else bucketStart windowStart windowEnd buckets (index + 1)) := by
  rw [bucketRange, bucketStart, bucketStart, Nat.cast_succ]

/-- Three roundings of a part that is not the whole do not reach beyond the whole. -/
theorem rnd_part_le {width : ℚ} (nonneg : 0 ≤ width) {buckets index : ℕ} (below : index < buckets)
    (few : buckets ≤ 2 ^ 51) : rnd (rnd (rnd width / buckets) * index) ≤ width := by
  have up : (0 : ℚ) ≤ 1 + 1 / 2 ^ 53 := by norm_num
  have count : (0 : ℚ) < buckets := Nat.cast_pos.mpr (Nat.zero_lt_of_lt below)
  have place : (0 : ℚ) ≤ index := index.cast_nonneg
  have whole := rnd_nonneg nonneg
  have span := rnd_nonneg (div_nonneg whole count.le)
  have shrinks : (1 + 1 / 2 ^ 53) ^ 3 * (index : ℚ) ≤ buckets := by
    have next : (index : ℚ) + 1 ≤ buckets := by exact_mod_cast below
    have most : (buckets : ℚ) ≤ 2 ^ 51 := by exact_mod_cast few
    have cube : (1 + 1 / 2 ^ 53 : ℚ) ^ 3 ≤ 1 + 1 / 2 ^ 51 := by norm_num
    have grown := mul_le_mul_of_nonneg_right cube place
    linarith
  calc rnd (rnd (rnd width / buckets) * index)
      ≤ rnd (rnd width / buckets) * index * (1 + 1 / 2 ^ 53) := rnd_le_mul (mul_nonneg span place)
    _ ≤ rnd width / buckets * (1 + 1 / 2 ^ 53) * index * (1 + 1 / 2 ^ 53) := by
      gcongr
      exact rnd_le_mul (div_nonneg whole count.le)
    _ ≤ width * (1 + 1 / 2 ^ 53) / buckets * (1 + 1 / 2 ^ 53) * index * (1 + 1 / 2 ^ 53) := by
      gcongr
      exact rnd_le_mul nonneg
    _ = width * ((1 + 1 / 2 ^ 53) ^ 3 * index / buckets) := by ring
    _ ≤ width := mul_le_of_le_one_right nonneg (div_le_one_of_le₀ shrinks count.le)

section
variable {windowStart windowEnd : ℚ} (nonneg : 0 ≤ windowStart) (le : windowStart ≤ windowEnd)
  (floatStart : rnd windowStart = windowStart) (floatEnd : rnd windowEnd = windowEnd)
include nonneg le floatStart floatEnd

theorem bucketStart_bounds {buckets index : ℕ} (below : index < buckets) (few : buckets ≤ 2 ^ 51) :
    windowStart ≤ bucketStart windowStart windowEnd buckets index ∧
      bucketStart windowStart windowEnd buckets index ≤ windowEnd := by
  have width : 0 ≤ windowEnd - windowStart := sub_nonneg.mpr le
  have offset : 0 ≤ rnd (rnd (rnd (windowEnd - windowStart) / buckets) * index) :=
    rnd_nonneg (mul_nonneg (rnd_nonneg (div_nonneg (rnd_nonneg width) buckets.cast_nonneg))
      index.cast_nonneg)
  have most := rnd_part_le width below few
  rw [bucketStart, Int.cast_natCast]
  constructor
  · calc windowStart = rnd windowStart := floatStart.symm
      _ ≤ _ := rnd_mono nonneg (le_add_of_nonneg_right offset)
  · calc _ ≤ rnd windowEnd := rnd_mono (add_nonneg nonneg offset) (by linarith)
      _ = windowEnd := floatEnd

/-- Also in floats the ranges make up the window. -/
theorem bucketRanges_rnd_tiles {options : RecordingOptions} (few : options.buckets ≤ 2 ^ 51) :
    Tiles windowStart windowEnd (bucketRanges rnd windowStart windowEnd options) := by
  obtain ⟨n, count⟩ := Int.eq_ofNat_of_zero_le (zero_le_one.trans (le_max_left 1 options.logBuckets))
  have buckets : options.buckets = n := count
  have parts : n ≠ 0 := by
    have := options.buckets_ne_zero
    rwa [buckets, Int.toNat_natCast] at this
  have few' : n ≤ 2 ^ 51 := by
    rw [buckets] at few
    exact_mod_cast few
  have last : ∀ index : ℕ, (index : ℤ) = n - 1 ↔ index + 1 = n := by omega
  intro x
  simp only [bucketRanges, buckets, Int.toNat_natCast, List.mem_map, List.mem_range,
    bucketRange_rnd, last]
  constructor
  · rintro ⟨_, ⟨index, below, rfl⟩, low, high⟩
    refine ⟨(bucketStart_bounds nonneg le floatStart floatEnd below few').1.trans low, ?_⟩
    split at high
    · exact high
    · rename_i more
      have next : index + 1 < n := by omega
      exact high.trans (bucketStart_bounds nonneg le floatStart floatEnd next few').2
  · rintro ⟨low, high⟩
    have first : bucketStart windowStart windowEnd n 0 ≤ x := by
      have zero : rnd 0 = 0 := if_pos rfl
      rwa [bucketStart, Nat.cast_zero, mul_zero, zero, add_zero, floatStart]
    obtain ⟨index, below, from_, upto⟩ := exists_between first parts
    refine ⟨_, ⟨index, below, rfl⟩, from_, ?_⟩
    split
    · exact high
    · rename_i more
      exact upto.resolve_left more

/-- The code itself collects the logs of the window, and no others. -/
theorem collectBucketedLogs_float {W : Type} {lab : Lab W} {store : List LogHit}
    (backend : AnswersEarliest lab.searchLogs store) {options : RecordingOptions}
    (few : options.buckets ≤ 2 ^ 51) (s : W × List FlagOp) :
    ∃ rows t, collectBucketedLogs lab windowStart windowEnd options s = (.ok rows, t) ∧
      BucketedLogs store (bucketRanges rnd windowStart windowEnd options)
        options.perBucket.toNat rows ∧
      ∀ row ∈ rows, ∃ hit ∈ store,
        hit.row = row ∧ windowStart ≤ hit.time ∧ hit.time ≤ windowEnd := by
  obtain ⟨rows, t, returned, logs⟩ :=
    collectBucketedLogsWith_bucketed backend rnd windowStart windowEnd options s
  have tiles := bucketRanges_rnd_tiles nonneg le floatStart floatEnd few
  rw [← collectBucketedLogs_eq] at returned
  exact ⟨rows, t, returned, logs, fun row => logs.in_window tiles⟩

end

end Sentinel.Labs.Otel
