import Mathlib.Algebra.Order.Field.Basic
import Mathlib.Tactic.Linarith
import Mathlib.Tactic.Positivity
import Mathlib.Tactic.Ring
import Sentinel.Python.Dict
import Sentinel.Tools.Stats

/-! A single bucket that departs from a constant series, in exact arithmetic. It moves
neither median, unless the series after the onset has three values and the departure is at
one of its ends: of two differences the median is half the jump. -/
namespace Sentinel.Tools
open Python

section Exact
attribute [local instance] FloatArith.exact

theorem insertionSort_of_perm {vals s : List ℚ} (same : vals.Perm s) (sorted : s.Pairwise (· ≤ ·)) :
    vals.insertionSort (· ≤ ·) = s :=
  ((List.perm_insertionSort _ vals).trans same).eq_of_pairwise (fun _ _ _ _ => le_antisymm)
    (List.pairwise_insertionSort _ vals) sorted

/-- One value below and one above equal ones: the median is these, if there are any. -/
theorem median_between {vals : List ℚ} {a b c : ℚ} {k : ℕ}
    (same : vals.Perm (a :: b :: List.replicate k c)) (below : a ≤ c) (above : c ≤ b) :
    median vals = if k = 0 then (a + b) / 2 else c := by
  have sorted : (a :: (List.replicate k c ++ [b])).Pairwise (· ≤ ·) := by
    refine List.pairwise_cons.mpr ⟨fun v member => ?_, List.pairwise_append.mpr ⟨?_, ?_, ?_⟩⟩
    · rcases List.mem_append.mp member with same | last
      · exact below.trans (List.eq_of_mem_replicate same).ge
      · exact (below.trans above).trans (List.mem_singleton.mp last).ge
    · exact List.pairwise_replicate.mpr (.inr le_rfl)
    · exact List.pairwise_singleton _ _
    · intro v first w last
      rw [List.eq_of_mem_replicate first, List.mem_singleton.mp last]
      exact above
  have moved : (a :: b :: List.replicate k c).Perm (a :: (List.replicate k c ++ [b])) :=
    (List.perm_append_singleton b _).symm.cons a
  have middle {j : ℕ} (low : 0 < j) (high : j ≤ k) :
      (a :: (List.replicate k c ++ [b])).getD j 0 = c := by
    obtain ⟨j, rfl⟩ := Nat.exists_eq_succ_of_ne_zero low.ne'
    have inside : j < (List.replicate k c).length := by
      rw [List.length_replicate]
      omega
    rw [List.getD_cons_succ, List.getD_eq_getElem?_getD, List.getElem?_append_left inside,
      List.getElem?_eq_getElem inside, List.getElem_replicate, Option.getD_some]
  have length : (a :: (List.replicate k c ++ [b])).length = k + 2 := by simp
  rw [median, insertionSort_of_perm (same.trans moved) sorted]
  simp only [length]
  by_cases none_ : k = 0
  · subst none_
    rfl
  · rw [if_neg (by omega), if_neg none_]
    split
    · exact middle (by omega) (by omega)
    · rw [middle (by omega) (by omega), middle (by omega) (by omega)]
      change (c + c) / 2 = c
      ring

theorem median_replicate {m : ℕ} (some_ : m ≠ 0) (c : ℚ) : median (List.replicate m c) = c := by
  match m with
  | 1 => simp [median]
  | k + 2 =>
    have whole : median (List.replicate (k + 2) c) = if k = 0 then (c + c) / 2 else c :=
      median_between (.refl _) le_rfl le_rfl
    rw [whole]
    split
    · ring
    · rfl

/-- Nothing steps against a constant baseline while the median stays at most there. -/
theorem levelZ_still {m : ℕ} (some_ : m ≠ 0) {c : ℚ} {post : List ℚ} (floors : Floors)
    (still : median post ≤ c) : levelZ (List.replicate m c) post floors = 0 := by
  unfold levelZ
  rw [median_replicate some_]
  have none_ : FloatArith.sub (median post) c ≤ 0 := by
    change median post - c ≤ 0
    linarith
  simp [none_]

theorem madSigma_replicate {m : ℕ} (some_ : m ≠ 0) (c : ℚ) : madSigma (List.replicate m c) = 0 := by
  unfold madSigma
  simp only [median_replicate some_, List.map_replicate]
  have zero : |FloatArith.sub c c| = 0 := by
    change |c - c| = 0
    simp
  rw [zero]
  exact mul_zero _

theorem placebo_replicate (m : ℕ) (c madEps : ℚ) : placebo (List.replicate m c) madEps = 0 := by
  have round (best : ℚ) (cut : ℕ) (start : best = 0) :
      (if 4 ≤ cut ∧ cut ≤ (List.replicate m c).length - 4 then
        max best (FloatArith.div
          |FloatArith.sub (median ((List.replicate m c).drop cut)) (median ((List.replicate m c).take cut))|
          (denominator ((List.replicate m c).take cut) madEps))
      else best) = 0 := by
    split
    · rename_i inside
      rw [List.length_replicate] at inside
      rw [List.drop_replicate, List.take_replicate, median_replicate (by omega),
        median_replicate (by omega), start]
      change max 0 (|c - c| / _) = (0 : ℚ)
      simp
    · exact start
  simp only [placebo, List.foldl_cons, List.foldl_nil]
  exact round _ _ (round _ _ rfl)

/-- Against a baseline of zeros any positive median is a step. -/
theorem levelZ_positive {m : ℕ} (long : 4 ≤ m) {post : List ℚ} {madEps : ℚ} (eps : 0 < madEps)
    (steps : 0 < median post) : 0 < levelZ (List.replicate m 0) post ⟨madEps, 0, 0⟩ := by
  have some_ : m ≠ 0 := by omega
  have nonempty : post ≠ [] := by
    rintro rfl
    exact lt_irrefl _ steps
  have delta : FloatArith.sub (median post) 0 = median post := sub_zero _
  have spread : denominator (List.replicate m 0) madEps = madEps := by
    unfold denominator
    rw [madSigma_replicate some_, median_replicate some_, max_eq_right eps.le]
    change max madEps (_ * |0|) = madEps
    rw [abs_zero, mul_zero, max_eq_left eps.le]
  unfold levelZ
  simp only [median_replicate some_, delta, spread, placebo_replicate]
  have enough : ¬ m < 4 := by omega
  simp [enough, nonempty, not_le.mpr steps, steps.le]
  exact div_pos steps eps

theorem diffs_cons (a b : ℚ) (rest : List ℚ) : diffs (a :: b :: rest) = (b - a) :: diffs (b :: rest) :=
  rfl

theorem diffs_replicate (m : ℕ) (c : ℚ) : diffs (List.replicate (m + 1) c) = List.replicate m 0 := by
  induction m with
  | zero => rfl
  | succ m ih =>
    rw [List.replicate_succ, List.replicate_succ, diffs_cons, ← List.replicate_succ, ih, sub_self,
      ← List.replicate_succ]

/-- The differences up to a value that follows a constant stretch. -/
theorem diffs_before (j : ℕ) (c x : ℚ) (rest : List ℚ) :
    diffs (List.replicate (j + 1) c ++ x :: rest) =
      List.replicate j 0 ++ (x - c) :: diffs (x :: rest) := by
  induction j with
  | zero => rfl
  | succ j ih =>
    rw [List.replicate_succ, List.replicate_succ, List.cons_append, List.cons_append, diffs_cons,
      ← List.cons_append, ← List.replicate_succ, ih, sub_self, List.replicate_succ, List.cons_append]

theorem diffs_after (k : ℕ) (c x : ℚ) :
    diffs (x :: List.replicate (k + 1) c) = (c - x) :: List.replicate k 0 := by
  rw [List.replicate_succ, diffs_cons, ← List.replicate_succ, diffs_replicate]

/-- A constant series with one other value. -/
theorem set_replicate {n i : ℕ} (inside : i < n) (c x : ℚ) :
    (List.replicate n c).set i x = List.replicate i c ++ x :: List.replicate (n - 1 - i) c := by
  obtain ⟨k, rfl⟩ : ∃ k, n = i + (k + 1) := ⟨n - 1 - i, by omega⟩
  rw [List.replicate_add, List.set_append_right _ _ (by simp), List.length_replicate, Nat.sub_self,
    List.replicate_succ, List.set_cons_zero]
  congr 3
  omega

/-- One value among equal ones does not move the median of three or more. -/
theorem median_spike {n : ℕ} (long : 3 ≤ n) (c x : ℚ) (i : ℕ) :
    median ((List.replicate n c).set i x) = c := by
  obtain ⟨k, rfl⟩ : ∃ k, n = k + 3 := ⟨n - 3, by omega⟩
  by_cases inside : i < k + 3
  · have same : ((List.replicate (k + 3) c).set i x).Perm (x :: List.replicate (k + 2) c) := by
      rw [set_replicate inside]
      refine List.perm_middle.trans (List.Perm.cons x ?_)
      rw [List.replicate_append_replicate, show i + (k + 3 - 1 - i) = k + 2 by omega]
    rcases le_total x c with below | above
    · exact median_between same below le_rfl
    · exact median_between (same.trans (.swap _ _ _)) le_rfl above
  · rw [List.set_eq_of_length_le (by simpa using inside), median_replicate (by omega)]

/-- The median of differences of which one is not zero. -/
theorem median_one {vals : List ℚ} {d : ℚ} {k : ℕ} (same : vals.Perm (d :: List.replicate (k + 1) 0)) :
    median vals = if k = 0 then d / 2 else 0 := by
  rcases le_total d 0 with below | above
  · rw [median_between same below le_rfl, add_zero]
  · rw [median_between (same.trans (.swap _ _ _)) le_rfl above, zero_add]

theorem median_two {vals : List ℚ} {d : ℚ} {k : ℕ}
    (same : vals.Perm (d :: -d :: List.replicate k 0)) : median vals = 0 := by
  rcases le_total d 0 with below | above
  · rw [median_between same below (neg_nonneg.mpr below), add_neg_cancel, zero_div, ite_self]
  · rw [median_between (same.trans (.swap _ _ _)) (neg_nonpos.mpr above) above, neg_add_cancel,
      zero_div, ite_self]

/-- The slope rises at one end of three values only. -/
theorem slope_iff {n : ℕ} (long : 3 ≤ n) (c x : ℚ) (i : ℕ) :
    0 < median (diffs ((List.replicate n c).set i x)) ↔
      n = 3 ∧ (i = 0 ∧ x < c ∨ i = 2 ∧ c < x) := by
  obtain ⟨k, rfl⟩ : ∃ k, n = k + 3 := ⟨n - 3, by omega⟩
  have edge {d : ℚ} : (0 < if k = 0 then d / 2 else 0) ↔ k = 0 ∧ 0 < d := by
    split
    · simp [*]
    · simp [*]
  have apart : k + 3 = 3 ↔ k = 0 := by omega
  rcases lt_or_ge i (k + 3) with inside | outside
  · rw [set_replicate inside]
    rcases Nat.eq_zero_or_pos i with rfl | later
    · have first : diffs (List.replicate 0 c ++ x :: List.replicate (k + 3 - 1 - 0) c) =
          (c - x) :: List.replicate (k + 1) 0 := diffs_after (k + 1) c x
      rw [first, median_one (.refl _), edge, apart, sub_pos]
      simp
    · obtain ⟨j, rfl⟩ := Nat.exists_eq_succ_of_ne_zero later.ne'
      rw [Nat.succ_eq_add_one, diffs_before]
      rcases Nat.eq_zero_or_pos (k + 3 - 1 - (j + 1)) with last | earlier
      · obtain rfl : j = k + 1 := by omega
        have same : (List.replicate (k + 1) 0 ++ (x - c) :: diffs (x :: List.replicate 0 c)).Perm
            ((x - c) :: List.replicate (k + 1) 0) := List.perm_append_singleton _ _
        rw [last, median_one same, edge, apart, sub_pos]
        constructor
        · rintro ⟨rfl, more⟩
          exact ⟨rfl, .inr ⟨rfl, more⟩⟩
        · rintro ⟨rfl, ⟨none_, -⟩ | ⟨-, more⟩⟩
          · omega
          · exact ⟨rfl, more⟩
      · obtain ⟨r, rest⟩ := Nat.exists_eq_succ_of_ne_zero earlier.ne'
        rw [rest, Nat.succ_eq_add_one, diffs_after]
        have same : (List.replicate j 0 ++ (x - c) :: (c - x) :: List.replicate r 0).Perm
            ((x - c) :: -(x - c) :: List.replicate (j + r) 0) := by
          rw [neg_sub, List.replicate_add]
          exact List.perm_middle.trans (List.perm_middle.cons _)
        rw [median_two same]
        constructor
        · exact fun less => absurd less (lt_irrefl _)
        · omega
  · rw [List.set_eq_of_length_le (by simpa using outside), diffs_replicate, median_replicate (by omega)]
    constructor
    · exact fun less => absurd less (lt_irrefl _)
    · omega

theorem lit_exact (x : ℚ) : lit x = x := rfl

/-- The floors that `stepZ` takes for a metric. -/
theorem madEps_pos (metric : String) :
    0 < ((floorsByMetric.lookup metric).getD (floorsByFamily (family metric))).madEps := by
  have byFamily : 0 < (floorsByFamily (family metric)).madEps := by
    cases family metric <;> norm_num [floorsByFamily, lit_exact]
  have byMetric : ∀ entry ∈ floorsByMetric, 0 < entry.2.madEps := by
    norm_num [floorsByMetric, lit_exact]
  cases found : floorsByMetric.lookup metric with
  | none => exact byFamily
  | some floors =>
    exact byMetric (metric, floors) (mem_keys_of_lookup found)

/-- A single departing bucket fires exactly at an end of three: lower at the first, or
higher at the last. -/
theorem stepZ_spike_iff {m n : ℕ} (pre : 6 ≤ m) (post : 3 ≤ n) (c x : ℚ) (i : ℕ) (metric : String) :
    stepZ (List.replicate m c) ((List.replicate n c).set i x) metric = 0 ↔
      ¬ (n = 3 ∧ (i = 0 ∧ x < c ∨ i = 2 ∧ c < x)) := by
  rw [← slope_iff post]
  have level : levelZ (List.replicate m c) ((List.replicate n c).set i x)
      ((floorsByMetric.lookup metric).getD (floorsByFamily (family metric))) = 0 :=
    levelZ_still (by omega) _ (median_spike post c x i).le
  have baseline : diffs (List.replicate m c) = List.replicate (m - 1) 0 := by
    rw [← diffs_replicate, Nat.sub_add_cancel (by omega)]
  have enough : 6 ≤ (List.replicate m c).length ∧ 3 ≤ ((List.replicate n c).set i x).length := by
    simpa using ⟨pre, post⟩
  simp only [stepZ, level, if_pos enough, baseline]
  constructor
  · intro still steps
    have eps := madEps_pos metric
    have slope := levelZ_positive (show 4 ≤ m - 1 by omega)
      (div_pos eps (by norm_num : (0 : ℚ) < 10)) steps
    exact absurd still (lt_of_lt_of_le slope (le_max_right _ _)).ne'
  · intro still
    rw [levelZ_still (by omega) _ (not_lt.mp still), max_self]

/-- A jump in the middle of three buckets. -/
theorem stepZ_spike_sample :
    stepZ (List.replicate 6 0) ((List.replicate 3 0).set 1 1) "cpu_utilization" = 0 ↔
      ¬ (3 = 3 ∧ (1 = 0 ∧ (1 : ℚ) < 0 ∨ 1 = 2 ∧ (0 : ℚ) < 1)) :=
  stepZ_spike_iff le_rfl le_rfl 0 1 1 "cpu_utilization"

/-- A jump in the last of them. -/
theorem stepZ_spike_fires :
    stepZ (List.replicate 6 0) ((List.replicate 3 0).set 2 1) "cpu_utilization" ≠ 0 := by
  decide +kernel

end Exact
end Sentinel.Tools
