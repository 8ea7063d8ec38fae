import Mathlib.Data.List.FinRange
import Mathlib.Tactic.Ring
import Sentinel.Python.Ordering
import Sentinel.Python.Rounding

/-! Rows cut down to a cap: the priority rows, and others at evenly spaced positions.
No two of the positions coincide, so that exactly as many rows are kept. -/
namespace Sentinel.Rcaeval
open Python

/-- `xs[i]`. -/
def itemAt {α : Type} (xs : List α) (i : ℤ) : Py α :=
  match if 0 ≤ i then xs[i.toNat]? else if -i ≤ xs.length then xs[xs.length - i.natAbs]? else none with
  | some a => .ok a
  | none => .error ⟨"IndexError", "list index out of range", false⟩

variable {Row : Type}

/-- `_downsample`, with the step as an exact quotient. `id` tells the row objects apart. -/
def downsample (id : Row → ℕ) (rows : List Row) (cap : ℤ) (priority : Row → Bool) :
    Py (List Row) :=
  if rows.length ≤ cap then .ok rows
  else
    let keep := rows.filter priority
    if cap ≤ keep.length then .ok (sliceTo cap keep)
    else do
      let rest := rows.filter fun r => !priority r
      let step : ℚ := rest.length / (cap - keep.length)
      let sampled ← (List.range (cap - keep.length).toNat).mapM fun i : ℕ =>
        itemAt rest (min (rest.length - 1) (truncate ((i : ℚ) * step)))
      let keptIds := keep.map id ++ sampled.map id
      .ok (rows.filter fun r => decide (id r ∈ keptIds))

theorem itemAt_of_lt {α : Type} {xs : List α} {i : ℕ} (h : i < xs.length) :
    itemAt xs i = .ok xs[i] := by
  simp [itemAt, h]

/-- A truncated multiple of the step is a quotient of naturals. -/
theorem truncate_step (i m c : ℕ) : truncate (i * ((m : ℚ) / c)) = (i * m / c : ℕ) := by
  have whole : i * ((m : ℚ) / c) = ((i * m : ℕ) : ℚ) / c := by
    push_cast
    ring
  rw [whole, truncate, if_pos (by positivity), Rat.floor_natCast_div_natCast]
  rfl

/-- With more rows than positions, no two positions coincide. -/
theorem position_lt {m c i j : ℕ} (room : c < m) (positive : 0 < c) (before : i < j) :
    i * m / c < j * m / c := by
  have next : i * m + c ≤ j * m :=
    calc i * m + c ≤ i * m + m := Nat.add_le_add_left room.le _
      _ = (i + 1) * m := by ring
      _ ≤ j * m := Nat.mul_le_mul_right m before
  calc i * m / c < i * m / c + 1 := Nat.lt_succ_self _
    _ = (i * m + c) / c := (Nat.add_div_right _ positive).symm
    _ ≤ j * m / c := Nat.div_le_div_right next

theorem position_lt_length {m c i : ℕ} (room : c < m) (inside : i < c) : i * m / c < m := by
  refine (Nat.div_lt_iff_lt_mul (Nat.zero_lt_of_lt inside)).mpr ?_
  rw [Nat.mul_comm m c]
  exact Nat.mul_lt_mul_of_pos_right inside (Nat.zero_lt_of_lt room)

/-- The rows at the positions, one for each. -/
theorem sampled_spec {rest : List Row} {c : ℕ} (room : c < rest.length) (distinct : rest.Nodup) :
    ∃ sampled, ((List.range c).mapM fun i : ℕ =>
        itemAt rest (min (rest.length - 1) (truncate ((i : ℚ) * ((rest.length : ℚ) / c))))) = .ok sampled ∧
      sampled.length = c ∧ sampled.Nodup ∧ ∀ r ∈ sampled, r ∈ rest := by
  have inside (i : Fin c) : i * rest.length / c < rest.length := position_lt_length room i.isLt
  refine ⟨List.ofFn fun i : Fin c => rest.get ⟨_, inside i⟩, ?_, List.length_ofFn, ?_, ?_⟩
  · rw [mapM_ok_iff, List.forall₂_iff_get]
    refine ⟨by simp, fun i below _ => ?_⟩
    have bound : i < c := by simpa using below
    have uncut : min ((rest.length : ℤ) - 1) (i * rest.length / c : ℕ) =
        (i * rest.length / c : ℕ) := by
      have := position_lt_length room bound
      omega
    simp only [List.get_eq_getElem, List.getElem_range, List.getElem_ofFn, truncate_step, uncut]
    exact itemAt_of_lt _
  · rw [List.nodup_ofFn]
    intro i j same
    have positive : 0 < c := Nat.zero_lt_of_lt i.isLt
    have position := (List.Nodup.getElem_inj_iff distinct).mp same
    rcases lt_trichotomy i j with less | same | more
    · exact absurd position (position_lt room positive less).ne
    · exact same
    · exact absurd position (position_lt room positive more).ne'
  · intro r member
    obtain ⟨i, rfl⟩ := List.mem_ofFn.mp member
    exact List.getElem_mem _

/-- The rows with the ids of some of them are these, in the order of the input. -/
theorem filter_ids {id : Row → ℕ} {rows chosen : List Row} (distinct : (rows.map id).Nodup)
    (some_ : ∀ r ∈ chosen, r ∈ rows) (once : chosen.Nodup) :
    (rows.filter fun r => decide (id r ∈ chosen.map id)).Perm chosen := by
  refine (List.perm_ext_iff_of_nodup (distinct.of_map.filter _) once).mpr fun r => ?_
  simp only [List.mem_filter, List.mem_map, decide_eq_true_eq]
  constructor
  · rintro ⟨member, r', inChosen, same⟩
    rwa [← List.inj_on_of_nodup_map distinct (some_ r' inChosen) member same]
  · intro inChosen
    exact ⟨some_ r inChosen, r, inChosen, rfl⟩

/-- Below the cap the priority rows are filled up with as many others. -/
theorem downsample_filled {id : Row → ℕ} {rows : List Row} {cap : ℤ} {priority : Row → Bool}
    (distinct : (rows.map id).Nodup) (more : cap < rows.length)
    (few : (rows.filter priority).length < cap) :
    ∃ kept others, downsample id rows cap priority = .ok kept ∧ kept.Sublist rows ∧
      kept.Perm (rows.filter priority ++ others) ∧
      ((rows.filter priority).length + others.length : ℤ) = cap := by
  rw [downsample, if_neg (not_le.mpr more)]
  set keep := rows.filter priority with keepIs
  set rest := rows.filter fun r => !priority r with restIs
  have total : rows.length = keep.length + rest.length := List.length_eq_length_filter_add _
  obtain ⟨c, rfl⟩ : ∃ c : ℕ, cap = keep.length + c := ⟨(cap - keep.length).toNat, by omega⟩
  have count : ((keep.length + c : ℤ) - keep.length).toNat = c := by omega
  have step : (((keep.length + c : ℤ) : ℚ) - keep.length) = c := by
    push_cast
    ring
  have once := distinct.of_map
  obtain ⟨sampled, ran, length, nodup, inRest⟩ :=
    sampled_spec (show c < rest.length by omega) (once.filter _)
  have chosen : ∀ r ∈ keep ++ sampled, r ∈ rows := by
    intro r member
    rcases List.mem_append.mp member with kept | other
    · exact List.mem_of_mem_filter kept
    · exact List.mem_of_mem_filter (inRest r other)
  have apart : (keep ++ sampled).Nodup := by
    refine List.nodup_append'.mpr ⟨once.filter _, nodup, fun r kept other => ?_⟩
    have first := (List.mem_filter.mp kept).2
    have second := (List.mem_filter.mp (inRest r other)).2
    simp [first] at second
  have result := filter_ids distinct chosen apart
  rw [List.map_append] at result
  refine ⟨_, sampled, ?_, List.filter_sublist, result, by rw [length]⟩
  rw [if_neg (not_le.mpr few)]
  simp only [count, step, ran]
  rfl

/-- Exactly `cap` rows are kept, in order: all priority rows, or the first `cap` of them. -/
theorem downsample_exact {id : Row → ℕ} {rows : List Row} {cap : ℤ} (priority : Row → Bool)
    (distinct : (rows.map id).Nodup) (nonneg : 0 ≤ cap) (more : cap < rows.length) :
    ∃ kept, downsample id rows cap priority = .ok kept ∧ kept.length = cap ∧ kept.Sublist rows ∧
      ((rows.filter priority).length < cap → ∀ r ∈ rows, priority r → r ∈ kept) ∧
      (cap ≤ (rows.filter priority).length → kept = (rows.filter priority).take cap.toNat) := by
  rcases lt_or_ge ((rows.filter priority).length : ℤ) cap with few | enough
  · obtain ⟨kept, others, ran, ordered, same, count⟩ := downsample_filled distinct more few
    refine ⟨kept, ran, ?_, ordered, fun _ r member urgent => ?_,
      fun many => absurd few (not_lt.mpr many)⟩
    · rw [same.length_eq, List.length_append, ← count]
      push_cast
      rfl
    · exact same.mem_iff.mpr (List.mem_append_left _ (List.mem_filter.mpr ⟨member, urgent⟩))
  · have taken : sliceTo cap (rows.filter priority) = (rows.filter priority).take cap.toNat := by
      rw [sliceTo, if_pos nonneg]
    refine ⟨_, ?_, ?_, ?_, fun few => absurd few (not_lt.mpr enough), fun _ => taken⟩
    · rw [downsample, if_neg (not_le.mpr more)]
      exact if_pos enough
    · rw [taken, List.length_take]
      omega
    · rw [taken]
      exact (List.take_sublist _ _).trans List.filter_sublist

/-- Four of six rows, with one of priority. -/
theorem downsample_exact_sample :
    ∃ kept, downsample id [1, 2, 3, 4, 5, 6] 4 (fun n => n == 6) = .ok kept ∧
      kept.length = (4 : ℤ) ∧ kept.Sublist [1, 2, 3, 4, 5, 6] ∧
      (([1, 2, 3, 4, 5, 6].filter (fun n => n == 6)).length < (4 : ℤ) →
        ∀ r ∈ [1, 2, 3, 4, 5, 6], (r == 6) → r ∈ kept) ∧
      ((4 : ℤ) ≤ ([1, 2, 3, 4, 5, 6].filter (fun n => n == 6)).length →
        kept = ([1, 2, 3, 4, 5, 6].filter (fun n => n == 6)).take (4 : ℤ).toNat) :=
  downsample_exact (fun n => n == 6) (by decide) (by decide) (by decide)

end Sentinel.Rcaeval
