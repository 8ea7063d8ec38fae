import Sentinel.Oss.RootCause
import Sentinel.Python.RoundingOrder
import Sentinel.Sequences.OrderStatistics

/-! The evidence behind a root cause, in the arithmetic of floats: an effect that steps means
that at least half of the values, or of their differences, have left the baseline. -/
namespace Sentinel.Oss
open Python Tools Sequences FloatArith

/-- Every value is a float. -/
def Floats (vals : List ℚ) : Prop := ∀ v ∈ vals, rnd v = v

/-- At least half of the values after the onset exceed a level that at least half of the baseline
keeps to. -/
def Departs (pre post : List ℚ) : Prop := 4 ≤ pre.length ∧ post ≠ [] ∧ Separated pre post

/-! ### Medians -/

section Means
variable {a b c : ℚ}

/-- Half of the sum of two numbers that are at most a float is at most the float. -/
theorem rnd_mean_le (float : rnd c = c) (first : a ≤ c) (second : b ≤ c) :
    rnd (rnd (a + b) / 2) ≤ c := by
  have doubled : rnd (a + b) ≤ 2 * c := by
    calc rnd (a + b) ≤ rnd (2 * c) := rnd_monotone (by linarith)
      _ = 2 * c := by rw [rnd_two_mul, float]
  calc rnd (rnd (a + b) / 2) ≤ rnd c := rnd_monotone (by linarith)
    _ = c := float

theorem le_rnd_mean (float : rnd c = c) (first : c ≤ a) (second : c ≤ b) :
    c ≤ rnd (rnd (a + b) / 2) := by
  have doubled : 2 * c ≤ rnd (a + b) := by
    calc 2 * c = rnd (2 * c) := by rw [rnd_two_mul, float]
      _ ≤ rnd (a + b) := rnd_monotone (by linarith)
  calc c = rnd c := float.symm
    _ ≤ rnd (rnd (a + b) / 2) := rnd_monotone (by linarith)

end Means

section Ranks
variable {vals : List ℚ} {k : ℕ} {v : ℚ}

theorem ranked_eq_getD (found : ranked vals k = some v) :
    (vals.insertionSort (· ≤ ·)).getD k 0 = v := by
  rw [List.getD_eq_getElem?_getD]
  exact congrArg (·.getD 0) found

theorem mem_of_ranked (found : ranked vals k = some v) : v ∈ vals := by
  have member := List.mem_of_getElem? found
  rwa [List.mem_insertionSort] at member

end Ranks

section Detector
variable [FloatArith] {pre post vals : List ℚ} {c : ℚ} (nearest : ∀ x, FloatArith.round x = rnd x)
include nearest

/-- The median of an odd number of values is one of them, of an even number the rounded mean of
the two in the middle. -/
theorem median_cases (some_ : vals ≠ []) :
    (∃ v, ranked vals ((vals.length - 1) / 2) = some v ∧ ranked vals (vals.length / 2) = some v ∧
      median vals = v) ∨
    ∃ a b, ranked vals ((vals.length - 1) / 2) = some a ∧ ranked vals (vals.length / 2) = some b ∧
      a ≤ b ∧ median vals = rnd (rnd (a + b) / 2) := by
  have long : 0 < vals.length := List.length_pos_of_ne_nil some_
  obtain ⟨a, lower⟩ := ranked_isSome (l := vals) (k := (vals.length - 1) / 2) (by omega)
  obtain ⟨b, upper⟩ := ranked_isSome (l := vals) (k := vals.length / 2) (by omega)
  unfold median
  simp only [List.length_insertionSort]
  rw [if_neg long.ne']
  split
  · rename_i odd
    rw [show (vals.length - 1) / 2 = vals.length / 2 by omega] at lower ⊢
    exact .inl ⟨b, upper, upper, ranked_eq_getD upper⟩
  · rename_i even
    refine .inr ⟨a, b, lower, upper, ranked_le lower upper (by omega), ?_⟩
    rw [show vals.length / 2 - 1 = (vals.length - 1) / 2 by omega, ranked_eq_getD lower,
      ranked_eq_getD upper, div, add, nearest, nearest]

theorem median_float (floats : Floats vals) (some_ : vals ≠ []) : rnd (median vals) = median vals := by
  rcases median_cases nearest some_ with ⟨v, lower, -, is_⟩ | ⟨a, b, -, -, -, is_⟩
  · rw [is_]
    exact floats v (mem_of_ranked lower)
  · rw [is_, rnd_rnd]

/-- At least half of the values are at most the median. -/
theorem half_le_median (floats : Floats vals) (some_ : vals ≠ []) :
    vals.length ≤ 2 * vals.countP (· ≤ median vals) := by
  have long : 0 < vals.length := List.length_pos_of_ne_nil some_
  suffices below : (vals.length - 1) / 2 < vals.countP (· ≤ median vals) by omega
  rcases median_cases nearest some_ with ⟨v, lower, -, is_⟩ | ⟨a, b, lower, -, le, is_⟩
  · exact lt_countP_le lower is_.ge
  · rw [is_]
    exact lt_countP_le lower (le_rnd_mean (floats a (mem_of_ranked lower)) le_rfl le)

/-- At least half of the values are above any float below the median. -/
theorem half_above_median (float : rnd c = c) (some_ : vals ≠ []) (above : c < median vals) :
    vals.length ≤ 2 * vals.countP (c < ·) := by
  suffices many : vals.length - vals.length / 2 ≤ vals.countP (c < ·) by omega
  rcases median_cases nearest some_ with ⟨v, -, upper, is_⟩ | ⟨a, b, -, upper, le, is_⟩
  · exact le_countP_lt upper (is_ ▸ above)
  · rw [is_] at above
    refine le_countP_lt upper (lt_of_not_ge fun low => ?_)
    exact absurd above (not_lt.mpr (rnd_mean_le float (le.trans low) low))

/-- A level that rises is a departure from the baseline. -/
theorem levelZ_departs {floors : Floors} (floats : Floats pre) (rises : 0 < levelZ pre post floors) :
    Departs pre post := by
  unfold levelZ at rises
  split at rises
  · exact absurd rises (lt_irrefl _)
  rename_i enough
  have sizes : 4 ≤ pre.length ∧ post ≠ [] := by simpa using enough
  have baseline : pre ≠ [] := List.ne_nil_of_length_pos (by omega)
  have above : median pre < median post := by
    by_contra low
    have delta : FloatArith.sub (median post) (median pre) ≤ 0 := by
      rw [FloatArith.sub, nearest]
      exact rnd_nonpos (by linarith)
    simp only [if_pos delta] at rises
    exact absurd rises (lt_irrefl _)
  have float := median_float nearest floats baseline
  exact ⟨sizes.1, sizes.2, median pre, half_le_median nearest floats baseline,
    half_above_median nearest float sizes.2 above⟩

theorem diffs_floats (vals : List ℚ) : Floats (diffs vals) := by
  intro v member
  obtain ⟨i, found⟩ := List.mem_iff_getElem?.mp member
  obtain ⟨a, b, -, -, rfl⟩ := List.getElem?_zipWith_eq_some.mp found
  rw [FloatArith.sub, nearest, rnd_rnd]

/-- Where an effect steps, the values or their differences depart. -/
theorem stepZ_departs {metric : String} (floats : Floats pre) (high : zMin ≤ stepZ pre post metric) :
    Departs pre post ∨ Departs (diffs pre) (diffs post) := by
  have positive : 0 < stepZ pre post metric := lt_of_lt_of_le (by decide) high
  unfold stepZ at positive
  dsimp only at positive
  split at positive
  · rcases lt_max_iff.mp positive with level | slope
    · exact .inl (levelZ_departs nearest floats level)
    · exact .inr (levelZ_departs nearest (diffs_floats nearest pre) slope)
  · exact .inl (levelZ_departs nearest floats positive)

end Detector

/-! ### The overlay -/

section Overlay
variable [FloatArith] (store : TelemetryStore) (onset : ℤ)

/-- The values of a series before the onset, and from it on. -/
def valuesBefore (service metric : String) : List ℚ :=
  ((store.metricSeries service metric).filter fun r => r.time < onset).map MetricRow.value

def valuesAfter (service metric : String) : List ℚ :=
  ((store.metricSeries service metric).filter fun r => r.time ≥ onset).map MetricRow.value

/-- A series of the service, of a metric of the family, that departs at the onset. -/
def Evidence (service : String) (fam : Family) : Prop :=
  ∃ metric unit, (service, metric, unit) ∈ store.listMetricKeys ∧ family metric = fam ∧
    (Departs (valuesBefore store onset service metric) (valuesAfter store onset service metric) ∨
      Departs (diffs (valuesBefore store onset service metric))
        (diffs (valuesAfter store onset service metric)))

/-- A positive effect is that of one of the family's series. -/
theorem onsetEffects_source {service : String} {fam : Family} {z : ℚ}
    (value : (onsetEffects store service onset).get? fam = some z) (positive : 0 < z) :
    ∃ metric unit, (service, metric, unit) ∈ store.listMetricKeys ∧ family metric = fam ∧
      z = seriesZ store service metric onset := by
  unfold onsetEffects at value
  refine List.foldlRecOn (motive := fun out : Dict Family ℚ => ∀ fam z, out.get? fam = some z →
    0 < z → ∃ metric unit, (service, metric, unit) ∈ store.listMetricKeys ∧ family metric = fam ∧
      z = seriesZ store service metric onset) _ _ ?_ ?_ fam z value positive
  · intro fam z value positive
    cases fam <;> simp_all
  · rintro out known ⟨s, metric, unit⟩ kept fam z value positive
    obtain ⟨listed, same⟩ := List.mem_filter.mp kept
    rw [decide_eq_true_eq] at same
    change s = service at same
    subst same
    rw [Dict.get?_set] at value
    split at value
    · rename_i isFamily
      cases value
      rcases max_choice ((out.get? (family metric)).getD 0) (seriesZ store s metric onset) with old | new
      · rw [old] at positive ⊢
        cases before : out.get? (family metric) with
        | none =>
          rw [before] at positive
          exact absurd positive (lt_irrefl _)
        | some w =>
          rw [before] at positive
          obtain ⟨m, u, inside, within, is_⟩ := known _ w before positive
          exact ⟨m, u, inside, within.trans isFamily.symm, is_⟩
      · exact ⟨metric, unit, listed, isFamily.symm, new⟩
    · exact known fam z value positive

/-- An effect that steps is evidence. -/
theorem evidence_of_effect (nearest : ∀ x, FloatArith.round x = rnd x)
    (floats : ∀ service metric, ∀ row ∈ store.metricSeries service metric, rnd row.value = row.value)
    {service : String} {fam : Family} {z : ℚ}
    (value : (onsetEffects store service onset).get? fam = some z) (high : zMin ≤ z) :
    Evidence store onset service fam := by
  obtain ⟨metric, unit, listed, within, rfl⟩ :=
    onsetEffects_source store onset value (lt_of_lt_of_le (by decide) high)
  refine ⟨metric, unit, listed, within, stepZ_departs nearest ?_ high⟩
  intro v member
  obtain ⟨row, inside, rfl⟩ := List.mem_map.mp member
  exact floats service metric row (List.mem_of_mem_filter inside)

variable [SetOrder]

theorem effect_of_resolved {artifact spans : Option (List (String × String))} {preferTrace : Bool}
    {s : String} {fam : Family} {z : ℚ}
    (effect : Effect (resolveTopology store artifact spans onset preferTrace).effects s fam z) :
    (onsetEffects store s onset).get? fam = some z := by
  obtain ⟨eff, entry, value⟩ := effect
  unfold resolveTopology at entry
  dsimp only at entry
  split at entry
  · cases entry
  · simp only [Graph.overlay, Dict.get?_ofKeys] at entry
    split at entry
    · cases entry
      exact value
    · cases entry

omit [FloatArith] [SetOrder] in
theorem effect_of_dominant {graph : Graph} {s : String} {dom : Family}
    (dominant : dominantFamily (graph.effectsOf s) = some dom) :
    ∃ z, Effect graph.effects s dom z ∧ zMin ≤ z := by
  unfold dominantFamily at dominant
  split at dominant
  · cases dominant
  · rename_i fam z best
    split at dominant
    · rename_i high
      cases dominant
      exact ⟨z, effect_of_mem_items (List.argmax_mem best), high⟩
    · cases dominant

/-- Each anomalous service has a series that left its baseline at the onset; and whatever the
planner, the workers and the synthesis say, the root cause of a completed run is an anomalous
service with such a series in the family of the fault that is named, when there is one. -/
theorem root_cause_evidenced (nearest : ∀ x, FloatArith.round x = rnd x)
    (floats : ∀ service metric, ∀ row ∈ store.metricSeries service metric, rnd row.value = row.value)
    (artifact spans : Option (List (String × String))) (preferTrace : Bool) :
    let graph := resolveTopology store artifact spans onset preferTrace
    (∀ s ∈ graph.anomalous, ∃ fam, Evidence store onset s fam) ∧
      ∀ plan worker synthesize result, runRca graph plan worker synthesize = .ok result →
        graph.anomalous ≠ [] → ∃ root fam, result.rootCauseService = some root ∧
          root ∈ graph.anomalous ∧ result.faultType = some (sigFault fam) ∧
          Evidence store onset root fam := by
  intro graph
  have overlaid : Overlaid graph := resolve_overlaid store onset artifact spans preferTrace
  have stepped {s : String} (anomalous : s ∈ graph.anomalous) :
      ∃ fam z, Effect graph.effects s fam z ∧ zMin ≤ z :=
    effect_of_zTot ((overlaid.anomalous s).mp anomalous).2
  have backed {s : String} {fam : Family} {z : ℚ} (effect : Effect graph.effects s fam z)
      (high : zMin ≤ z) : Evidence store onset s fam :=
    evidence_of_effect store onset nearest floats (effect_of_resolved store onset effect) high
  constructor
  · intro s anomalous
    obtain ⟨fam, z, effect, high⟩ := stepped anomalous
    exact ⟨fam, backed effect high⟩
  · intro plan worker synthesize result completed some_
    obtain ⟨s, anomalous⟩ := List.exists_mem_of_ne_nil _ some_
    obtain ⟨fam, z, effect, high⟩ := stepped anomalous
    obtain ⟨root, dom, head, inside, -, dominant⟩ := overlaid.head effect high
    obtain ⟨rooted, typed⟩ := runRca_head head inside dominant completed
    obtain ⟨z, effect, high⟩ := effect_of_dominant dominant
    exact ⟨root, dom, rooted, inside, typed, backed effect high⟩

end Overlay

section Sample

/-- Rounding to the nearest float, and sums from left to right. -/
@[reducible] def nearestFloats : FloatArith where
  round := rnd
  sum xs := xs.foldl (fun sum x => rnd (sum + x)) 0

attribute [local instance] insertionOrder nearestFloats

/-- The cpu of `orders` is the evidence, whatever the refuting workers say. -/
theorem orders_evidenced : ∃ result root fam,
    runRca (resolveTopology steppedStore (some [("web", "orders")]) none 4 false)
      [{ candidateService := "web", signature := .error }] refutingWorker
      (plainSynthesis (some "errors")) = .ok result ∧
    result.rootCauseService = some root ∧ result.faultType = some (sigFault fam) ∧
    Evidence steppedStore 4 root fam := by
  have returns : Returns (runRca (resolveTopology steppedStore (some [("web", "orders")]) none 4 false)
      [{ candidateService := "web", signature := .error }] refutingWorker
      (plainSynthesis (some "errors"))) := by decide +kernel
  have some_ : (resolveTopology steppedStore (some [("web", "orders")]) none 4 false).anomalous ≠ [] := by
    decide +kernel
  have floats (service metric : String) (row : MetricRow)
      (member : row ∈ steppedStore.metricSeries service metric) : rnd row.value = row.value := by
    unfold steppedStore at member
    dsimp only at member
    split at member
    · obtain ⟨time, -, rfl⟩ := List.mem_map.mp member
      dsimp only
      split
      · rfl
      · exact rnd_intCast (n := 1) (by decide)
    · cases member
  obtain ⟨result, completed⟩ := returns
  obtain ⟨root, fam, rooted, -, typed, evidence⟩ :=
    (root_cause_evidenced steppedStore 4 (fun _ => rfl) floats (some [("web", "orders")]) none
      false).2 _ _ _ result completed some_
  exact ⟨result, root, fam, completed, rooted, typed, evidence⟩

end Sample
end Sentinel.Oss
