import Sentinel.Python.RoundingOrder
import Sentinel.ToolEval.Harness

/-! Reliability over repeated runs: how many scenarios are solved at least once and how many
on every run, how often one run is right, and how often each dimension of the grade is. -/
namespace Sentinel.ToolEval
open Python Fixtures Tools Transition

/-- What is kept of a run. -/
structure RunRecord where
  verdicts : List (String × Json)
  cost : ℚ
  calls : ℕ

/-- `bool(record.get(dimension))`. -/
def RunRecord.passes (record : RunRecord) (dimension : String) : Bool :=
  (record.verdicts.lookup dimension).any Json.truthy

/-- `_DIMENSIONS`. -/
def dimensions : List String := ["location_correct", "culprit_correct", "decoys_ruled_out", "type_match"]

/-- `_run_record`. -/
def runRecord (result : TaskResult) : RunRecord where
  verdicts := ("correct" :: dimensions).map fun d => (d, (result.grade.lookup d).getD .null)
  cost := result.estCostUsd
  calls := result.callCount

structure ScenarioReliability where
  scenarioId : String
  runs : ℕ
  passes : ℕ
  dimensionPasses : List (String × ℕ)

/-- `n / total if total else 0.0`. -/
def share (n total : ℕ) : ℚ := if total = 0 then 0 else rnd (n / total)

namespace ScenarioReliability

def passedAll (s : ScenarioReliability) : Bool := 0 < s.runs && s.passes = s.runs

def passedAny (s : ScenarioReliability) : Bool := 0 < s.passes

end ScenarioReliability

structure SuiteReport where
  perScenario : List ScenarioReliability
  totalRuns : ℕ
  totalPasses : ℕ
  dimensionRates : List (String × ℚ)
  meanCost : ℚ
  meanCalls : ℚ

namespace SuiteReport

def microPassRate (report : SuiteReport) : ℚ := share report.totalPasses report.totalRuns

def passAtK (report : SuiteReport) : ℚ :=
  share (report.perScenario.countP ScenarioReliability.passedAny) report.perScenario.length

def passHatK (report : SuiteReport) : ℚ :=
  share (report.perScenario.countP ScenarioReliability.passedAll) report.perScenario.length

end SuiteReport

/-- What the loop of `aggregate` adds up. -/
structure Tally where
  perScenario : List ScenarioReliability := []
  totalRuns : ℕ := 0
  totalPasses : ℕ := 0
  dimPass : List (String × ℕ) := dimensions.map fun d => (d, 0)
  costs : List ℚ := []
  calls : List ℚ := []

def Tally.add (tally : Tally) (entry : String × List RunRecord) : Tally :=
  let runs := entry.2
  let passes := runs.countP fun r => r.passes "correct"
  let dpasses := dimensions.map fun d => (d, runs.countP fun r => r.passes d)
  { perScenario := tally.perScenario ++ [⟨entry.1, runs.length, passes, dpasses⟩]
    totalRuns := tally.totalRuns + runs.length
    totalPasses := tally.totalPasses + passes
    dimPass := tally.dimPass.map fun dim => (dim.1, dim.2 + (dpasses.lookup dim.1).getD 0)
    costs := tally.costs ++ runs.map RunRecord.cost
    calls := tally.calls ++ runs.map fun r => rnd r.calls }

section
variable [FloatSum]

/-- `sum(xs) / len(xs) if xs else 0.0`. -/
def mean (xs : List ℚ) : ℚ := if xs.isEmpty then 0 else rnd (FloatSum.sum xs / xs.length)

def aggregate (runsByScenario : Dict String (List RunRecord)) : SuiteReport :=
  let tally := runsByScenario.items.foldl Tally.add {}
  { perScenario := tally.perScenario
    totalRuns := tally.totalRuns
    totalPasses := tally.totalPasses
    dimensionRates := tally.dimPass.map fun dim => (dim.1, share dim.2 tally.totalRuns)
    meanCost := mean tally.costs
    meanCalls := mean tally.calls }

end

/-! ### Shares -/

theorem share_nonneg (n total : ℕ) : 0 ≤ share n total := by
  unfold share
  split
  · exact le_refl 0
  · exact rnd_nonneg (by positivity)

/-- Shares compare as the fractions do. -/
theorem share_le {a b c d : ℕ} (cross : a * d ≤ c * b) (empty : d = 0 → a = 0) :
    share a b ≤ share c d := by
  by_cases none : b = 0
  · rw [share, if_pos none]
    exact share_nonneg c d
  by_cases absent : d = 0
  · rw [share, share, if_neg none, if_pos absent, empty absent, Nat.cast_zero, zero_div]
    exact le_of_eq (by rw [rnd, if_pos rfl])
  rw [share, share, if_neg none, if_neg absent]
  apply rnd_monotone
  rw [div_le_div_iff₀ (by positivity) (by positivity)]
  exact_mod_cast cross

theorem share_le_one {n total : ℕ} (le : n ≤ total) : share n total ≤ 1 := by
  have whole : share 1 1 = 1 := by
    rw [share, if_neg one_ne_zero, Nat.cast_one, div_one]
    exact_mod_cast rnd_intCast (n := 1) (by norm_num)
  rw [← whole]
  apply share_le
  · simpa using le
  · intro none
    cases none

/-! ### What the loop adds up -/

/-- The runs of all entries whose record passes. -/
def passesOf (entries : List (String × List RunRecord)) (dimension : String) : ℕ :=
  (entries.map fun entry => entry.2.countP fun r => r.passes dimension).sum

theorem passesOf_le {entries : List (String × List RunRecord)} {d d' : String}
    (implied : ∀ entry ∈ entries, ∀ r ∈ entry.2, r.passes d = true → r.passes d' = true) :
    passesOf entries d ≤ passesOf entries d' := by
  induction entries with
  | nil => exact le_refl _
  | cons entry rest ih =>
    rw [List.forall_mem_cons] at implied
    apply Nat.add_le_add
    · exact List.countP_mono_left implied.1
    · exact ih implied.2

/-- The row of a scenario. -/
def reliability (entry : String × List RunRecord) : ScenarioReliability :=
  ⟨entry.1, entry.2.length, entry.2.countP fun r => r.passes "correct",
    dimensions.map fun d => (d, entry.2.countP fun r => r.passes d)⟩

theorem lookup_map_pair {α : Type} (keys : List String) (f : String → α) {key : String}
    (known : key ∈ keys) : (keys.map fun k => (k, f k)).lookup key = some (f key) := by
  induction keys with
  | nil => cases known
  | cons k rest ih =>
    rw [List.map_cons, List.lookup_cons]
    by_cases same : key = k
    · rw [same, beq_self_eq_true]
    · rw [beq_eq_false_iff_ne.mpr same]
      exact ih ((List.mem_cons.mp known).resolve_left same)

/-- The sums over the entries so far. -/
structure Tally.Sums (entries : List (String × List RunRecord)) (tally : Tally) : Prop where
  rows : tally.perScenario = entries.map reliability
  runs : tally.totalRuns = (entries.map fun entry => entry.2.length).sum
  passes : tally.totalPasses = passesOf entries "correct"
  dims : tally.dimPass = dimensions.map fun d => (d, passesOf entries d)

theorem Tally.Sums.add {entries : List (String × List RunRecord)} {tally : Tally}
    (sums : tally.Sums entries) (entry : String × List RunRecord) :
    (tally.add entry).Sums (entries ++ [entry]) where
  rows := by
    rw [Tally.add, sums.rows, List.map_append]
    rfl
  runs := by simp [Tally.add, sums.runs]
  passes := by simp [Tally.add, sums.passes, passesOf]
  dims := by
    rw [Tally.add, sums.dims, List.map_map]
    apply List.map_congr_left
    intro d known
    rw [Function.comp_apply, lookup_map_pair dimensions _ known]
    simp [passesOf]

theorem sums_foldl (entries : List (String × List RunRecord)) :
    (entries.foldl Tally.add {}).Sums entries := by
  induction entries using List.reverseRecOn with
  | nil => constructor <;> rfl
  | append_singleton entries entry ih =>
    rw [List.foldl_concat]
    exact ih.add entry

/-! ### Every scenario run equally often -/

section
variable {entries : List (String × List RunRecord)} {k : ℕ}

theorem runs_of_even (even : ∀ entry ∈ entries, entry.2.length = k) :
    (entries.map fun entry => entry.2.length).sum = entries.length * k := by
  rw [List.map_congr_left even, List.map_const', List.sum_replicate]
  rfl

theorem passedAll_le (even : ∀ entry ∈ entries, entry.2.length = k) :
    (entries.map reliability).countP ScenarioReliability.passedAll * k ≤ passesOf entries "correct" := by
  induction entries with
  | nil => simp
  | cons entry rest ih =>
    rw [List.forall_mem_cons] at even
    have later := ih even.2
    rw [List.map_cons, List.countP_cons, add_mul, passesOf, List.map_cons, List.sum_cons, add_comm]
    apply Nat.add_le_add _ later
    split
    case isTrue all =>
      rw [ScenarioReliability.passedAll, Bool.and_eq_true, decide_eq_true_iff, decide_eq_true_iff] at all
      have every : (entry.2.countP fun r => r.passes "correct") = entry.2.length := all.2
      rw [one_mul, every, even.1]
    case isFalse => simp

theorem passesOf_le_passedAny (even : ∀ entry ∈ entries, entry.2.length = k) :
    passesOf entries "correct" ≤ (entries.map reliability).countP ScenarioReliability.passedAny * k := by
  induction entries with
  | nil => simp [passesOf]
  | cons entry rest ih =>
    rw [List.forall_mem_cons] at even
    have later := ih even.2
    rw [List.map_cons, List.countP_cons, add_mul, passesOf, List.map_cons, List.sum_cons, add_comm]
    apply Nat.add_le_add later
    split
    case isTrue =>
      rw [one_mul, ← even.1]
      exact List.countP_le_length
    case isFalse none =>
      have never : (entry.2.countP fun r => r.passes "correct") = 0 := by
        simpa [ScenarioReliability.passedAny, reliability] using none
      rw [never]
      exact Nat.zero_le _

theorem passedAll_of_unrun (even : ∀ entry ∈ entries, entry.2.length = 0) :
    (entries.map reliability).countP ScenarioReliability.passedAll = 0 := by
  rw [List.countP_eq_zero]
  intro row member
  obtain ⟨entry, inside, rfl⟩ := List.mem_map.mp member
  simp [ScenarioReliability.passedAll, reliability, even entry inside]

end

/-- A table of runs, as many for each scenario, none of them right in the wrong place or for
the wrong change. -/
structure Even (entries : List (String × List RunRecord)) (k : ℕ) : Prop where
  runs : ∀ entry ∈ entries, entry.2.length = k
  located : ∀ entry ∈ entries, ∀ r ∈ entry.2, r.passes "correct" = true → r.passes "location_correct" = true
  blamed : ∀ entry ∈ entries, ∀ r ∈ entry.2, r.passes "correct" = true → r.passes "culprit_correct" = true

/-- The rates of a report are in order. -/
structure SuiteReport.Ordered (report : SuiteReport) : Prop where
  nonneg : 0 ≤ report.passHatK
  reliable : report.passHatK ≤ report.microPassRate
  capable : report.microPassRate ≤ report.passAtK
  bounded : report.passAtK ≤ 1
  located : ∃ rate, report.dimensionRates.lookup "location_correct" = some rate ∧ report.microPassRate ≤ rate
  blamed : ∃ rate, report.dimensionRates.lookup "culprit_correct" = some rate ∧ report.microPassRate ≤ rate

section
variable [FloatSum]

theorem aggregate_ordered {table : Dict String (List RunRecord)} {k : ℕ} (even : Even table.items k) :
    (aggregate table).Ordered := by
  have sums := sums_foldl table.items
  have total : (aggregate table).totalRuns = table.items.length * k :=
    sums.runs.trans (runs_of_even even.runs)
  have passed : (aggregate table).totalPasses = passesOf table.items "correct" := sums.passes
  have rows : (aggregate table).perScenario = table.items.map reliability := sums.rows
  have rates : (aggregate table).dimensionRates =
      dimensions.map fun d => (d, share (passesOf table.items d) (table.items.length * k)) := by
    rw [← total, aggregate, sums.dims, List.map_map]
    rfl
  have few : passesOf table.items "correct" ≤ table.items.length * k := by
    refine (passesOf_le_passedAny even.runs).trans (Nat.mul_le_mul_right k ?_)
    exact List.countP_le_length.trans_eq (List.length_map _)
  have dimension {d : String} (known : d ∈ dimensions)
      (implied : passesOf table.items "correct" ≤ passesOf table.items d) :
      ∃ rate, (aggregate table).dimensionRates.lookup d = some rate ∧
        (aggregate table).microPassRate ≤ rate := by
    refine ⟨_, by rw [rates, lookup_map_pair dimensions _ known], ?_⟩
    rw [SuiteReport.microPassRate, passed, total]
    apply share_le
    · exact Nat.mul_le_mul_right _ implied
    · intro none
      exact Nat.le_zero.mp (none ▸ few)
  constructor
  case nonneg => exact share_nonneg _ _
  case reliable =>
    rw [SuiteReport.passHatK, SuiteReport.microPassRate, rows, passed, total, List.length_map]
    apply share_le
    · rw [Nat.mul_comm table.items.length k, ← Nat.mul_assoc]
      exact Nat.mul_le_mul_right _ (passedAll_le even.runs)
    · intro none
      rcases Nat.mul_eq_zero.mp none with empty | unrun
      · rw [List.length_eq_zero_iff.mp empty]
        rfl
      · exact passedAll_of_unrun fun entry member => (even.runs entry member).trans unrun
  case capable =>
    rw [SuiteReport.passAtK, SuiteReport.microPassRate, rows, passed, total, List.length_map]
    apply share_le
    · rw [Nat.mul_comm table.items.length k, ← Nat.mul_assoc]
      exact Nat.mul_le_mul_right _ (passesOf_le_passedAny even.runs)
    · intro none
      rw [none, Nat.zero_mul] at few
      exact Nat.le_zero.mp few
  case bounded => exact share_le_one List.countP_le_length
  case located => exact dimension (by decide) (passesOf_le even.located)
  case blamed => exact dimension (by decide) (passesOf_le even.blamed)

end

end Sentinel.ToolEval
