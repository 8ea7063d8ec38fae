import Sentinel.Python.Rounding
import Sentinel.Tools.Spans

/-! Shifts of the metric series of a store after an onset. -/
namespace Sentinel.Tools
open Python Fixtures

/-- The queries of a telemetry store that the hypothesis tools make. -/
structure TelemetryStore where
  listMetricKeys : List (String × String × String)
  metricSeries : String → String → List MetricRow
  findSpans : SpanFilter → List TraceRow
  listChanges : ChangeFilter → List ChangeEvent
  series_service : ∀ service metric, ∀ row ∈ metricSeries service metric, row.service = service
  spans_service : ∀ filter service, filter.service = some service →
    ∀ row ∈ findSpans filter, row.service = service

section
variable [LowerCase] [UpperCase]

theorem mem_findSpans {s : FixtureStore} {f : SpanFilter} {row : TraceRow}
    (member : row ∈ s.findSpans f) : row ∈ s.spans ∧ f.wants s.calleeOf row = true := by
  unfold FixtureStore.findSpans filterSpans at member
  have listed : row ∈ sortedBy spanOrder (s.spans.filter (f.wants s.calleeOf)) := by
    dsimp only at member
    split at member
    · exact List.mem_of_mem_take member
    · exact member
  exact List.mem_filter.mp (mem_sortedBy.mp listed)

/-- The store of a recorded scenario. -/
def FixtureStore.telemetry (s : FixtureStore) : TelemetryStore where
  listMetricKeys := s.listMetricKeys
  metricSeries := s.metricSeries
  findSpans := s.findSpans
  listChanges := s.listChanges
  series_service service metric row member := by
    have wanted := (List.mem_filter.mp (mem_sortedBy.mp member)).2
    exact of_decide_eq_true (Bool.and_eq_true_iff.mp wanted).1
  spans_service f service asked row member := by
    have wanted := (mem_findSpans member).2
    simp only [SpanFilter.wants, asked, Option.all_some, Bool.and_eq_true, decide_eq_true_eq] at wanted
    exact wanted.1.1.1.1.1.1

end

/-- `statistics.fmean`: the exact sum is rounded once, and the quotient again. -/
def fmean (values : List ℚ) : ℚ := rnd (rnd values.sum / values.length)

/-- `fmean(values) if values else 0.0`. -/
def meanOf (values : List ℚ) : ℚ := if values.isEmpty then 0 else fmean values

def preValues (rows : List MetricRow) (onset : ℤ) : List ℚ :=
  (rows.filter fun r => r.time < onset).map MetricRow.value

def postValues (rows : List MetricRow) (onset : ℤ) : List ℚ :=
  (rows.filter fun r => r.time ≥ onset).map MetricRow.value

def redMetrics : List String := ["request_error_rate", "latency_p95_ms"]

def knownShiftThresholds : List (String × ℚ) :=
  [("request_error_rate", rnd 0.02), ("latency_p95_ms", 100), ("cpu_cores", 1)]

/-- The metrics beyond the two of every service, each with the unit it has first. -/
def resourceMetrics (store : TelemetryStore) : List (String × String) :=
  let resources := store.listMetricKeys.filter fun key => key.2.1 ∉ redMetrics
  sortedBy (fun key => toLex key) (keepFirst Prod.fst [] (resources.map Prod.snd))

def significantShift (metric : String) (pre post : ℚ) : Bool :=
  match knownShiftThresholds.lookup metric with
  | some threshold => threshold < rnd (post - pre)
  | none => rnd (pre * 1.5) < post && rnd 1e-9 < rnd (post - pre)

end Sentinel.Tools
