import Sentinel.Python.Json

/-! Rows of the telemetry fixtures. A row exists only with the fields its model
requires: texts that are not empty, numbers that are not negative. -/
namespace Sentinel.Fixtures
open Python

structure TraceRow where
  traceId : String
  spanId : String
  parentSpanId : Option String := none
  time : ℤ
  service : String
  operation : String
  durationMs : ℚ
  status : String
  attributes : List (String × Json) := []
  named : traceId ≠ "" ∧ spanId ≠ "" ∧ service ≠ "" ∧ operation ≠ "" ∧ status ≠ "" := by decide
  nonneg : 0 ≤ time ∧ 0 ≤ durationMs := by decide

structure MetricRow where
  time : ℤ
  service : String
  metric : String
  value : ℚ
  unit : String
  attributes : List (String × Json) := []
  named : service ≠ "" ∧ metric ≠ "" ∧ unit ≠ "" := by decide
  nonneg : 0 ≤ time := by decide

structure LogRow where
  time : ℤ
  service : String
  severity : String
  message : String
  traceId : Option String := none
  attributes : List (String × Json) := []
  named : service ≠ "" ∧ severity ≠ "" ∧ message ≠ "" := by decide
  nonneg : 0 ≤ time := by decide

structure ChangeEvent where
  id : String
  time : ℤ
  service : String
  kind : String
  summary : String
  diffTouches : List String := []
  named : id ≠ "" ∧ service ≠ "" ∧ kind ≠ "" ∧ summary ≠ "" := by decide
  nonneg : 0 ≤ time := by decide

end Sentinel.Fixtures
