import Mathlib.Data.List.Infix
import Mathlib.Data.Prod.Lex
import Sentinel.Fixtures.Schemas
import Sentinel.Python.Grouping
import Sentinel.Python.Ordering

/-! The store over one recorded scenario: the span index, which keeps one row of each
span id, and what it answers about traces, logs, metrics and changes. -/
namespace Sentinel.Tools
open Python Fixtures

/-- The parts of a public fixture that the queries read. -/
structure PublicFixture where
  logs : List LogRow := []
  traces : List TraceRow := []
  metrics : List MetricRow := []
  changes : List ChangeEvent := []

/-- `row.parent_span_id`, unless it is `None` or empty. -/
def parentOf (row : TraceRow) : Option String := row.parentSpanId.filter fun id => id ≠ ""

def traceOrder (row : TraceRow) : ℤ ×ₗ String := toLex (row.time, row.spanId)

/-- `text.lower()`, by the tables of Unicode. -/
class LowerCase where
  lower : String → String

def severityRank : List (String × ℕ) :=
  [("trace", 0), ("debug", 1), ("info", 2), ("information", 2), ("notice", 2), ("warn", 3),
    ("warning", 3), ("error", 4), ("err", 4), ("critical", 5), ("fatal", 5)]

/-- The arguments of `search_logs`. -/
structure LogFilter where
  service : Option String := none
  severityMin : Option String := none
  contains : Option String := none
  start : Option ℤ := none
  stop : Option ℤ := none
  limit : Option ℤ := none

/-- The argument, unless it is `None` or empty. -/
def given (text : Option String) : Option String := text.filter fun text => text ≠ ""

def logOrder (row : LogRow) : ℤ ×ₗ String := toLex (row.time, row.service)

namespace LogFilter

def inRange (f : LogFilter) (time : ℤ) : Bool :=
  f.start.all (fun start => decide (start ≤ time)) && f.stop.all (fun stop => decide (time ≤ stop))

/-- `out[:limit] if limit is not None else out`. -/
def cut (f : LogFilter) (rows : List LogRow) : List LogRow :=
  match f.limit with
  | some limit => sliceTo limit rows
  | none => rows

section
variable [LowerCase]

def minRank (f : LogFilter) : ℕ :=
  match given f.severityMin with
  | some severity => (severityRank.lookup (LowerCase.lower severity)).getD 0
  | none => 0

/-- Whether the store of a fixture returns the row. -/
def wants (f : LogFilter) (row : LogRow) : Bool :=
  f.service.all (fun service => decide (row.service = service)) &&
  decide (f.minRank ≤ (severityRank.lookup (LowerCase.lower row.severity)).getD 0) &&
  f.inRange row.time &&
  (given f.contains).all fun text =>
    decide ((LowerCase.lower text).toList <:+: (LowerCase.lower row.message).toList)

end

end LogFilter

/-- The arguments of `list_changes`. -/
structure ChangeFilter where
  service : Option String := none
  start : Option ℤ := none
  stop : Option ℤ := none

def ChangeFilter.wants (f : ChangeFilter) (c : ChangeEvent) : Bool :=
  f.service.all (fun service => decide (c.service = service)) &&
  f.start.all (fun start => decide (start ≤ c.time)) && f.stop.all fun stop => decide (c.time ≤ stop)

structure FixtureStore where
  fixture : PublicFixture
  spans : List TraceRow
  children : Dict String (List TraceRow)

namespace FixtureStore

def init (fixture : PublicFixture) : FixtureStore :=
  let spans := keepFirst TraceRow.spanId [] fixture.traces
  { fixture, spans, children := collect parentOf .empty spans }

def allSpans (s : FixtureStore) : List TraceRow := s.spans

def childrenOf (s : FixtureStore) (spanId : String) : List TraceRow :=
  (s.children.get? spanId).getD []

def getTrace (s : FixtureStore) (traceId : String) : List TraceRow :=
  sortedBy traceOrder (s.spans.filter fun r => r.traceId = traceId)

def searchLogs [LowerCase] (s : FixtureStore) (f : LogFilter) : List LogRow :=
  f.cut (sortedBy logOrder (s.fixture.logs.filter f.wants))

/-- The index keeps the rows of a key in the order of the fixture. -/
def metricSeries (s : FixtureStore) (service metric : String) : List MetricRow :=
  sortedBy MetricRow.time
    (s.fixture.metrics.filter fun r => decide (r.service = service) && decide (r.metric = metric))

/-- The series with the unit of their first row. -/
def listMetricKeys (s : FixtureStore) : List (String × String × String) :=
  sortedBy (fun key : String × String × String => toLex (key.1, toLex key.2))
    ((keepFirst (fun r => (r.service, r.metric)) [] s.fixture.metrics).map fun r =>
      (r.service, r.metric, r.unit))

def listChanges (s : FixtureStore) (f : ChangeFilter) : List ChangeEvent :=
  sortedBy ChangeEvent.time (s.fixture.changes.filter f.wants)

end FixtureStore

end Sentinel.Tools
