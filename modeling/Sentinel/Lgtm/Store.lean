import Sentinel.Newrelic.Mapping
import Sentinel.Tools.Store

/-! The live store over a local stack: the log search, which leaves some of the
filters to Loki and applies the others to its answer. -/
namespace Sentinel.Lgtm
open Python Fixtures Tools Newrelic

/-- The entries of one set of labels; the timestamps are the integers that their
texts spell. -/
structure LokiStream where
  labels : Dict String String
  values : List (ℤ × String)

/-- The answer of Loki to a query over a range of time, up to a number of entries. -/
structure Loki where
  queryRange : String → ℤ → ℤ → ℤ → Py (List LokiStream)

structure LgtmStore where
  loki : Loki
  startMs : ℤ
  endMs : ℤ

def streamSelector : Option String → String
  | some service => "\x7bservice_name=\"" ++ service ++ "\"\x7d"
  | none => "\x7bservice_name=~\".+\"\x7d"

def lineFilter : Option String → String
  | some text => " |= \"" ++ text ++ "\""
  | none => ""

/-- The LogQL text of a search. -/
def logQuery (service contains : Option String) : String :=
  streamSelector service ++ lineFilter contains

/-- The first of the labels that is set and not empty. -/
def firstLabel (labels : Dict String String) (keys : List String) (default : String) : String :=
  (keys.findSome? fun key => given (labels.get? key)).getD default

/-- The model's checks on the fields. -/
def logRow (time : ℤ) (service severity message : String) (traceId : Option String) :
    Py LogRow :=
  if named : service ≠ "" ∧ severity ≠ "" ∧ message ≠ "" then
    if nonneg : 0 ≤ time then .ok { time, service, severity, message, traceId, named, nonneg }
    else .error ⟨"ValidationError", "", false⟩
  else .error ⟨"ValidationError", "", false⟩

/-- `limit or 1000`. -/
def backendLimit (f : LogFilter) : ℤ := (f.limit.filter fun limit => limit ≠ 0).getD 1000

section
variable [LowerCase]

/-- The check that the store makes itself; an unknown severity ranks as info. -/
def admits (f : LogFilter) (severity : String) : Bool :=
  decide (f.minRank ≤ (severityRank.lookup (LowerCase.lower severity)).getD 2)

/-- The rows of one stream. -/
def streamRows (s : LgtmStore) (f : LogFilter) (stream : LokiStream) : Py (List LogRow) :=
  let svc := (stream.labels.get? "service_name").getD "unknown"
  let sev := firstLabel stream.labels ["severity_text", "detected_level", "level"] "info"
  if admits f sev then
    (stream.values.filter fun entry => f.inRange (relSeconds (entry.1 / 10 ^ 6) s.startMs)).mapM
      fun entry => logRow (relSeconds (entry.1 / 10 ^ 6) s.startMs) svc sev entry.2 none
  else .ok []

def LgtmStore.searchLogs (s : LgtmStore) (f : LogFilter) : Py (List LogRow) := do
  let streams ← s.loki.queryRange (logQuery (given f.service) (given f.contains))
    (s.startMs * 10 ^ 6) (s.endMs * 10 ^ 6) (backendLimit f)
  let out ← streams.mapM (streamRows s f)
  pure (f.cut (sortedBy logOrder out.flatten))

end

end Sentinel.Lgtm
