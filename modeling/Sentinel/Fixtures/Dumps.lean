import Sentinel.Fixtures.Scenarios

/-! `model_dump(mode="json")` of the fixture models. The fields of a base class come
first. -/
namespace Sentinel.Fixtures
open Python Tools

def textOrNull (text : Option String) : Json := (text.map Json.str).getD .null

def texts (items : List String) : Json := .list (items.map .str)

def textDict (entries : List (String × String)) : Json :=
  .dict (entries.map fun entry => (entry.1, .str entry.2))

def TimeWindow.modelDump (window : TimeWindow) : Json :=
  .dict [("start", .int window.start), ("end", .int window.stop)]

def Severity.value : Severity → String
  | .warning => "warning"
  | .critical => "critical"

def DerivedAlert.modelDump (alert : DerivedAlert) : Json :=
  .dict [("alertname", .str alert.alertname), ("severity", .str alert.severity.value),
    ("starts_at_second", .int alert.startsAtSecond), ("labels", textDict alert.labels),
    ("annotations", textDict alert.annotations), ("value", .float alert.value),
    ("expr", .str alert.expr), ("fingerprint", .str alert.fingerprint)]

def PublicManifest.modelDump (manifest : PublicManifest) : Json :=
  .dict [("scenario_id", .str manifest.scenarioId), ("source", .str manifest.source),
    ("time_unit", .str manifest.timeUnit), ("window", manifest.window.modelDump),
    ("symptom", .str manifest.symptom), ("available_signals", texts manifest.availableSignals),
    ("notes", texts manifest.notes), ("alerts", .list (manifest.alerts.map DerivedAlert.modelDump))]

def MetricRow.modelDump (row : MetricRow) : Json :=
  .dict [("attributes", .dict row.attributes), ("time", .int row.time), ("service", .str row.service),
    ("metric", .str row.metric), ("value", .float row.value), ("unit", .str row.unit)]

def LogRow.modelDump (row : LogRow) : Json :=
  .dict [("attributes", .dict row.attributes), ("time", .int row.time), ("service", .str row.service),
    ("severity", .str row.severity), ("message", .str row.message),
    ("trace_id", textOrNull row.traceId)]

def TraceRow.modelDump (row : TraceRow) : Json :=
  .dict [("attributes", .dict row.attributes), ("trace_id", .str row.traceId),
    ("span_id", .str row.spanId), ("parent_span_id", textOrNull row.parentSpanId),
    ("time", .int row.time), ("service", .str row.service), ("operation", .str row.operation),
    ("duration_ms", .float row.durationMs), ("status", .str row.status)]

def ChangeEvent.modelDump (change : ChangeEvent) : Json :=
  .dict [("id", .str change.id), ("time", .int change.time), ("service", .str change.service),
    ("kind", .str change.kind), ("summary", .str change.summary),
    ("diff_touches", texts change.diffTouches)]

def InjectionMetadata.modelDump (injection : InjectionMetadata) : Json :=
  .dict [("raw_flag_key", .str injection.rawFlagKey), ("variant", .str injection.variant),
    ("enabled_at_second", .int injection.enabledAtSecond)]

def rootCauseDump (rootCause : RootCause) : Json :=
  .dict [("kind", .str rootCause.kind), ("type", .str rootCause.type),
    ("service", textOrNull rootCause.service), ("caller", textOrNull rootCause.caller),
    ("callee", textOrNull rootCause.callee)]

def PrivateTruth.modelDump (truth : PrivateTruth) : Json :=
  .dict [("scenario_id", .str truth.scenarioId), ("injection", truth.injection.modelDump),
    ("root_cause", rootCauseDump truth.rootCause),
    ("culprit_change_id", .str truth.culpritChangeId),
    ("expected_evidence", texts truth.expectedEvidence),
    ("decoy_change_ids", texts truth.decoyChangeIds),
    ("accepted_services", (truth.acceptedServices.map texts).getD .null)]

end Sentinel.Fixtures
