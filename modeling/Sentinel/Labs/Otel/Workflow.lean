import Sentinel.Fixtures.Scenarios
import Sentinel.Python.Rounding
import Sentinel.Python.Values
import Sentinel.Transition.Calls

/-! Recording a scenario: the flags are reset, the fault is injected, the telemetry of
the window is collected and written, and the flags are reset again. Every call out, to the
flag client, the telemetry clients, the clock, the sleep function and the fixture writer,
may raise. -/
namespace Sentinel.Labs.Otel
open Python Fixtures Transition

/-- The operations of the flag client that change flags. -/
inductive FlagOp where
  | resetAllFlags (variant : String)
  | setFlagVariant (rawFlagKey variant : String)
  deriving DecidableEq, Repr

structure MetricQuery where
  metricName : String
  query : String
  unit : String
  serviceLabel : String := "service_name"

structure PrometheusMatrixCapture where
  metricName : String
  unit : String
  result : Json
  serviceLabel : String := "service_name"

structure RawTelemetryCapture where
  windowStart : ℚ
  windowEnd : ℚ
  prometheusMatrices : List PrometheusMatrixCapture := []
  jaegerTraces : List Json := []
  opensearchLogs : List Json := []

structure RecordingOptions where
  metricQueries : List MetricQuery
  prometheusStep : String := "15s"
  traceServices : List String := []
  traceLimitPerService : ℤ := 100
  logLimit : ℤ := 20000
  logBuckets : ℤ := 12
  validateOutput : Bool := true

structure ValidationReport where
  scenarioId : String
  errors : List String

/-- What `write_fixture` is given to write for a recording. -/
structure RecordedFixture where
  manifest : PublicManifest
  metrics : List MetricRow
  logs : List LogRow
  traces : List TraceRow
  changes : List ChangeEvent
  truth : PrivateTruth
  injectionLog : Json
  evalOnlyJson : List (String × Json)

/-- The clients and functions that recording calls, over the state `W` of the lab. -/
structure Lab (W : Type) where
  resetAllFlags : String → W → Py Json × W
  setFlagVariant : String → String → W → Py Json × W
  sleep : ℚ → W → Py Unit × W
  clock : W → Py ℚ × W
  queryRange : String → ℚ → ℚ → String → W → Py Json × W
  services : W → Py (List String) × W
  traces : String → ℤ → ℚ → ℚ → W → Py (List Json) × W
  searchLogs : ℤ → ℚ → ℚ → W → Py (List Json) × W
  deriveAlerts : ℚ → ℚ → W → Py (List DerivedAlert) × W
  now : W → Py String × W
  writeFixture : RecordedFixture → W → Py Unit × W
  validateFixture : String → W → Py ValidationReport × W

/-- The functions that turn captured telemetry into rows and into the documents of the
fixture. -/
structure Normalizer where
  prometheusMatrix : PrometheusMatrixCapture → ℚ → Py (List MetricRow)
  jaegerTraces : List Json → ℚ → Py (List TraceRow)
  opensearchLogs : List Json → ℚ → Py (List LogRow)
  manifest : ScenarioDefinition → List DerivedAlert → Py PublicManifest
  truth : ScenarioDefinition → Py PrivateTruth
  injectionLog : ScenarioDefinition → RawTelemetryCapture → String → Json

abbrev Recording (W : Type) := Calls Exn FlagOp W

section
variable {W : Type}

/-- One hit of a bucket, unless its id was seen. -/
def takeHit (rows : List String × List Json) (hit : Json) : Py (List String × List Json) := do
  match ← hit.get "_id" with
  | .str id => pure (if id ∈ rows.1 then rows else (id :: rows.1, rows.2 ++ [hit]))
  | _ => pure (rows.1, rows.2 ++ [hit])

/-- `_collect_bucketed_logs`. -/
def collectBucketedLogs (lab : Lab W) (windowStart windowEnd : ℚ) (options : RecordingOptions) :
    Recording W (List Json) := do
  let buckets := max 1 options.logBuckets
  let perBucket := max 1 (-((-options.logLimit) / buckets))
  let span := rnd (rnd (windowEnd - windowStart) / buckets)
  let bucket (rows : List String × List Json) (index : ℕ) :
      Recording W (List String × List Json) := do
    let bucketStart := rnd (windowStart + rnd (span * index))
    let bucketEnd :=
      if (index : ℤ) = buckets - 1 then windowEnd
      else rnd (windowStart + rnd (span * (index + 1)))
    let hits ← .call (lab.searchLogs perBucket bucketStart bucketEnd)
    .lift (hits.foldlM takeHit rows)
  let rows ← .loop bucket ([], []) (List.range buckets.toNat)
  pure rows.2

/-- `options.trace_services or tuple(clients.jaeger.services())`. -/
def traceServices (lab : Lab W) (options : RecordingOptions) : Recording W (List String) :=
  if options.traceServices.isEmpty then .call lab.services else pure options.traceServices

def collectRawCapture (lab : Lab W) (windowStart windowEnd : ℚ) (options : RecordingOptions) :
    Recording W RawTelemetryCapture := do
  let matrices ← .forEach (fun (query : MetricQuery) => do
    let result ← .call (lab.queryRange query.query windowStart windowEnd options.prometheusStep)
    pure { metricName := query.metricName, unit := query.unit, result
           serviceLabel := query.serviceLabel : PrometheusMatrixCapture }) options.metricQueries
  let services ← traceServices lab options
  let traces ← .forEach (fun service =>
    .call (lab.traces service options.traceLimitPerService windowStart windowEnd)) services
  let logs ← collectBucketedLogs lab windowStart windowEnd options
  pure { windowStart, windowEnd, prometheusMatrices := matrices, jaegerTraces := traces.flatten
         opensearchLogs := logs }

/-- `_flag_snapshots`. -/
def flagSnapshots (before after : Json) : List (String × Json) :=
  [("raw_flag_snapshot.before.json", before), ("raw_flag_snapshot.after.json", after)]

def assembleRecordedFixture (lab : Lab W) (normalizer : Normalizer) (scenario : ScenarioDefinition)
    (capture : RawTelemetryCapture) (before after : Json) (options : RecordingOptions) :
    Recording W ValidationReport := do
  let metrics ← .lift (capture.prometheusMatrices.mapM fun matrix =>
    normalizer.prometheusMatrix matrix capture.windowStart)
  let traces ← .lift (normalizer.jaegerTraces capture.jaegerTraces capture.windowStart)
  let logs ← .lift (normalizer.opensearchLogs capture.opensearchLogs capture.windowStart)
  let changes := scenario.publicConfig.decoyChanges ++ [scenario.publicConfig.sanitizedChange]
  let alerts ← .call (lab.deriveAlerts capture.windowStart capture.windowEnd)
  let manifest ← .lift (normalizer.manifest scenario alerts)
  let truth ← .lift (normalizer.truth scenario)
  let recordedAt ← .call lab.now
  let injectionLog := normalizer.injectionLog scenario capture recordedAt
  .call (lab.writeFixture
    { manifest, metrics := metrics.flatten, logs, traces, changes, truth, injectionLog
      evalOnlyJson := flagSnapshots before after })
  if options.validateOutput then .call (lab.validateFixture scenario.id)
  else pure { scenarioId := scenario.id, errors := [] }

/-- `sleep_fn(float(seconds))`. -/
def sleepFor (lab : Lab W) (seconds : ℤ) : Recording W Unit := do
  let seconds ← .lift (toFloat seconds)
  .call (lab.sleep seconds)

def reset (lab : Lab W) : Recording W Json :=
  .logged (.resetAllFlags "off") (lab.resetAllFlags "off")

/-- `record_scenario_definition`. -/
def recordScenarioDefinition (lab : Lab W) (normalizer : Normalizer) (scenario : ScenarioDefinition)
    (options : RecordingOptions) : Recording W ValidationReport := do
  let before ← reset lab
  sleepFor lab scenario.timing.warmupSeconds
  let windowStart ← .call lab.clock
  sleepFor lab scenario.timing.injectionAtSeconds
  let after ← .logged (.setFlagVariant scenario.rawFlagKey scenario.variant)
    (lab.setFlagVariant scenario.rawFlagKey scenario.variant)
  let remaining := scenario.timing.recordingSeconds - scenario.timing.injectionAtSeconds
  sleepFor lab remaining
  let recorded ← .lift (toFloat scenario.timing.recordingSeconds)
  let windowEnd := rnd (windowStart + recorded)
  .tryFinally
    (do
      let capture ← collectRawCapture lab windowStart windowEnd options
      assembleRecordedFixture lab normalizer scenario capture before after options)
    (reset lab)

/-- The calls up to the injection. -/
def prepare (lab : Lab W) (scenario : ScenarioDefinition) : Recording W (Json × ℚ) := do
  let before ← reset lab
  sleepFor lab scenario.timing.warmupSeconds
  let windowStart ← .call lab.clock
  sleepFor lab scenario.timing.injectionAtSeconds
  pure (before, windowStart)

/-- The injection and the wait for the end of the window. -/
def inject (lab : Lab W) (scenario : ScenarioDefinition) (windowStart : ℚ) :
    Recording W (Json × ℚ) := do
  let after ← .logged (.setFlagVariant scenario.rawFlagKey scenario.variant)
    (lab.setFlagVariant scenario.rawFlagKey scenario.variant)
  sleepFor lab (scenario.timing.recordingSeconds - scenario.timing.injectionAtSeconds)
  let recorded ← .lift (toFloat scenario.timing.recordingSeconds)
  pure (after, rnd (windowStart + recorded))

theorem silent_sleepFor (lab : Lab W) (seconds : ℤ) : Calls.Silent (sleepFor lab seconds) :=
  (Calls.silent_lift _).bind fun _ => Calls.silent_call _

theorem log_prepare (lab : Lab W) (scenario : ScenarioDefinition) (s : W × List FlagOp) :
    (prepare lab scenario).log s = s.2 ++ [.resetAllFlags "off"] := by
  refine (Calls.log_bind_of_silent (fun before => ?_) s).trans (Calls.log_logged _ _ s)
  refine (silent_sleepFor lab _).bind fun _ => ?_
  refine (Calls.silent_call _).bind fun windowStart => ?_
  exact (silent_sleepFor lab _).bind fun _ => Calls.silent_pure _

theorem log_inject (lab : Lab W) (scenario : ScenarioDefinition) (windowStart : ℚ)
    (s : W × List FlagOp) : (inject lab scenario windowStart).log s =
      s.2 ++ [.setFlagVariant scenario.rawFlagKey scenario.variant] := by
  refine (Calls.log_bind_of_silent (fun after => ?_) s).trans (Calls.log_logged _ _ s)
  refine (silent_sleepFor lab _).bind fun _ => ?_
  exact (Calls.silent_lift _).bind fun recorded => Calls.silent_pure _

theorem recordScenarioDefinition_eq (lab : Lab W) (normalizer : Normalizer)
    (scenario : ScenarioDefinition) (options : RecordingOptions) :
    recordScenarioDefinition lab normalizer scenario options =
      prepare lab scenario >>= fun prepared =>
        inject lab scenario prepared.2 >>= fun injected =>
          .tryFinally
            (do
              let capture ← collectRawCapture lab prepared.2 injected.2 options
              assembleRecordedFixture lab normalizer scenario capture prepared.1 injected.1 options)
            (reset lab) := by
  simp only [recordScenarioDefinition, prepare, inject, bind_assoc, pure_bind]

/-- The last flag operation that the recording attempts. -/
def lastFlagOp (lab : Lab W) (normalizer : Normalizer) (scenario : ScenarioDefinition)
    (options : RecordingOptions) (w : W) : Option FlagOp :=
  ((recordScenarioDefinition lab normalizer scenario options).log (w, [])).getLast?

/-- Wherever the code before the injection returns, so do the injection, the wait after it
and the arithmetic up to the `try`. -/
def WaitReturns (lab : Lab W) (scenario : ScenarioDefinition) (w : W) : Prop :=
  ∀ before windowStart s, prepare lab scenario (w, []) = (.ok (before, windowStart), s) →
    (inject lab scenario windowStart).Returns s

section
variable {lab : Lab W} {normalizer : Normalizer} {scenario : ScenarioDefinition}
  {options : RecordingOptions} {w : W} {before : Json} {windowStart : ℚ} {s : W × List FlagOp}

theorem lastFlagOp_unprepared (cut : ¬ (prepare lab scenario).Returns (w, [])) :
    lastFlagOp lab normalizer scenario options w = some (.resetAllFlags "off") := by
  rw [lastFlagOp, recordScenarioDefinition_eq, Calls.log_bind_of_raises cut, log_prepare,
    List.getLast?_concat]

theorem lastFlagOp_interrupted (prepared : prepare lab scenario (w, []) = (.ok (before, windowStart), s))
    (cut : ¬ (inject lab scenario windowStart).Returns s) :
    lastFlagOp lab normalizer scenario options w =
      some (.setFlagVariant scenario.rawFlagKey scenario.variant) := by
  rw [lastFlagOp, recordScenarioDefinition_eq, Calls.log_bind_of_returns prepared,
    Calls.log_bind_of_raises cut, log_inject, List.getLast?_concat]

theorem lastFlagOp_recorded (prepared : prepare lab scenario (w, []) = (.ok (before, windowStart), s))
    (injected : (inject lab scenario windowStart).Returns s) :
    lastFlagOp lab normalizer scenario options w = some (.resetAllFlags "off") := by
  obtain ⟨after, t, run⟩ := injected
  rw [lastFlagOp, recordScenarioDefinition_eq, Calls.log_bind_of_returns prepared,
    Calls.log_bind_of_returns run, Calls.log_tryFinally, reset, Calls.log_logged,
    List.getLast?_concat]

theorem not_returns_inject {e : Exn} {after : Json} {u : W} {t : W × List FlagOp}
    (set : lab.setFlagVariant scenario.rawFlagKey scenario.variant s.1 = (.ok after, u))
    (cut : sleepFor lab (scenario.timing.recordingSeconds - scenario.timing.injectionAtSeconds)
      (u, s.2 ++ [.setFlagVariant scenario.rawFlagKey scenario.variant]) = (.error e, t)) :
    ¬ (inject lab scenario windowStart).Returns s := by
  have injected : (Calls.logged (.setFlagVariant scenario.rawFlagKey scenario.variant)
      (lab.setFlagVariant scenario.rawFlagKey scenario.variant) : Recording W Json) s =
        (.ok after, (u, s.2 ++ [.setFlagVariant scenario.rawFlagKey scenario.variant])) := by
    simp only [Calls.logged, set]
  rintro ⟨result, t', returned⟩
  rw [inject, Calls.bind_of_returns injected, Calls.bind_of_raises cut] at returned
  cases returned

end

/-- The recording leaves the flags reset exactly where nothing raises between the
injection and the `try`. -/
theorem record_ends_reset_iff (lab : Lab W) (normalizer : Normalizer)
    (scenario : ScenarioDefinition) (options : RecordingOptions) (w : W) :
    lastFlagOp lab normalizer scenario options w = some (.resetAllFlags "off") ↔
      WaitReturns lab scenario w := by
  constructor
  · intro last before windowStart s prepared
    by_contra cut
    rw [lastFlagOp_interrupted prepared cut] at last
    cases last
  · intro waits
    by_cases prepared : (prepare lab scenario).Returns (w, [])
    · obtain ⟨⟨before, windowStart⟩, s, run⟩ := prepared
      exact lastFlagOp_recorded run (waits before windowStart s run)
    · exact lastFlagOp_unprepared prepared

end

section Sample

/-- A lab whose third wait is interrupted and everything else returns. -/
def interruptedLab : Lab ℕ where
  resetAllFlags _ n := (.ok (.dict []), n)
  setFlagVariant _ _ n := (.ok (.dict []), n)
  sleep _ n := (if n = 2 then .error ⟨"KeyboardInterrupt", "", true⟩ else .ok (), n + 1)
  clock n := (.ok 1000, n)
  queryRange _ _ _ _ n := (.ok (.dict []), n)
  services n := (.ok [], n)
  traces _ _ _ _ n := (.ok [], n)
  searchLogs _ _ _ n := (.ok [], n)
  deriveAlerts _ _ n := (.ok [], n)
  now n := (.ok "2026-01-01T00:00:00+00:00", n)
  writeFixture _ n := (.ok (), n)
  validateFixture id n := (.ok { scenarioId := id, errors := [] }, n)

def sampleChange (id : String) (named : id ≠ "") : ChangeEvent where
  id := id
  time := 60
  service := "payment"
  kind := "deploy"
  summary := "payment endpoint changed"
  named := ⟨named, by decide, by decide, by decide⟩

def paymentScenario : ScenarioDefinition where
  id := "payment_unreachable_001"
  rawFlagKey := "paymentUnreachable"
  variant := "on"
  timing := { warmupSeconds := 60, injectionAtSeconds := 300, recordingSeconds := 900 }
  publicConfig :=
    { symptom := "Checkout attempts started failing."
      sanitizedChange := sampleChange "chg_1" (by decide)
      decoyChanges := [sampleChange "chg_2" (by decide)]
      decoyed := by simp }
  rootCause := { kind := "edge", type := "unreachable", caller := some "checkout", callee := some "payment" }

theorem interruptedLab_sleepFor (seconds : ℤ) (small : |seconds| < 2 ^ 53) (n : ℕ)
    (log : List FlagOp) : sleepFor interruptedLab seconds (n, log) =
      (if n = 2 then .error ⟨"KeyboardInterrupt", "", true⟩ else .ok (), (n + 1, log)) := by
  simp only [sleepFor, toFloat_of_small small]
  rfl

def idleNormalizer : Normalizer where
  prometheusMatrix _ _ := .ok []
  jaegerTraces _ _ := .ok []
  opensearchLogs _ _ := .ok []
  manifest _ _ := .error ⟨"ValidationError", "alerts", false⟩
  truth _ := .error ⟨"ValidationError", "expected_evidence", false⟩
  injectionLog _ _ _ := .dict []

/-- An interrupt in the wait after the injection leaves the fault in place. -/
theorem interrupted_wait_keeps_fault :
    ¬ ∀ (W : Type) (lab : Lab W) (normalizer : Normalizer) (scenario : ScenarioDefinition)
      (options : RecordingOptions) (w : W),
      lastFlagOp lab normalizer scenario options w = some (.resetAllFlags "off") := by
  intro resets
  have last := resets ℕ interruptedLab idleNormalizer paymentScenario { metricQueries := [] } 0
  have first : reset interruptedLab (0, []) = (.ok (.dict []), (0, [.resetAllFlags "off"])) := rfl
  have warmup := interruptedLab_sleepFor paymentScenario.timing.warmupSeconds (by decide)
    0 [.resetAllFlags "off"]
  have clock : (Calls.call interruptedLab.clock : Recording ℕ ℚ) (1, [.resetAllFlags "off"]) =
      (.ok 1000, (1, [.resetAllFlags "off"])) := rfl
  have wait := interruptedLab_sleepFor paymentScenario.timing.injectionAtSeconds (by decide)
    1 [.resetAllFlags "off"]
  have prepared : prepare interruptedLab paymentScenario (0, []) =
      (.ok (.dict [], 1000), (2, [.resetAllFlags "off"])) := by
    rw [prepare, Calls.bind_of_returns first, Calls.bind_of_returns warmup,
      Calls.bind_of_returns clock, Calls.bind_of_returns wait]
    rfl
  have third := interruptedLab_sleepFor (paymentScenario.timing.recordingSeconds -
    paymentScenario.timing.injectionAtSeconds) (by decide) 2
    [.resetAllFlags "off", .setFlagVariant paymentScenario.rawFlagKey paymentScenario.variant]
  rw [if_pos rfl] at third
  rw [lastFlagOp_interrupted prepared (not_returns_inject rfl third)] at last
  exact nomatch last

end Sample

end Sentinel.Labs.Otel
