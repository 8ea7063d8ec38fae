import Sentinel.Tools.Attribution
import Sentinel.Tools.Metrics

/-! Evidence for a root-cause hypothesis, and the elimination of a service or a change. -/
namespace Sentinel.Tools
open Python Fixtures

inductive HypothesisKind where
  | service | edge
  deriving DecidableEq

structure Hypothesis where
  id : String
  kind : HypothesisKind
  service : Option String := none
  caller : Option String := none
  callee : Option String := none
  onsetSecond : ℤ
  rationale : String

structure EvidenceReport where
  hypothesisId : String
  supported : Bool
  confidence : ℚ
  signals : List String
  suspectChangeId : Option String

structure RuleOutInput where
  onsetSecond : ℤ
  service : Option String := none
  changeId : Option String := none
  nonneg : 0 ≤ onsetSecond := by decide

structure RuleOutVerdict where
  ruledOut : Bool
  reason : String

def latencyDeltaMin : ℚ := 100

def errorRateDeltaMin : ℚ := rnd 0.02

def delta (store : TelemetryStore) (service metric : String) (onset : ℤ) : ℚ :=
  let rows := store.metricSeries service metric
  if rows.isEmpty then 0
  else rnd (meanOf (postValues rows onset) - meanOf (preValues rows onset))

/-- The line for a resource metric of the service that rose after the onset. -/
def resourceShift (store : TelemetryStore) (service : String) (onset : ℤ) (key : String × String) :
    Option String :=
  let rows := store.metricSeries service key.1
  if rows.isEmpty then none
  else
    let preMean := meanOf (preValues rows onset)
    let postMean := meanOf (postValues rows onset)
    if significantShift key.1 preMean postMean then
      some (service ++ " " ++ key.1 ++ " rose from " ++ fixedText 2 preMean ++ " to " ++
        fixedText 2 postMean ++ " " ++ key.2 ++ " after onset")
    else none

def resourceShifts (store : TelemetryStore) (service : String) (onset : ℤ) : List String :=
  (resourceMetrics store).filterMap (resourceShift store service onset)

def serverErr (store : TelemetryStore) (service : String) : List TraceRow :=
  store.findSpans { service, spanKind := some "server", status := some "ERROR" }

def ownFault (store : TelemetryStore) (service : String) (onset : ℤ) : Bool :=
  if !(serverErr store service).isEmpty then true
  else latencyDeltaMin < delta store service "latency_p95_ms" onset ||
    !(resourceShifts store service onset).isEmpty

def nearestChangeBefore (store : TelemetryStore) (service : Option String) (onset : ℤ) :
    Option String :=
  let candidates := (store.listChanges { service }).filter fun c => c.time < onset
  (sortedBy (fun c => OrderDual.toDual c.time) candidates).head?.map ChangeEvent.id

/-- The line for the suspected change, if its id is a text at all. -/
def suspectSignal (suspect : Option String) : List String :=
  ((given suspect).map fun id =>
    "nearest change before onset on the implicated service: " ++ id).toList

/-- The branch of a service hypothesis. -/
def gatherServiceEvidence (h : Hypothesis) (service : String) (store : TelemetryStore) :
    EvidenceReport :=
  let n := (serverErr store service).length
  let errD := delta store service "request_error_rate" h.onsetSecond
  let latD := delta store service "latency_p95_ms" h.onsetSecond
  let resourceSignals := resourceShifts store service h.onsetSecond
  let suspect := nearestChangeBefore store (some service) h.onsetSecond
  let meaningful := errorRateDeltaMin < errD || latencyDeltaMin < latD || !resourceSignals.isEmpty
  { hypothesisId := h.id
    supported := 0 < n || meaningful
    confidence := if 0 < n then rnd 0.9 else if meaningful then rnd 0.6 else rnd 0.1
    signals := [service ++ " own server error spans: " ++ toString n] ++
      (if errorRateDeltaMin < errD then
        [service ++ " error rate rose by " ++ fixedText 2 errD ++ " after onset"] else []) ++
      (if latencyDeltaMin < latD then
        [service ++ " p95 latency rose by " ++ fixedText 0 latD ++ "ms after onset"] else []) ++
      resourceSignals ++ suspectSignal suspect
    suspectChangeId := suspect }

/-- The branch of an edge hypothesis. -/
def gatherEdgeEvidence (h : Hypothesis) (caller callee : String) (store : TelemetryStore) :
    EvidenceReport :=
  let clientErr := store.findSpans
    { service := some caller, spanKind := some "client", status := some "ERROR", rpcCallee := some callee }
  let nc := clientErr.length
  let ns := (serverErr store callee).length
  let suspect := nearestChangeBefore store (some caller) h.onsetSecond
  let supported := 0 < nc && ns = 0
  { hypothesisId := h.id
    supported
    confidence := if supported then rnd 0.8 else if 0 < nc then rnd 0.3 else 0
    signals := [caller ++ "->" ++ callee ++ " client error spans: " ++ toString nc,
      callee ++ " own server error spans: " ++ toString ns] ++ suspectSignal suspect
    suspectChangeId := suspect }

def malformedHypothesis (h : Hypothesis) : EvidenceReport where
  hypothesisId := h.id
  supported := false
  confidence := 0
  signals := ["malformed hypothesis: need service, or caller+callee"]
  suspectChangeId := none

def hypothesisGatherEvidence (h : Hypothesis) (store : TelemetryStore) : EvidenceReport :=
  match h.kind, given h.service, given h.caller, given h.callee with
  | .service, some service, _, _ => gatherServiceEvidence h service store
  | .edge, _, some caller, some callee => gatherEdgeEvidence h caller callee store
  | _, _, _, _ => malformedHypothesis h

/-- The elimination of a change, by its time only. -/
def ruleOutChange (changeId : String) (onset : ℤ) (store : TelemetryStore) : RuleOutVerdict :=
  match (store.listChanges {}).find? fun c => c.id = changeId with
  | none => ⟨false, "no change with id " ++ changeId⟩
  | some change =>
    if change.time ≥ onset then
      ⟨true, "change " ++ change.id ++ " at second " ++ toString change.time ++
        " is at/after onset " ++ toString onset ++ "; a cause must precede its symptom"⟩
    else
      ⟨false, "change " ++ change.id ++ " at second " ++ toString change.time ++
        " precedes onset " ++ toString onset ++ "; still a candidate. To choose among " ++
        "same-service candidates, compare their diff_touches against the failure via " ++
        "changes_search, not this tool."⟩

def hypothesisRuleOut (p : RuleOutInput) (store : TelemetryStore) : RuleOutVerdict :=
  match p.changeId, p.service with
  | some changeId, _ => ruleOutChange changeId p.onsetSecond store
  | none, some service =>
    if ownFault store service p.onsetSecond then
      ⟨false, service ++ " shows an own-fault signal (server errors or a meaningful latency/CPU rise); " ++
        "cannot be eliminated"⟩
    else
      ⟨true, service ++ " has no own server errors and no meaningful latency/CPU rise after onset; " ++
        "not the originating service"⟩
  | none, none => ⟨false, "provide a service or a change_id to test"⟩

/-! ### Evidence against elimination -/

section
variable (store : TelemetryStore) (service : String) (onset : ℤ)

def ServerErred : Prop := ∃ row, row ∈ serverErr store service

def ErrorRateRose : Prop := errorRateDeltaMin < delta store service "request_error_rate" onset

def LatencyRose : Prop := latencyDeltaMin < delta store service "latency_p95_ms" onset

/-- Some resource metric that the service has rose after the onset. -/
def ResourceRose : Prop :=
  ∃ key ∈ resourceMetrics store, store.metricSeries service key.1 ≠ [] ∧
    significantShift key.1 (meanOf (preValues (store.metricSeries service key.1) onset))
      (meanOf (postValues (store.metricSeries service key.1) onset)) = true

variable {store service onset}

theorem serverErr_isEmpty : (serverErr store service).isEmpty = false ↔ ServerErred store service := by
  rw [List.isEmpty_eq_false_iff_exists_mem, ServerErred]

theorem resourceShift_isSome {key : String × String} :
    (resourceShift store service onset key).isSome = true ↔ store.metricSeries service key.1 ≠ [] ∧
      significantShift key.1 (meanOf (preValues (store.metricSeries service key.1) onset))
        (meanOf (postValues (store.metricSeries service key.1) onset)) = true := by
  unfold resourceShift
  dsimp only
  rw [← List.isEmpty_eq_false_iff]
  split_ifs with empty shifted
  · simp [empty]
  · simp [empty, shifted]
  · simp [empty, shifted]

theorem resourceShifts_isEmpty :
    (resourceShifts store service onset).isEmpty = false ↔ ResourceRose store service onset := by
  rw [List.isEmpty_eq_false_iff_exists_mem]
  constructor
  · rintro ⟨line, member⟩
    obtain ⟨key, advertised, shift⟩ := List.mem_filterMap.mp member
    exact ⟨key, advertised, resourceShift_isSome.mp (by simp [shift])⟩
  · rintro ⟨key, advertised, rose⟩
    obtain ⟨line, shift⟩ := Option.isSome_iff_exists.mp (resourceShift_isSome.mpr rose)
    exact ⟨line, List.mem_filterMap.mpr ⟨key, advertised, shift⟩⟩

theorem ownFault_iff : ownFault store service onset = true ↔
    ServerErred store service ∨ LatencyRose store service onset ∨ ResourceRose store service onset := by
  rw [← serverErr_isEmpty, ← resourceShifts_isEmpty, LatencyRose]
  simp [ownFault]

theorem gatherServiceEvidence_supported {h : Hypothesis} :
    (gatherServiceEvidence h service store).supported = true ↔
      ServerErred store service ∨ ErrorRateRose store service h.onsetSecond ∨
        LatencyRose store service h.onsetSecond ∨ ResourceRose store service h.onsetSecond := by
  rw [← serverErr_isEmpty, ← resourceShifts_isEmpty, LatencyRose, ErrorRateRose]
  simp [gatherServiceEvidence, List.length_pos_iff, or_assoc]

/-- No row belongs to a service without a name. -/
theorem silent_of_unnamed : ¬ ServerErred store "" ∧ ∀ metric, store.metricSeries "" metric = [] := by
  constructor
  · rintro ⟨row, member⟩
    exact row.named.2.2.1 (store.spans_service _ _ rfl row member)
  · intro metric
    refine List.eq_nil_iff_forall_not_mem.mpr fun row member => ?_
    exact row.named.1 (store.series_service _ _ row member)

theorem delta_unnamed (metric : String) : delta store "" metric onset = 0 := by
  simp [delta, silent_of_unnamed.2 metric]

theorem errorRateDeltaMin_nonneg : 0 ≤ errorRateDeltaMin := rnd_nonneg (by norm_num)

theorem not_rose_unnamed (store : TelemetryStore) (onset : ℤ) : ¬ ErrorRateRose store "" onset ∧ ¬ LatencyRose store "" onset ∧
    ¬ ResourceRose store "" onset := by
  refine ⟨?_, ?_, ?_⟩
  · rw [ErrorRateRose, delta_unnamed]
    exact not_lt.mpr errorRateDeltaMin_nonneg
  · rw [LatencyRose, delta_unnamed]
    exact not_lt.mpr (by norm_num [latencyDeltaMin])
  · rintro ⟨key, -, rows, -⟩
    exact rows (silent_of_unnamed.2 key.1)

/-- The two tools are asked about one service and one onset. -/
structure SameQuestion (h : Hypothesis) (p : RuleOutInput) (service : String) : Prop where
  kind : h.kind = .service
  suspected : h.service = some service
  tested : p.service = some service
  noChange : p.changeId = none
  onset : p.onsetSecond = h.onsetSecond

theorem supported_iff (store : TelemetryStore) {h : Hypothesis} {p : RuleOutInput} (same : SameQuestion h p service) :
    (hypothesisGatherEvidence h store).supported = true ↔
      ServerErred store service ∨ ErrorRateRose store service h.onsetSecond ∨
        LatencyRose store service h.onsetSecond ∨ ResourceRose store service h.onsetSecond := by
  unfold hypothesisGatherEvidence
  rw [same.kind, same.suspected]
  by_cases unnamed : service = ""
  · subst unnamed
    have none : given (some "") = none := rfl
    obtain ⟨errors, latency, resource⟩ := not_rose_unnamed store h.onsetSecond
    simp [none, malformedHypothesis, silent_of_unnamed.1, errors, latency, resource]
  · have named : given (some service) = some service := by simp [given, unnamed]
    rw [named]
    exact gatherServiceEvidence_supported

theorem ruledOut_iff (store : TelemetryStore) {h : Hypothesis} {p : RuleOutInput} (same : SameQuestion h p service) :
    (hypothesisRuleOut p store).ruledOut = true ↔ ¬ (ServerErred store service ∨
      LatencyRose store service h.onsetSecond ∨ ResourceRose store service h.onsetSecond) := by
  rw [← ownFault_iff, ← same.onset]
  unfold hypothesisRuleOut
  rw [same.noChange, same.tested]
  dsimp only
  split_ifs with fault <;> simp [fault]

/-- What is not ruled out is supported, and what is supported is ruled out only where its
error rate alone rose. -/
theorem evidence_and_elimination {h : Hypothesis} {p : RuleOutInput} (store : TelemetryStore)
    (same : SameQuestion h p service) :
    ((hypothesisRuleOut p store).ruledOut = false →
      (hypothesisGatherEvidence h store).supported = true) ∧
    ((hypothesisGatherEvidence h store).supported = true ∧
        (hypothesisRuleOut p store).ruledOut = true ↔
      ErrorRateRose store service h.onsetSecond ∧ ¬ ServerErred store service ∧
        ¬ LatencyRose store service h.onsetSecond ∧ ¬ ResourceRose store service h.onsetSecond) := by
  have support := supported_iff store same
  have elimination := ruledOut_iff store same
  constructor
  · intro kept
    rw [← Bool.not_eq_true, elimination, not_not] at kept
    rcases kept with errors | latency | resource
    · exact support.mpr (.inl errors)
    · exact support.mpr (.inr (.inr (.inl latency)))
    · exact support.mpr (.inr (.inr (.inr resource)))
  · rw [support, elimination, not_or, not_or]
    constructor
    · rintro ⟨errors | rate | latency | resource, noErrors, noLatency, noResource⟩
      · exact absurd errors noErrors
      · exact ⟨rate, noErrors, noLatency, noResource⟩
      · exact absurd latency noLatency
      · exact absurd resource noResource
    · rintro ⟨rate, clean⟩
      exact ⟨.inr (.inl rate), clean⟩

end

section Sample
attribute [local instance] asciiLowerCase asciiUpperCase

/-- The error rate of `cart` goes from 0 to 1/4 at second 2. -/
def failingCalls : TelemetryStore := FixtureStore.telemetry <| .init
  { metrics :=
      [{ time := 1, service := "cart", metric := "request_error_rate", value := 0, unit := "ratio" },
        { time := 2, service := "cart", metric := "request_error_rate", value := mkRat 1 4,
          unit := "ratio" }] }

def cartHypothesis : Hypothesis where
  id := "h1"
  kind := .service
  service := some "cart"
  onsetSecond := 2
  rationale := "error rate"

def cartElimination : RuleOutInput where
  onsetSecond := 2
  service := some "cart"

theorem cart_asked_about : SameQuestion cartHypothesis cartElimination "cart" :=
  ⟨rfl, rfl, rfl, rfl, rfl⟩

theorem evidence_and_elimination_cart :
    SameQuestion cartHypothesis cartElimination "cart" ∧
      (ErrorRateRose failingCalls "cart" cartHypothesis.onsetSecond ∧
        ¬ ServerErred failingCalls "cart" ∧ ¬ LatencyRose failingCalls "cart" cartHypothesis.onsetSecond ∧
        ¬ ResourceRose failingCalls "cart" cartHypothesis.onsetSecond) :=
  ⟨cart_asked_about, (evidence_and_elimination failingCalls cart_asked_about).2.mp
    ⟨by decide +kernel, by decide +kernel⟩⟩

/-- Evidence supports the service that elimination rules out. -/
theorem supported_and_ruled_out : ¬ ∀ (store : TelemetryStore) (service : String) (h : Hypothesis)
    (p : RuleOutInput), SameQuestion h p service →
      (hypothesisGatherEvidence h store).supported = true →
        (hypothesisRuleOut p store).ruledOut = false := by
  intro consistent
  have supported : (hypothesisGatherEvidence cartHypothesis failingCalls).supported = true := by
    decide +kernel
  have ruledOut : (hypothesisRuleOut cartElimination failingCalls).ruledOut = true := by
    decide +kernel
  have kept := consistent failingCalls "cart" cartHypothesis cartElimination cart_asked_about supported
  rw [ruledOut] at kept
  cases kept

end Sample

end Sentinel.Tools
