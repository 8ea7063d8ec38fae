import Sentinel.Oss.Topology
import Sentinel.Oss.Worker

/-! The investigation over a resolved graph: planned hypotheses, one worker for
each, and a root cause picked by the ranking and the workers' refutations. The
fast path picks it with no workers at all. -/
namespace Sentinel.Oss
open Python Tools

structure Hypothesis where
  candidateService : String
  signature : Family
  edge : Option (List String) := none
  toolSubset : List String := []
  investigationDirective : String := ""

/-- What is used of a synthesis. -/
structure Synthesis where
  faultType : Option String
  justification : String := ""

structure RcaResult where
  rootCauseService : Option String
  faultType : Option String
  justification : Option String
  rankedServices : List String
  verdicts : List Json
  usage : Usage

def familyName : Family → String
  | .resource => "resource"
  | .latency => "latency"
  | .error => "error"

def sigFault : Family → String
  | .resource => "resource saturation"
  | .latency => "latency/slowdown"
  | .error => "errors"

def sigMetric : Family → String
  | .resource => "cpu_utilization / memory_mb"
  | .latency => "latency_p95_ms"
  | .error => "request_error_rate"

def confirmTools : List String :=
  ["metrics_summary_all", "metrics_compare_baseline", "metrics_top_movers",
    "metrics_resource_saturation", "metrics_detect_shift"]

/-- `graph.effects.get(s, {})`. -/
def Graph.effectsOf (graph : Graph) (s : String) : Dict Family ℚ :=
  (graph.effects.get? s).getD Dict.empty

/-- The family of the first largest effect, if it stepped. -/
def dominantFamily (eff : Dict Family ℚ) : Option Family :=
  match eff.items.argmax Prod.snd with
  | none => none
  | some (fam, z) => if z ≥ zMin then some fam else none

def confirmDirective (service : String) (fam : Family) : String :=
  "The anomaly overlay shows " ++ service ++ "'s own " ++ familyName fam ++
    " signal stepped at onset. Confirm it directly: compare " ++ service ++ "'s " ++
    sigMetric fam ++ " pre vs post onset, and set observed_signatures/supported from what " ++
    "actually stepped."

section Investigate
variable (graph : Graph)

/-- A hypothesis for an anomalous service among the first three that the plan
omits. -/
def injected (plan : List Hypothesis) (svc : String) : Option Hypothesis :=
  match dominantFamily (graph.effectsOf svc) with
  | none => none
  | some dom =>
    if svc ∈ graph.anomalous && svc ∉ plan.map Hypothesis.candidateService then
      some { candidateService := svc, signature := dom, toolSubset := confirmTools
             investigationDirective := confirmDirective svc dom }
    else none

def hypotheses (plan : List Hypothesis) : List Hypothesis :=
  plan ++ (graph.rankedServices.take 3).filterMap (injected graph plan)

/-- The signature is corrected to the family that stepped. -/
def corrected (h : Hypothesis) : Hypothesis :=
  match dominantFamily (graph.effectsOf h.candidateService) with
  | none => h
  | some dom =>
    if dom = h.signature then h
    else { h with signature := dom, investigationDirective := confirmDirective h.candidateService dom }

def listIndexError : Exn := ⟨"IndexError", "list index out of range", false⟩

def edgeText : Option (List String) → Py String
  | none | some [] => .ok ""
  | some [_] => .error listIndexError
  | some (upstream :: downstream :: _) =>
    .ok (" on edge " ++ upstream ++ "->" ++ downstream)

def hypothesisText (h : Hypothesis) : Py String := do
  let edge ← edgeText h.edge
  pure ("[" ++ familyName h.signature ++ "] Candidate origin: " ++ h.candidateService ++ edge ++
    ". " ++ h.investigationDirective)

def observedSignatures (eff : Dict Family ℚ) : Json :=
  .dict (eff.items.map fun entry => (familyName entry.1, .bool (entry.2 ≥ zMin)))

/-- For an anomalous candidate the overlay overrides the worker's judgment. -/
def overruled (service : String) (entries : List (String × Json)) : List (String × Json) :=
  let eff := graph.effectsOf service
  match dominantFamily eff with
  | none => entries
  | some dom =>
    assign "signature" (.str (familyName dom)) <|
      assign "supported" (.bool true) <|
      assign "observed_signatures" (observedSignatures eff) entries

def attributed (service : String) (entries : List (String × Json)) : List (String × Json) :=
  if ((entries.lookup "supported").getD .null).truthy then
    assign "root_cause_service" (.str service) entries
  else entries

/-- A verdict is about its worker's own candidate. -/
def reconcile (service : String) (verdict : Json) : Py Json := do
  let verdict ← verdict.setItem "candidate_service" (.str service)
  pure (.dict (attributed service (overruled graph service verdict.entries)))

/-- A worker, called with its number, its hypothesis and its tools. -/
abbrev WorkerCall := ℕ → String → List String → Py WorkerRun

/-- `_one`. -/
def investigate (worker : WorkerCall) (h : Hypothesis) (i : ℕ) : Py WorkerRun := do
  let h := corrected graph h
  let text ← hypothesisText h
  let run ← worker i text h.toolSubset
  match run.verdict with
  | none => pure run
  | some verdict =>
    let verdict ← reconcile graph h.candidateService verdict
    pure { run with verdict := some verdict }

/-- The pool maps over the hypotheses; the first exception surfaces. -/
def investigateAll (worker : WorkerCall) (plan : List Hypothesis) : Py (List WorkerRun) :=
  (hypotheses graph plan).zipIdx.mapM fun entry => investigate graph worker entry.1 entry.2

def verdictsOf (runs : List WorkerRun) : List Json := runs.filterMap WorkerRun.verdict

/-- The candidate a verdict refutes: a `False` only counts against a service
that is not anomalous. -/
def refutedBy (verdict : Json) : Option String :=
  match verdict.lookup "supported", verdict.lookup "candidate_service" with
  | some (.bool false), some (.str s) => if s ∈ graph.anomalous then none else some s
  | _, _ => none

def refuted (verdicts : List Json) : List String := verdicts.filterMap (refutedBy graph)

/-- The ranking without the refuted services, or all of it if none is left. -/
def rankedDet (verdicts : List Json) : List String :=
  let kept := graph.rankedServices.filter fun s => s ∉ refuted graph verdicts
  if kept.isEmpty then graph.rankedServices else kept

/-- `_SIG_FAULT.get(_dominant_family(graph.effects.get(root_cause)))`. -/
def overlayFault (root : Option String) : Option String :=
  (root.bind fun s => dominantFamily (graph.effectsOf s)).map sigFault

/-- Without verdicts there is nothing to synthesize. -/
def narrate (synthesize : List Json → Py Synthesis) (verdicts : List Json) :
    Py (Option Synthesis) :=
  if verdicts.isEmpty then .ok none else some <$> synthesize verdicts

/-- The synthesis only narrates, unless the overlay names no fault. -/
def conclude (synthesize : List Json → Py Synthesis) (runs : List WorkerRun) : Py RcaResult := do
  let verdicts := verdictsOf runs
  let ranked := rankedDet graph verdicts
  let root := ranked.head?
  let synth ← narrate synthesize verdicts
  pure {
    rootCauseService := root
    faultType := (overlayFault graph root).or (synth.bind Synthesis.faultType)
    justification := synth.map Synthesis.justification
    rankedServices := ranked.take 5
    verdicts
    usage := (runs.map WorkerRun.usage).foldl Usage.add {} }

def runRca (plan : List Hypothesis) (worker : WorkerCall) (synthesize : List Json → Py Synthesis) :
    Py RcaResult := do
  let runs ← investigateAll graph worker plan
  conclude graph synthesize runs

end Investigate

/-- `_fast_localize` without its evidence lines. -/
structure FastResult where
  rootCauseService : Option String
  rankedServices : List String
  signature : Option Family
  faultType : Option String
  observedSignatures : Json

def fastLocalize (graph : Graph) : FastResult :=
  let root := graph.rankedServices.head?
  -- an empty name counts as no root here
  let eff := (root.filter (· ≠ "")).elim Dict.empty graph.effectsOf
  let signature :=
    if (eff.values.max?).getD 0 > 0 then eff.keys.argmax fun fam => (eff.get? fam).getD 0 else none
  { rootCauseService := root
    rankedServices := graph.rankedServices.take 5
    signature
    faultType := signature.map sigFault
    observedSignatures := observedSignatures eff }

end Sentinel.Oss
