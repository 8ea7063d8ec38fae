import Mathlib.Data.List.Lex
import Mathlib.Data.List.Dedup
import Mathlib.Data.Prod.Lex
import Mathlib.Data.String.Basic
import Sentinel.Python.Dict
import Sentinel.Python.Ordering
import Sentinel.Tools.Stats

/-! The service graph and its anomaly overlay: the effect size of each service
per symptom family, and the ranking of the services, likely origin first. -/
namespace Sentinel.Oss
open Python Tools FloatArith

/-- The order in which a set built by these insertions is iterated. -/
class SetOrder where
  iter : List String → List String
  iter_nodup : ∀ xs, (iter xs).Nodup
  mem_iter : ∀ xs s, s ∈ iter xs ↔ s ∈ xs

abbrev Effects := Dict String (Dict Family ℚ)

/-- A row of a metric series; the schema refuses an empty service name. -/
structure MetricRow where
  time : ℕ
  service : String
  value : ℚ
  named : service ≠ ""

/-- What the overlay reads of a telemetry store. -/
structure TelemetryStore where
  listMetricKeys : List (String × String × String)
  metricSeries : String → String → List MetricRow
  series_service : ∀ service metric, ∀ row ∈ metricSeries service metric, row.service = service

structure Graph where
  edges : List (String × String) := []
  rankedServices : List String := []
  anomalous : List String := []
  effects : Effects := Dict.empty
  source : String := "none"
  tracesPresent : Bool := false

def syntheticRoles : List String :=
  ["load-generator", "loadgenerator", "frontend-proxy", "frontendproxy", "frontend-web"]

section Overlay
variable [FloatArith]

def seriesZ (store : TelemetryStore) (service metric : String) (onset : ℤ) : ℚ :=
  let rows := store.metricSeries service metric
  stepZ ((rows.filter fun r => r.time < onset).map MetricRow.value)
    ((rows.filter fun r => r.time ≥ onset).map MetricRow.value) metric

/-- Per family, the largest effect over the family's metrics. -/
def onsetEffects (store : TelemetryStore) (service : String) (onset : ℤ) : Dict Family ℚ :=
  (store.listMetricKeys.filter fun key => key.1 = service).foldl
    (fun out key =>
      let fam := family key.2.1
      out.set fam (max ((out.get? fam).getD 0) (seriesZ store service key.2.1 onset)))
    (((Dict.empty.set .resource 0).set .latency 0).set .error 0)

end Overlay

/-- `effects.get(s, {}).get(fam, 0.0)`. -/
def zf (effects : Effects) (s : String) (fam : Family) : ℚ :=
  ((effects.get? s).bind fun eff => eff.get? fam).getD 0

/-- `max(effects.get(s, {}).values() or [0.0])`. -/
def zTot (effects : Effects) (s : String) : ℚ :=
  (((effects.get? s).getD Dict.empty).values.max?).getD 0

/-- The strictest maximum so far over all effects, from `("resource", 0.0)`. -/
def dominant (effects : Effects) (services : List String) : Family × ℚ :=
  (services.flatMap fun s => ((effects.get? s).getD Dict.empty).items).foldl
    (fun best entry => if entry.2 > best.2 then entry else best) (.resource, 0)

def indicator (p : Prop) [Decidable p] : ℚ := if p then 1 else 0

section Ranking
variable [SetOrder] (edges : List (String × String)) (effects : Effects)

def services : List String := SetOrder.iter (edges.flatMap fun e => [e.1, e.2])

theorem services_nodup : (services edges).Nodup := SetOrder.iter_nodup _

def callees (s : String) : List String :=
  SetOrder.iter ((edges.filter fun e => e.1 = s).map Prod.snd)

def neigh (s : String) : List String :=
  SetOrder.iter (edges.flatMap fun e =>
    (if e.1 = s then [e.2] else []) ++ (if e.2 = s then [e.1] else []))

def indeg (s : String) : ℕ := edges.countP fun e => e.2 = s

def isDemoted (s : String) : Bool := indeg edges s = 0 || s ∈ syntheticRoles

/-- The services whose effect of this family stepped. -/
def stepped (fam : Family) : List String :=
  (services edges).filter fun s => zf effects s fam ≥ zMin

/-- `sorted` by a tuple of numbers, and by name where those agree. -/
def sortedServices (key : String → List ℚ) : List String :=
  sortedBy (fun s => toLex (key s, s)) (services edges)

def stableOrder : List String :=
  sortedServices edges fun s => [-zTot effects s, indicator (isDemoted edges s)]

def resourceOrder : List String :=
  sortedServices edges fun s =>
    [-zf effects s .resource, indicator (s ∈ syntheticRoles), -zTot effects s]

section Coverage
variable [FloatArith]

/-- `sum(..) or 1.0`. -/
def latencyTotal : ℚ :=
  let total := FloatArith.sum ((stepped edges effects .latency).map fun s => zf effects s .latency)
  if total = 0 then 1 else total

/-- The share of the anomalous latency in the closed neighborhood of a service. -/
def coverage (s : String) : ℚ :=
  let around := SetOrder.iter
    ((stepped edges effects .latency).filter fun n => n = s ∨ n ∈ neigh edges s)
  div (FloatArith.sum (around.map fun n => zf effects n .latency)) (latencyTotal edges effects)

/-- `cov.get(s, 0.0)`. -/
def cov (s : String) : ℚ :=
  if s ∈ stepped edges effects .latency then coverage edges effects s else 0

def latencyOrder : List String :=
  let anom := stepped edges effects .latency
  let best := ((anom.map (coverage edges effects)).max?).getD 0
  sortedServices edges fun s =>
    [indicator (s ∉ anom), indicator (¬ cov edges effects s ≥ sub best (lit 0.05)),
      indicator (isDemoted edges s), -cov edges effects s, -zTot effects s]

end Coverage

/-- No callee of an anomalous service is anomalous itself. -/
def isDeepest (s : String) : Bool :=
  let anom := stepped edges effects .error
  s ∈ anom && !(callees edges s).any fun c => c ∈ anom

def callersOrder : List String :=
  sortedServices edges fun s =>
    [indicator (s ∉ stepped edges effects .error), indicator (¬ isDeepest edges effects s),
      indicator (isDemoted edges s), -zf effects s .error]

/-- The distress of a callee that passes traffic on without failing it. -/
def distress (s : String) : ℚ := max (zf effects s .latency) (zf effects s .resource)

def transit (deepest : String) : List String :=
  (callees edges deepest).filter fun c =>
    distress effects c ≥ zMin ∧ c ∉ stepped edges effects .error

/-- Callers of a lossy service fail while it only shows distress itself, so the
order descends one hop from the deepest failing caller. -/
def errorOrder : List String :=
  let order := callersOrder edges effects
  match order.head? with
  | none => order
  | some deepest =>
    if deepest ∈ stepped edges effects .error then
      match (transit edges effects deepest).argmax (distress effects) with
      | none => order
      | some origin => origin :: order.erase origin
    else order

/-- `_rank`. -/
def rank [FloatArith] : List String :=
  let (dom, domZ) := dominant effects (services edges)
  if domZ < zMin then stableOrder edges effects
  else
    match dom with
    | .resource => resourceOrder edges effects
    | .latency => latencyOrder edges effects
    | .error => errorOrder edges effects

end Ranking

section Resolve
variable [SetOrder] [FloatArith]

/-- The maintained edges of a system, if there is an artifact for it. -/
def staticSource (artifact : Option (List (String × String))) : Option Graph :=
  match artifact with
  | none | some [] => none
  | some edges => some { edges, source := "static" }

/-- The edges read off the spans, unless that failed. -/
def traceSource (spans : Option (List (String × String))) : Option Graph :=
  match spans with
  | none | some [] => none
  | some edges => some { edges, source := "trace" }

/-- `base.effects = ..` and the ranking on top of it. -/
def Graph.overlay (base : Graph) (store : TelemetryStore) (onset : ℤ) : Graph :=
  let effects := Dict.ofKeys (services base.edges) (services_nodup base.edges)
    fun s => onsetEffects store s onset
  { base with
    effects
    rankedServices := rank base.edges effects
    anomalous := ((services base.edges).filter fun s => zTot effects s ≥ zMin).insertionSort (· ≤ ·) }

/-- Static structure is preferred unless the live spans are asked for. -/
def resolveTopology (store : TelemetryStore) (artifact spans : Option (List (String × String)))
    (onset : ℤ) (preferTrace : Bool) : Graph :=
  let static := staticSource artifact
  let trace := traceSource spans
  let base := if preferTrace then trace.or static else static.or trace
  match base with
  | none => {}
  | some base => { base.overlay store onset with tracesPresent := trace.isSome }

end Resolve
end Sentinel.Oss
