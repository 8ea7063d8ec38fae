import Sentinel.Actions.Models
import Sentinel.Python.Exn

/-! Executors render an action's concrete operation and run it. What the
injected callables of the live executor do during one call is an arbitrary
environment: each may return or raise. -/
namespace Sentinel.Actions
open Python

structure Outcome where
  ok : Bool
  before : Json := .null
  after : Json := .null
  durationS : ℚ := 0
  error : String := ""

def Outcome.record (outcome : Outcome) : ResultRecord :=
  ⟨outcome.ok, outcome.before, outcome.after, outcome.durationS, outcome.error⟩

structure Executor where
  backend : String
  render : SuggestedAction → Py String
  execute : SuggestedAction → Py Outcome

def ParamValue.format : ParamValue → String
  | .str s => s
  | .int n => toString n

def replicas (action : SuggestedAction) : ParamValue :=
  (action.params.get? "replicas").getD (.int 2)

/-- `_concrete_op`. -/
def concreteOp (action : SuggestedAction) : String :=
  let svc := action.targetService
  match action.kind with
  | .restart => s!"docker compose restart {svc}"
  | .scale => s!"docker compose up -d --scale {svc}=" ++ (replicas action).format
  | .removeImpairment => s!"clear injected fault on {svc} (kill pumba/stress for {svc})"
  | .revertChange => s!"revert last change on {svc}"
  | .openTicket => s!"open incident ticket for {svc}: {action.description}"
  | .pageOncall => s!"page on-call for {svc}: {action.description}"

/-- `DryRunExecutor`, with the time its call takes. -/
def dryRunExecutor (elapsed : ℚ) : Executor where
  backend := "dry_run"
  render action := .ok (concreteOp action)
  execute _ := .ok
    { ok := true, before := .dict [("state", .str "impaired")],
      after := .dict [("state", .str "would_recover")], durationS := elapsed }

/-- `_container_of`. -/
def containerOf (service : String) : String :=
  (([("email", "email"), ("adservice", "ad"), ("ad", "ad"),
    ("productcatalog", "product-catalog")] : List (String × String)).lookup service).getD service

/-- What the callables injected into `LiveExecutor` do during one `execute`. The
health reader is called twice and may answer differently. -/
structure LiveEnv where
  healthBefore : String → Py (Option ℚ)
  healthAfter : String → Py (Option ℚ)
  flagReset : Py Unit
  restart : String → Py Unit
  -- `int(replicas)` and the compose call
  scale : String → ParamValue → Py Unit
  sleep : ℚ → Py Unit
  settleS : ℚ := 60
  elapsed : ℚ := 0

/-- The operation of the kinds the live executor can run. -/
def LiveEnv.operate (env : LiveEnv) (action : SuggestedAction) : Option (Py Unit) :=
  match action.kind with
  | .removeImpairment => some env.flagReset
  | .restart => some (env.restart (containerOf action.targetService))
  | .scale => some (env.scale (containerOf action.targetService) (replicas action))
  | _ => none

def recovered : Option ℚ → Option ℚ → Bool
  | some before, some after => after < before / 2
  | _, _ => false

/-- `LiveExecutor.execute`. Only the operation itself stands inside its `try`. -/
def LiveEnv.execute (env : LiveEnv) (action : SuggestedAction) : Py Outcome := do
  let before ← env.healthBefore action.targetService
  match env.operate action with
  | none => .ok { ok := false, error := "live executor cannot run kind=" ++ action.kind.text }
  | some (.error e) =>
    if e.base then .error e
    else .ok { ok := false, before := .ofOption before, durationS := env.elapsed,
               error := s!"{e.type}: {e.message}" }
  | some (.ok ()) =>
    let _ ← env.sleep env.settleS
    let after ← env.healthAfter action.targetService
    .ok { ok := true, before := .ofOption before, after := .ofOption after,
          durationS := env.elapsed,
          error := if recovered before after || before.isNone then ""
            else "applied; recovery not yet confirmed" }

def liveExecutor (env : LiveEnv) : Executor where
  backend := "live"
  render action := .ok (concreteOp action)
  execute := env.execute

end Sentinel.Actions
