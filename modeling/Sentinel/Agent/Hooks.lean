import Sentinel.Agent.Registry
import Sentinel.Python.Values

/-! The deterministic hooks of the agent loop. `preToolUse` may raise on inputs
whose values are not of the types a hook expects; only `postToolUse` changes the
run context. -/
namespace Sentinel.Agent
open Python

structure ToolCall where
  name : String
  input : Json

inductive DecisionAction where
  | allow | deny | modify
  deriving DecidableEq, Repr

structure ToolDecision where
  action : DecisionAction := .allow
  reason : String := ""
  modifiedInput : Option Json := none

/-- What the hooks use of a telemetry store. -/
structure Store where
  changeIds : Py (List String)

structure HookEvent where
  agent : String
  tool : String
  error : Bool

structure RunContext where
  store : Option Store := none
  agentId : String := "manager"
  maxToolCalls : Int := 60
  toolCalls : Int := 0
  redactions : ℕ := 0
  events : List HookEvent := []
  approvalToken : Option String := none

structure Hook where
  name : String
  preToolUse : ToolCall → RunContext → Py (Option ToolDecision) := fun _ _ => .ok none
  postToolUse : ToolCall → Json → RunContext → Py (Json × RunContext) := fun _ output ctx =>
    .ok (output, ctx)

/-- `json.loads`. -/
class JsonLoads where
  loads : List Char → Py Json

def hasError (output : Json) : Bool := output.isDict && (output.lookup "error").isSome

def deny (reason : String) : Option ToolDecision := some { action := .deny, reason }

section Seal
variable [FloatRepr]

def bannedTokens : List String :=
  ["feature_flag", "eval_only", "truth.json", "paymentFailure", "paymentUnreachable",
    "productCatalogFailure", "cartFailure", "adManualGc", "adHighCpu",
    "recommendationCacheFailure", "kafkaQueueProblems", "loadGeneratorFloodHomepage"]

def forbiddenInputRefs : List String := ["eval_only", "truth.json", "raw_flag"]

/-- Leak safety: denies inputs that name evaluation resources and redacts
banned tokens from outputs. -/
def sealGuard [JsonLoads] : Hook where
  name := "seal_guard"
  preToolUse call _ :=
    let blob := (dumps call.input).map Char.toLower
    match forbiddenInputRefs.find? fun ref => decide (ref.toList <:+: blob) with
    | some ref => .ok (deny s!"input references the forbidden resource '{ref}'; tools may read only public telemetry")
    | none => .ok none
  postToolUse _ output ctx :=
    let text := dumps output
    let redacted := bannedTokens.foldl
      (fun text token => replaceAll token.toList "[redacted]".toList text) text
    if redacted = text then .ok (output, ctx)
    else
      match JsonLoads.loads redacted with
      | .error e => .error e
      | .ok output => .ok (output, { ctx with redactions := ctx.redactions + 1 })

end Seal

/-- `_TERMINAL_TOOLS`. -/
def terminalTools : List String := ["report_root_cause", "report_finding", "report_change_verdict"]

/-- Runaway control: past the budget only the report tools pass. -/
def budgetGuard : Hook where
  name := "budget_guard"
  preToolUse call ctx :=
    if call.name ∈ terminalTools then .ok none
    else if ctx.toolCalls ≥ ctx.maxToolCalls then
      .ok (deny ("tool-call budget of " ++ toString ctx.maxToolCalls ++
        " reached; conclude now by calling report_root_cause with your best current conclusion"))
    else .ok none

/-- `{c.id for c in store.list_changes()}`. -/
def knownChanges (store : Option Store) : Py (List String) :=
  match store with
  | none => .ok []
  | some store => store.changeIds.map List.dedup

def isText (v : Json) (text : String) : Bool := v.pyEq (.str text)

/-- `report_issues`. -/
def reportIssues [FloatRepr] (reportInput : Json) (store : Option Store) : Py (List String) := do
  let rc := (← reportInput.get "root_cause").orEmptyDict
  let kind ← rc.get "kind"
  let serviceIssue :=
    if isText kind "service" && !((rc.lookup "service").getD .null).truthy then
      ["root_cause kind=service requires a service"] else []
  let edgeIssue :=
    if isText kind "edge" && !(((rc.lookup "caller").getD .null).truthy &&
        ((rc.lookup "callee").getD .null).truthy) then
      ["root_cause kind=edge requires caller and callee"] else []
  let kindIssue :=
    if !(isText kind "service" || isText kind "edge") then
      ["root_cause kind must be 'service' or 'edge'"] else []
  let culprit ← reportInput.get "culprit_change_id"
  let known ← knownChanges store
  let culpritIssue ←
    if !culprit.truthy then
      -- a null culprit is valid only where there are no changes
      pure (if known.isEmpty then [] else ["culprit_change_id is empty"])
    else if store.isNone then pure []
    else if !culprit.hashable then throw culprit.unhashable
    else
      pure (if known.any (isText culprit) then []
        else ["culprit_change_id " ++ culprit.display ++ " is not a known change"])
  let ruledOut := (← reportInput.get "ruled_out_change_ids").orEmptyList
  let bothIssue ←
    if culprit.truthy then
      (do pure (if ← culprit.isIn ruledOut then
        ["culprit_change_id also appears in ruled_out_change_ids"] else []))
    else pure []
  pure (serviceIssue ++ edgeIssue ++ kindIssue ++ culpritIssue ++ bothIssue)

/-- `finding_issues`. -/
def findingIssues (findingInput : Json) : Py (List String) := do
  let service ← findingInput.get "service"
  let isOrigin ← findingInput.get "is_origin"
  let evidence ← findingInput.get "evidence"
  let faultType ← findingInput.get "fault_type"
  pure ((if service.truthy then [] else ["service is required"]) ++
    (if isOrigin.truthy && !evidence.truthy then
      ["is_origin=true requires at least one evidence line"] else []) ++
    (if isOrigin.truthy && !faultType.truthy then ["is_origin=true requires a fault_type"] else []))

/-- Denies a malformed final report or an incomplete finding. -/
def reportGate [FloatRepr] : Hook where
  name := "report_gate"
  preToolUse call ctx :=
    let issues :=
      if call.name = "report_root_cause" then reportIssues call.input ctx.store
      else if call.name = "report_finding" then findingIssues call.input
      else .ok []
    match issues with
    | .error e => .error e
    | .ok [] => .ok none
    | .ok issues =>
      .ok (deny ("report not ready: " ++ "; ".intercalate issues ++ ". Fix and resubmit."))

/-- Denies a final report that leaves a known change unaccounted. -/
def decoyCompletenessGate : Hook where
  name := "decoy_completeness_gate"
  preToolUse call ctx :=
    if call.name ≠ "report_root_cause" || ctx.store.isNone then .ok none
    else do
      let known ← knownChanges ctx.store
      let culprit ← call.input.get "culprit_change_id"
      let ruledOut ← (← call.input.get "ruled_out_change_ids").orEmptyList.toSet
      if !culprit.hashable then throw culprit.unhashable
      let missing := (known.filter fun id =>
        !isText culprit id && !(ruledOut.any fun r => isText r id)).insertionSort (· ≤ ·)
      if missing.isEmpty then pure none
      else pure (deny ("report incomplete: account for every known change. Missing from " ++
        "ruled_out_change_ids: " ++ ", ".intercalate missing ++ ". Rule them out and resubmit."))

/-- Records every tool call. -/
def observer : Hook where
  name := "observer"
  postToolUse call output ctx :=
    .ok (output, { ctx with events := ctx.events ++ [⟨ctx.agentId, call.name, hasError output⟩] })

/-- Checks findings when a subagent stops; it does not look at tool calls. -/
def findingValidator : Hook where
  name := "finding_validator"

def defaultHooks [FloatRepr] [JsonLoads] : List Hook :=
  [sealGuard, budgetGuard, reportGate, observer, findingValidator]

/-- `HookRunner.pre_tool_use`: the first denial wins, later modifications
replace earlier ones. -/
def preToolUse (hooks : List Hook) (call : ToolCall) (ctx : RunContext)
    (decision : ToolDecision) : Py ToolDecision :=
  match hooks with
  | [] => .ok decision
  | hook :: rest =>
    match hook.preToolUse call ctx with
    | .error e => .error e
    | .ok none => preToolUse rest call ctx decision
    | .ok (some result) =>
      match result.action with
      | .deny => .ok result
      | .modify => preToolUse rest call ctx result
      | .allow => preToolUse rest call ctx decision

/-- `HookRunner.post_tool_use`. -/
def postToolUse (hooks : List Hook) (call : ToolCall) (output : Json) (ctx : RunContext) :
    Py (Json × RunContext) :=
  match hooks with
  | [] => .ok (output, ctx)
  | hook :: rest =>
    match hook.postToolUse call output ctx with
    | .error e => .error e
    | .ok (output, ctx) => postToolUse rest call output ctx

/-- The input a call is dispatched with after the hooks decided on it. -/
def ToolDecision.chosenInput (decision : ToolDecision) (call : ToolCall) : Json :=
  match decision.action, decision.modifiedInput with
  | .modify, some input => input
  | _, _ => call.input

end Sentinel.Agent
