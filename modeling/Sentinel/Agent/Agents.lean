import Sentinel.Agent.Loop

/-! The agents that run the loop. Each is shown the schemas of its tool names, but
its dispatch looks tools up in the whole registry; the manager's also intercepts
the tools that spawn investigators. -/
namespace Sentinel.Agent
open Python

def analysisNamespaces : List String :=
  ["traces", "metrics", "logs", "changes", "correlate", "topology", "hypothesis"]

def workerTerminals : List String := ["report_finding", "report_change_verdict"]

def investigatorToolNames (registry : ToolRegistry) : List String :=
  ((registry.sortedSpecs.filter fun s => s.namespace ∈ analysisNamespaces).map ToolSpec.name) ++
    ["report_finding"]

def changeInvestigatorToolNames (registry : ToolRegistry) : List String :=
  ((registry.sortedSpecs.filter fun s =>
    s.namespace ∈ ["changes", "traces", "metrics", "correlate"]).map ToolSpec.name) ++
    ["report_change_verdict"]

def managerToolNames (registry : ToolRegistry) : List String :=
  (registry.sortedSpecs.filter fun s => s.name ∉ workerTerminals).map ToolSpec.name

inductive LoopAgent where
  | manager | investigator | changeInvestigator
  deriving DecidableEq, Repr

namespace LoopAgent

def toolNames (registry : ToolRegistry) : LoopAgent → List String
  | manager => managerToolNames registry
  | investigator => investigatorToolNames registry
  | changeInvestigator => changeInvestigatorToolNames registry

def terminalTool : LoopAgent → String
  | manager => "report_root_cause"
  | investigator => "report_finding"
  | changeInvestigator => "report_change_verdict"

/-- The tools a dispatch runs itself, without the registry. -/
def intercepted : LoopAgent → List String
  | manager => ["investigate_service", "investigate_parallel", "investigate_change"]
  | _ => []

end LoopAgent

/-- What a run is given besides the model: `spawn` is what the runtime returns for
an intercepted tool. -/
structure Settings where
  agentId : String
  store : Option Store
  initialUser : String
  terminalModel : InputModel
  maxIters : ℕ
  outputBudget : Int
  maxToolCalls : Int
  spawn : String → Json → Py Json

/-- The bodies run so far are the world of an agent's loop. -/
def LoopAgent.dispatch (agent : LoopAgent) (registry : ToolRegistry) (settings : Settings)
    (name : String) (input : Json) (reached : List ToolSpec) : Py Json × List ToolSpec :=
  if name ∈ agent.intercepted then (settings.spawn name input, reached)
  else
    let dispatched := registry.dispatch name input
    (dispatched.result, reached ++ dispatched.reached.toList)

def Settings.context (settings : Settings) : RunContext :=
  { store := settings.store, agentId := settings.agentId, maxToolCalls := settings.maxToolCalls }

section
variable [FloatRepr] [JsonLoads]

def LoopAgent.config (agent : LoopAgent) (registry : ToolRegistry) (settings : Settings)
    (create : List ToolSchema → List Message → Py Response) : LoopConfig :=
  { create
    toolsSchema := registry.anthropicSchemas (agent.toolNames registry)
    initialUser := settings.initialUser
    terminalTool := agent.terminalTool
    terminalModel := settings.terminalModel
    hooks := defaultHooks
    maxIters := settings.maxIters
    outputBudget := settings.outputBudget }

/-- `run_manager`, `run_investigator` or `run_change_investigator`, up to what is
made of the loop's result. -/
def LoopAgent.run (agent : LoopAgent) (registry : ToolRegistry) (settings : Settings)
    (create : List ToolSchema → List Message → Py Response) : Py LoopResult × List ToolSpec :=
  runLoop (agent.config registry settings create) (agent.dispatch registry settings)
    settings.context []

end

end Sentinel.Agent
