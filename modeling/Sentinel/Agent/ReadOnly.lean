import Sentinel.Agent.Agents
import Sentinel.Agent.LoopProofs
import Sentinel.Python.JsonProofs
import Sentinel.Sandbox.Rpc

/-! Which tool bodies an agent can reach. The loop dispatches any name the model
writes, so a loop stays within its exposed read tools exactly when its registry
holds no other tool that a call could get past the hooks and the input model. -/
namespace Sentinel.Agent
open Python

/-- Hooks that only pass or deny. -/
def Gates (hooks : List Hook) : Prop :=
  ∀ hook ∈ hooks, ∀ call ctx result, hook.preToolUse call ctx = .ok (some result) →
    result.action = .deny

theorem preToolUse_gates {hooks : List Hook} (gates : Gates hooks) (call : ToolCall)
    (ctx : RunContext) (start : ToolDecision) :
    (∃ decision, preToolUse hooks call ctx start = .ok decision ∧ decision.action ≠ .deny) →
      preToolUse hooks call ctx start = .ok start ∧
        ∀ hook ∈ hooks, hook.preToolUse call ctx = .ok none := by
  induction hooks with
  | nil => simp [preToolUse]
  | cons hook rest ih =>
    rintro ⟨decision, decided, passed⟩
    simp only [preToolUse] at decided ⊢
    cases answer : hook.preToolUse call ctx with
    | error e => simp [answer] at decided
    | ok result =>
      cases result with
      | none =>
        simp only [answer] at decided ⊢
        obtain ⟨same, others⟩ := ih (fun h member => gates h (by simp [member])) ⟨decision, decided, passed⟩
        exact ⟨same, by simpa [answer] using others⟩
      | some result =>
        have denied := gates hook (by simp) call ctx result answer
        simp only [answer, denied, Except.ok.injEq] at decided
        subst decided
        exact absurd denied passed

theorem preToolUse_of_none {hooks : List Hook} {call : ToolCall} {ctx : RunContext}
    (start : ToolDecision) (passes : ∀ hook ∈ hooks, hook.preToolUse call ctx = .ok none) :
    preToolUse hooks call ctx start = .ok start := by
  induction hooks with
  | nil => rfl
  | cons hook rest ih =>
    simp only [preToolUse, passes hook (by simp)]
    exact ih fun h member => passes h (by simp [member])

theorem passes_iff {hooks : List Hook} (gates : Gates hooks) {call : ToolCall} {ctx : RunContext}
    {input : Json} :
    Passes hooks ctx call input ↔
      (∀ hook ∈ hooks, hook.preToolUse call ctx = .ok none) ∧ input = call.input := by
  constructor
  · rintro ⟨decision, decided, passed, rfl⟩
    obtain ⟨same, all⟩ := preToolUse_gates gates call ctx {} ⟨decision, decided, passed⟩
    obtain rfl := Except.ok.inj (decided.symm.trans same)
    exact ⟨all, rfl⟩
  · rintro ⟨all, rfl⟩
    exact ⟨{}, preToolUse_of_none {} all, by decide, rfl⟩

section
variable [FloatRepr] [JsonLoads]

theorem defaultHooks_gate : Gates defaultHooks := by
  intro hook member call ctx result answer
  simp only [defaultHooks, List.mem_cons, List.not_mem_nil, or_false] at member
  rcases member with rfl | rfl | rfl | rfl | rfl
  · simp only [sealGuard] at answer
    split at answer <;> cases answer
    rfl
  · simp only [budgetGuard] at answer
    split at answer
    · cases answer
    · split at answer <;> cases answer
      rfl
  · simp only [reportGate] at answer
    split at answer <;> cases answer
    rfl
  · cases answer
  · cases answer

/-- The context later in the same run: no hook touches the store or the budget,
and the calls made only grow. -/
structure Later (start ctx : RunContext) : Prop where
  store : ctx.store = start.store
  budget : ctx.maxToolCalls = start.maxToolCalls
  calls : start.toolCalls ≤ ctx.toolCalls

theorem defaultHooks_post {call : ToolCall} {output out : Json} {ctx ctx' : RunContext}
    (posted : postToolUse defaultHooks call output ctx = .ok (out, ctx')) :
    ctx'.store = ctx.store ∧ ctx'.maxToolCalls = ctx.maxToolCalls ∧
      ctx'.toolCalls = ctx.toolCalls := by
  simp only [postToolUse, defaultHooks, sealGuard, budgetGuard, reportGate, observer,
    findingValidator] at posted
  split at posted
  · cases posted
  · rename_i output' sealed redacted
    split at redacted
    · cases redacted
      cases posted
      exact ⟨rfl, rfl, rfl⟩
    · split at redacted <;> cases redacted
      cases posted
      exact ⟨rfl, rfl, rfl⟩

theorem Later.next {start ctx ctx' : RunContext} {call : ToolCall} {output out : Json}
    (later : Later start ctx)
    (posted : postToolUse defaultHooks call output ctx = .ok (out, ctx')) :
    Later start { ctx' with toolCalls := ctx'.toolCalls + 1 } := by
  obtain ⟨store, budget, calls⟩ := defaultHooks_post posted
  have before := later.calls
  exact ⟨store.trans later.store, budget.trans later.budget, by simp only; omega⟩

/-- What passes the default hooks later in a run passes them at its start. -/
theorem Later.passes {start ctx : RunContext} (later : Later start ctx) {call : ToolCall}
    (passes : ∀ hook ∈ defaultHooks, hook.preToolUse call ctx = .ok none) :
    ∀ hook ∈ defaultHooks, hook.preToolUse call start = .ok none := by
  intro hook member
  have passed := passes hook member
  simp only [defaultHooks, List.mem_cons, List.not_mem_nil, or_false] at member
  rcases member with rfl | rfl | rfl | rfl | rfl
  · exact passed
  · simp only [budgetGuard] at passed ⊢
    split at passed
    · rw [if_pos ‹_›]
    · rename_i tool
      rw [if_neg tool]
      split at passed
      · cases passed
      · rename_i within
        have calls := later.calls
        have budget := later.budget
        rw [if_neg (by omega)]
  · simp only [reportGate] at passed ⊢
    rwa [later.store] at passed
  · exact passed
  · exact passed

/-- Some object input gets a call of `spec` past the hooks of a fresh run and
past the tool's own input model. -/
def Callable (settings : Settings) (spec : ToolSpec) : Prop :=
  ∃ fields params, (∀ hook ∈ defaultHooks,
      hook.preToolUse ⟨spec.name, .dict fields⟩ settings.context = .ok none) ∧
    spec.inputModel.validate (.dict fields) = .ok params

/-- The agent's loop would hand a call of `spec` to the registry. -/
def LoopAgent.Dispatches (agent : LoopAgent) (registry : ToolRegistry) (spec : ToolSpec) : Prop :=
  registry.specs.get? spec.name = some spec ∧ spec.name ≠ agent.terminalTool ∧
    spec.name ∉ agent.intercepted

/-- The tool is shown to the agent and only reads. -/
def LoopAgent.Allowed (agent : LoopAgent) (registry : ToolRegistry) (spec : ToolSpec) : Prop :=
  spec ∈ registry.selected (agent.toolNames registry) ∧ spec.effect = .read

theorem dispatch_allowed {agent : LoopAgent} {registry : ToolRegistry} {settings : Settings}
    {create : List ToolSchema → List Message → Py Response}
    (clean : ∀ spec, agent.Dispatches registry spec → Callable settings spec →
      agent.Allowed registry spec) :
    LoopInvariant (agent.config registry settings create) (agent.dispatch registry settings)
      (Later settings.context) (fun reached => ∀ spec ∈ reached, agent.Allowed registry spec) where
  keeps _ _ _ _ _ later posted := later.next posted
  preserves name fields input ctx reached later other passes allowed := by
    obtain ⟨passed, rfl⟩ := (passes_iff defaultHooks_gate).mp passes
    unfold LoopAgent.dispatch
    split
    · exact allowed
    · rename_i direct
      intro spec member
      rcases List.mem_append.mp member with earlier | new
      · exact allowed spec earlier
      · obtain ⟨found, params, valid⟩ :=
          ToolRegistry.dispatch_reached_iff.mp (Option.mem_toList.mp new)
        obtain rfl := registry.named name spec found
        exact clean spec ⟨found, other, direct⟩ ⟨fields, params, later.passes passed, valid⟩

/-- A loop stays within its exposed read tools, whatever the model answers,
exactly when it makes no iteration or every registered tool that it dispatches
and that can be called is such a tool. Sandboxed code always does. -/
theorem reached_readOnly_iff (registry : ToolRegistry) :
    (∀ (agent : LoopAgent) (settings : Settings),
      (∀ create, ∀ spec ∈ (agent.run registry settings create).2, agent.Allowed registry spec) ↔
        settings.maxIters = 0 ∨ ∀ spec, agent.Dispatches registry spec → Callable settings spec →
          agent.Allowed registry spec) ∧
    ∀ (ctx : RunContext) (tool args : Json) (spec : ToolSpec),
      ((Sandbox.codeHandler registry).handle ctx tool args).reached = some spec →
        spec ∈ Sandbox.codeToolSpecs registry ∧ spec.effect = .read := by
  constructor
  · intro agent settings
    constructor
    · intro stays
      by_cases iterates : settings.maxIters = 0
      · exact .inl iterates
      · right
        rintro spec ⟨found, other, direct⟩ ⟨fields, params, passed, valid⟩
        apply stays (insist spec.name (.dict fields)) spec
        refine runLoop_insist (P := fun reached => spec ∈ reached) rfl iterates other
          ((passes_iff defaultHooks_gate).mpr ⟨passed, rfl⟩) ?_ ?_
        · simp only [LoopAgent.dispatch, if_neg direct]
          have reached := ToolRegistry.dispatch_reached_iff.mpr ⟨found, params, valid⟩
          simp [reached]
        · intro name input reached member
          unfold LoopAgent.dispatch
          split
          · exact member
          · exact List.mem_append_left _ member
    · rintro (none | clean) create
      · simp [LoopAgent.run, runLoop, LoopAgent.config, none, runIterations]
      · exact runLoop_invariant (dispatch_allowed clean) ⟨rfl, rfl, by simp⟩ (by simp)
  · intro ctx tool args spec reached
    have exposed := Sandbox.handle_reached reached
    exact ⟨exposed, Sandbox.codeToolSpecs_read exposed⟩

end

section Samples
attribute [local instance] fractionRepr

/-- A short manager run without a store. -/
def managerSettings : Settings where
  agentId := "manager"
  store := none
  initialUser := "checkout is failing"
  terminalModel := restartTool.inputModel
  maxIters := 1
  outputBudget := 1000
  maxToolCalls := 60
  spawn _ _ := .error ⟨"KeyError", "'service'", false⟩

/-- A manager that sees a mutating tool runs it. -/
theorem reached_mutating : ¬ ∀ (_ : JsonLoads) (registry : ToolRegistry) (agent : LoopAgent)
    (settings : Settings) (create : List ToolSchema → List Message → Py Response),
    ∀ spec ∈ (agent.run registry settings create).2, agent.Allowed registry spec := by
  intro stays
  -- no output is redacted here, so nothing is parsed back
  let _ : JsonLoads := ⟨fun _ => .error ⟨"JSONDecodeError", "", false⟩⟩
  have ran : (LoopAgent.manager.run actionRegistry managerSettings
    (insist "restart_service" (.dict []))).2 = [restartTool] := rfl
  have allowed := stays inferInstance actionRegistry .manager managerSettings
    (insist "restart_service" (.dict [])) restartTool (by simp [ran])
  exact absurd allowed.2 (by decide)

end Samples

end Sentinel.Agent
