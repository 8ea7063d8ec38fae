import Sentinel.Agent.Budget
import Sentinel.Agent.Redaction
import Sentinel.Sandbox.Rpc

/-! The tool-call budget of proxied calls. The handlers of one investigation share
a context; each answered dispatch counts, and one that raises does not. -/
namespace Sentinel.Sandbox
open Python Agent

section
variable [FloatRepr]

/-- The tool that the handler dispatches for a call, if any. -/
def RpcHandler.dispatches (handler : RpcHandler) (ctx : RunContext) (tool args : Json) :
    Option String :=
  match tool with
  | .str name =>
    if name ∉ handler.allowed then none
    else
      match preToolUse handler.hooks ⟨name, if args.isDict then args else .dict []⟩ ctx {} with
      | .error _ => none
      | .ok decision => if decision.action = .deny then none else some name
  | _ => none

/-- A call as `handle` leaves it once the hooks let it through: the dispatch or a hook
raised, or the answer was counted. -/
inductive RpcHandler.Ran (handler : RpcHandler) (ctx : RunContext) (call : ToolCall) :
    Handled → Prop where
  | raised {e reached} : Ran handler ctx call { reply := .error e, ctx, reached }
  | answered {out out' ctx' reached} : postToolUse handler.hooks call out ctx = .ok (out', ctx') →
      Ran handler ctx call
        { reply := .ok (replyOf out'), ctx := { ctx' with toolCalls := ctx'.toolCalls + 1 }, reached }

theorem handle_undispatched {handler : RpcHandler} {ctx : RunContext} {tool args : Json}
    (idle : handler.dispatches ctx tool args = none) :
    (handler.handle ctx tool args).ctx = ctx ∧ (handler.handle ctx tool args).reached = none := by
  simp only [RpcHandler.handle]
  split
  · exact ⟨rfl, rfl⟩
  · split
    · simp only [RpcHandler.dispatches] at idle
      split
      · exact ⟨rfl, rfl⟩
      · rename_i allowed
        rw [if_neg allowed] at idle
        split
        · exact ⟨rfl, rfl⟩
        · rename_i decided
          rw [decided] at idle
          split
          · exact ⟨rfl, rfl⟩
          · rename_i passed
            simp [passed] at idle
    · exact ⟨rfl, rfl⟩

theorem handle_dispatched {handler : RpcHandler} {ctx : RunContext} {tool args : Json}
    {name : String} (made : handler.dispatches ctx tool args = some name) :
    ∃ call input, call.name = name ∧ Passes handler.hooks ctx call input ∧
      (handler.handle ctx tool args).reached = (handler.registry.dispatch name input).reached ∧
      handler.Ran ctx call (handler.handle ctx tool args) := by
  cases tool with
  | str asked =>
    simp only [RpcHandler.dispatches] at made
    split at made
    · cases made
    · rename_i allowed
      cases decided : preToolUse handler.hooks
          ⟨asked, if args.isDict then args else .dict []⟩ ctx {} with
      | error e => simp [decided] at made
      | ok decision =>
        rw [decided] at made
        by_cases denied : decision.action = .deny
        · simp [denied] at made
        · simp only [if_neg denied, Option.some.injEq] at made
          subst made
          refine ⟨_, _, rfl, ⟨decision, decided, denied, rfl⟩, ?_⟩
          simp only [RpcHandler.handle, Json.hashable, Bool.not_true, Bool.false_eq_true, if_false,
            if_neg allowed, decided, if_neg denied]
          split
          · exact ⟨rfl, .raised⟩
          · split
            · exact ⟨rfl, .raised⟩
            · exact ⟨rfl, .answered ‹_›⟩
  | _ => cases made

/-- A proxied call, with the tools as they are when it arrives. -/
structure RpcCall where
  registry : ToolRegistry
  tool : Json
  args : Json

def RpcHandler.at (handler : RpcHandler) (call : RpcCall) : RpcHandler :=
  { handler with registry := call.registry }

/-- The dispatches that were answered, over a sequence of calls on one context. -/
def RpcHandler.answered (handler : RpcHandler) : List RpcCall → RunContext → List String
  | [], _ => []
  | call :: rest, ctx =>
    let handled := (handler.at call).handle ctx call.tool call.args
    (if handled.reply.isOk then ((handler.at call).dispatches ctx call.tool call.args).toList
      else []) ++ handler.answered rest handled.ctx

theorem answered_budget {handler : RpcHandler} (guarded : budgetGuard ∈ handler.hooks)
    (steady : ∀ hook ∈ handler.hooks, hook.Steady) (calls : List RpcCall) (ctx : RunContext) :
    (spent (handler.answered calls ctx) : ℤ) ≤ max 0 (ctx.maxToolCalls - ctx.toolCalls) := by
  induction calls generalizing ctx with
  | nil => simp [RpcHandler.answered, spent]
  | cons call rest ih =>
    simp only [RpcHandler.answered]
    cases made : (handler.at call).dispatches ctx call.tool call.args with
    | none => simpa [(handle_undispatched made).1] using ih ctx
    | some name =>
      obtain ⟨_, input, rfl, passes, -, ran⟩ := handle_dispatched made
      generalize (handler.at call).handle ctx call.tool call.args = handled at ran ⊢
      cases ran with
      | raised => simpa [Except.isOk, Except.toBool] using ih ctx
      | @answered out out' ctx' reached posted =>
        obtain ⟨calls', cap⟩ := postToolUse_steady steady posted
        have later := ih { ctx' with toolCalls := ctx'.toolCalls + 1 }
        simp only [Except.isOk, Except.toBool, if_true, Option.toList_some, spent_append,
          spent_singleton]
        dsimp only at later
        split
        · omega
        · rename_i other
          have := budget_left guarded passes other
          omega

/-- No run dispatches more calls than the budget has left, apart from the report tools,
which the guard always allows; of the calls that sandboxed code makes, those that were
answered count. -/
theorem tool_call_budget {hooks : List Hook} (guarded : budgetGuard ∈ hooks)
    (steady : ∀ hook ∈ hooks, hook.Steady) (ctx : RunContext) :
    (∀ (σ : Type) (config : LoopConfig) (dispatch : String → Json → σ → Py Json × σ) (world : σ),
      config.hooks = hooks →
        runLoop config dispatch ctx world =
          ((runLoop config (recorded dispatch) ctx (world, [])).1,
            (runLoop config (recorded dispatch) ctx (world, [])).2.1) ∧
        (spent (runLoop config (recorded dispatch) ctx (world, [])).2.2 : ℤ) ≤
          max 0 (ctx.maxToolCalls - ctx.toolCalls)) ∧
      ∀ (handler : RpcHandler) (calls : List RpcCall), handler.hooks = hooks →
        (spent (handler.answered calls ctx) : ℤ) ≤ max 0 (ctx.maxToolCalls - ctx.toolCalls) := by
  constructor
  · rintro σ config dispatch world rfl
    exact ⟨runLoop_recorded config dispatch ctx world, runLoop_budget guarded steady dispatch ctx world⟩
  · rintro handler calls rfl
    exact answered_budget guarded steady calls ctx

end

section Sample
attribute [local instance] fractionRepr fractionReader jsonLoads

/-- A manager that may call one tool and asks for another report than its own. -/
def insistentLoop : LoopConfig where
  create := insist "report_change_verdict" (.dict [])
  toolsSchema := []
  initialUser := "checkout is failing"
  terminalTool := "report_root_cause"
  terminalModel := ⟨fun _ => .error [], fun _ => "", .null, []⟩
  hooks := defaultHooks
  maxIters := 2
  outputBudget := 1000

/-- A tool that never fails. -/
def emptyAnswer : String → Json → Unit → Py Json × Unit := fun _ _ world => (.ok (.dict []), world)

theorem report_tool_over_budget :
    ¬ ((runLoop insistentLoop (recorded emptyAnswer) { maxToolCalls := 1 } ((), [])).2.2.length : ℤ) ≤
      1 := by
  decide +kernel

/-- A manager that keeps asking for a metric. -/
def curiousLoop : LoopConfig :=
  { insistentLoop with create := insist "metrics_names" (.dict []), maxIters := 3 }

/-- The first call spends the budget, and the other two are denied. -/
theorem tool_call_budget_one :
    (budgetGuard ∈ defaultHooks ∧ ∀ hook ∈ defaultHooks, hook.Steady) ∧
      (spent (runLoop curiousLoop (recorded emptyAnswer) { maxToolCalls := 1 } ((), [])).2.2 : ℤ) =
        max 0 (1 - 0) := by
  have guarded : budgetGuard ∈ defaultHooks := by simp [defaultHooks]
  have steady : ∀ hook ∈ defaultHooks, hook.Steady := fun hook member =>
    hooks_steady hook (by simp [member])
  have bounded := ((tool_call_budget guarded steady { maxToolCalls := 1 }).1 Unit
    curiousLoop emptyAnswer () rfl).2
  have reached : max 0 (1 - 0) ≤ (spent (runLoop curiousLoop (recorded emptyAnswer)
      { maxToolCalls := 1 } ((), [])).2.2 : ℤ) := by
    decide +kernel
  exact ⟨⟨guarded, steady⟩, le_antisymm bounded reached⟩

end Sample

end Sentinel.Sandbox
