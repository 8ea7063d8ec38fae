import Sentinel.Agent.Hooks

/-! The host endpoint for calls of sandboxed code. Only read tools are callable;
the inner hooks run on one context shared by the whole investigation. -/
namespace Sentinel.Sandbox
open Python Agent

def codeTerminals : List String := ["report_root_cause", "report_finding", "report_change_verdict"]

def codeToolSpecs (registry : ToolRegistry) : List ToolSpec :=
  registry.sortedSpecs.filter fun spec =>
    spec.effect = .read && spec.name ∉ codeTerminals && !"investigate_".isPrefixOf spec.name

structure RpcHandler where
  registry : ToolRegistry
  hooks : List Hook
  allowed : List String

/-- What one call answers, the context it leaves and the body it ran. -/
structure Handled where
  reply : Py Json
  ctx : RunContext
  reached : Option ToolSpec := none

def refusal (code message : String) : Json :=
  .dict [("ok", .bool false), ("error", .dict [("code", .str code), ("message", .str message)])]

def replyOf (out : Json) : Json :=
  if hasError out then .dict [("ok", .bool false), ("error", (out.lookup "error").getD .null)]
  else .dict [("ok", .bool true), ("result", out)]

/-- `RpcHandler.handle`. The tool is whatever the code sent. -/
def RpcHandler.handle [FloatRepr] (handler : RpcHandler) (ctx : RunContext) (tool args : Json) :
    Handled :=
  if !tool.hashable then { reply := .error tool.unhashable, ctx }
  else
    match tool with
    | .str name =>
      if name ∉ handler.allowed then
        { reply := .ok (refusal "unknown_tool" ("unknown tool: " ++ name)), ctx }
      else
        let call : ToolCall := ⟨name, if args.isDict then args else .dict []⟩
        match preToolUse handler.hooks call ctx {} with
        | .error e => { reply := .error e, ctx }
        | .ok decision =>
          if decision.action = .deny then { reply := .ok (refusal "blocked" decision.reason), ctx }
          else
            let dispatched := handler.registry.dispatch name (decision.chosenInput call)
            match dispatched.result with
            | .error e => { reply := .error e, ctx, reached := dispatched.reached }
            | .ok out =>
              match postToolUse handler.hooks call out ctx with
              | .error e => { reply := .error e, ctx, reached := dispatched.reached }
              | .ok (out, ctx) =>
                { reply := .ok (replyOf out), ctx := { ctx with toolCalls := ctx.toolCalls + 1 }
                  reached := dispatched.reached }
    | other =>
      { reply := .ok (refusal "unknown_tool" ("unknown tool: " ++ other.display)), ctx }

/-- A tool that is no possible member of a set makes the handler raise. -/
theorem handle_unhashable [FloatRepr] (handler : RpcHandler) (ctx : RunContext) {tool : Json}
    (args : Json) (unhashable : tool.hashable = false) :
    (handler.handle ctx tool args).reply = .error tool.unhashable := by
  simp [RpcHandler.handle, unhashable]

/-- The handler of the code agent. -/
def codeHandler [FloatRepr] [JsonLoads] (registry : ToolRegistry) : RpcHandler where
  registry := registry
  hooks := [sealGuard, budgetGuard, observer]
  allowed := (codeToolSpecs registry).map ToolSpec.name

/-- Sandboxed code reaches only the read tools it was given. -/
theorem handle_reached [FloatRepr] [JsonLoads] {registry : ToolRegistry} {ctx : RunContext}
    {tool args : Json} {spec : ToolSpec}
    (reached : ((codeHandler registry).handle ctx tool args).reached = some spec) :
    spec ∈ codeToolSpecs registry := by
  have allowed : ∀ {name input}, name ∈ (codeHandler registry).allowed →
      (registry.dispatch name input).reached = some spec → spec ∈ codeToolSpecs registry := by
    intro name input member dispatched
    obtain ⟨given, exposed, rfl⟩ := List.mem_map.mp member
    obtain ⟨found, -⟩ := ToolRegistry.dispatch_reached_iff.mp dispatched
    have known := ToolRegistry.mem_sortedSpecs.mp (List.mem_filter.mp exposed).1
    obtain rfl := Option.some.inj (found.symm.trans known)
    exact exposed
  unfold RpcHandler.handle at reached
  split at reached
  · cases reached
  · split at reached
    · split at reached
      · cases reached
      · rename_i passed
        have member := not_not.mp passed
        dsimp only at reached
        split at reached
        · cases reached
        · split at reached
          · cases reached
          · split at reached
            · exact allowed member reached
            · split at reached <;> exact allowed member reached
    · cases reached

theorem codeToolSpecs_read {registry : ToolRegistry} {spec : ToolSpec}
    (exposed : spec ∈ codeToolSpecs registry) : spec.effect = .read := by
  have kept := (List.mem_filter.mp exposed).2
  simp only [Bool.and_eq_true, decide_eq_true_eq] at kept
  exact kept.1.1

end Sentinel.Sandbox
