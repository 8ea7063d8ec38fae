import Sentinel.Agent.LoopProofs

/-! The tool-call budget. A call that passes the guard finds the counter below the
budget, and the counter goes up with each dispatch, so the loop makes no more
dispatches than the budget has left; the report tools pass the guard at any count. -/
namespace Sentinel.Agent
open Python

/-- The hook leaves the counter and the budget alone. -/
def Hook.Steady (hook : Hook) : Prop :=
  ∀ call output ctx out ctx', hook.postToolUse call output ctx = .ok (out, ctx') →
    ctx'.toolCalls = ctx.toolCalls ∧ ctx'.maxToolCalls = ctx.maxToolCalls

theorem postToolUse_steady {hooks : List Hook} (steady : ∀ hook ∈ hooks, hook.Steady)
    {call : ToolCall} {output out : Json} {ctx ctx' : RunContext}
    (posted : postToolUse hooks call output ctx = .ok (out, ctx')) :
    ctx'.toolCalls = ctx.toolCalls ∧ ctx'.maxToolCalls = ctx.maxToolCalls := by
  induction hooks generalizing output ctx with
  | nil =>
    cases posted
    exact ⟨rfl, rfl⟩
  | cons hook rest ih =>
    rw [List.forall_mem_cons] at steady
    simp only [postToolUse] at posted
    split at posted
    · cases posted
    · rename_i first
      obtain ⟨calls, cap⟩ := steady.1 _ _ _ _ _ first
      obtain ⟨calls', cap'⟩ := ih steady.2 posted
      exact ⟨calls'.trans calls, cap'.trans cap⟩

/-- All hooks of a denied call agree on the denial. -/
theorem preToolUse_denied {hooks : List Hook} {hook : Hook} {call : ToolCall} {ctx : RunContext}
    {reason : String} (member : hook ∈ hooks) (denies : hook.preToolUse call ctx = .ok (deny reason))
    {decision final : ToolDecision} (decided : preToolUse hooks call ctx decision = .ok final) :
    final.action = .deny := by
  induction hooks generalizing decision with
  | nil => cases member
  | cons first rest ih =>
    simp only [preToolUse] at decided
    rcases List.mem_cons.mp member with rfl | later
    · rw [denies] at decided
      cases decided
      rfl
    · split at decided
      · cases decided
      · exact ih later decided
      · split at decided
        · cases decided
          assumption
        · exact ih later decided
        · exact ih later decided

/-- A call that passes the guard and names no report tool finds the counter below the
budget. -/
theorem budget_left {hooks : List Hook} (guarded : budgetGuard ∈ hooks) {ctx : RunContext}
    {call : ToolCall} {input : Json} (passes : Passes hooks ctx call input)
    (other : call.name ∉ terminalTools) : ctx.toolCalls < ctx.maxToolCalls := by
  obtain ⟨decision, decided, passed, -⟩ := passes
  by_contra reached
  have denies : budgetGuard.preToolUse call ctx = .ok (deny ("tool-call budget of " ++
      toString ctx.maxToolCalls ++
        " reached; conclude now by calling report_root_cause with your best current conclusion")) :=
    (if_neg other).trans (if_pos (not_lt.mp reached))
  exact passed (preToolUse_denied guarded denies decided)

/-- Dispatches that the budget counts. -/
def spent (names : List String) : ℕ := names.countP fun name => name ∉ terminalTools

theorem spent_append (names more : List String) : spent (names ++ more) = spent names + spent more :=
  List.countP_append

theorem spent_singleton (name : String) : spent [name] = if name ∈ terminalTools then 0 else 1 := by
  by_cases report : name ∈ terminalTools <;> simp [spent, report]

/-- The dispatch, with the names of all calls on record. -/
def recorded {σ : Type*} (dispatch : String → Json → σ → Py Json × σ) (name : String) (input : Json)
    (world : σ × List String) : Py Json × (σ × List String) :=
  ((dispatch name input world.1).1, (dispatch name input world.1).2, world.2 ++ [name])

theorem runLoop_recorded {σ : Type*} (config : LoopConfig)
    (dispatch : String → Json → σ → Py Json × σ) (ctx : RunContext) (world : σ) :
    runLoop config dispatch ctx world =
      ((runLoop config (recorded dispatch) ctx (world, [])).1,
        (runLoop config (recorded dispatch) ctx (world, [])).2.1) := by
  have same : ∀ name input (kept : σ × List String), dispatch name input kept.1 =
      ((recorded dispatch name input kept).1, (recorded dispatch name input kept).2.1) :=
    fun _ _ _ => rfl
  exact runIterations_view same config.maxIters 0 _ (world, [])

theorem budget_rule {σ : Type*} {config : LoopConfig} (guarded : budgetGuard ∈ config.hooks)
    (steady : ∀ hook ∈ config.hooks, hook.Steady) (dispatch : String → Json → σ → Py Json × σ)
    (start cap : ℤ) :
    LoopRule config (recorded dispatch)
      (fun ctx world => ctx.maxToolCalls = cap ∧ spent world.2 ≤ ctx.toolCalls - start ∧
        (spent world.2 : ℤ) ≤ max 0 (cap - start))
      (fun world => (spent world.2 : ℤ) ≤ max 0 (cap - start)) where
  holds _ _ joint := joint.2.2
  dispatched name fields input ctx world joint _ passes := by
    obtain ⟨rfl, counted, bound⟩ := joint
    have more : (spent (recorded dispatch name input world).2.2 : ℤ) ≤ ctx.toolCalls - start + 1 ∧
        (spent (recorded dispatch name input world).2.2 : ℤ) ≤ max 0 (ctx.maxToolCalls - start) := by
      rw [recorded, spent_append, spent_singleton]
      split
      · omega
      · rename_i other
        have := budget_left guarded passes other
        omega
    refine ⟨more.2, fun output out ctx' posted => ?_⟩
    obtain ⟨calls, cap⟩ := postToolUse_steady steady posted
    exact ⟨cap, by have := more.1; dsimp only; omega, more.2⟩

/-- The dispatches of one run of the loop. -/
theorem runLoop_budget {σ : Type*} {config : LoopConfig} (guarded : budgetGuard ∈ config.hooks)
    (steady : ∀ hook ∈ config.hooks, hook.Steady) (dispatch : String → Json → σ → Py Json × σ)
    (ctx : RunContext) (world : σ) :
    (spent (runLoop config (recorded dispatch) ctx (world, [])).2.2 : ℤ) ≤
      max 0 (ctx.maxToolCalls - ctx.toolCalls) :=
  runLoop_rule (budget_rule guarded steady dispatch ctx.toolCalls ctx.maxToolCalls)
    ⟨rfl, by simp [spent], by simp [spent]⟩

section
variable [FloatRepr] [JsonLoads]

theorem sealGuard_steady : sealGuard.Steady := by
  intro call output ctx out ctx' posted
  simp only [sealGuard] at posted
  split at posted
  · cases posted
    exact ⟨rfl, rfl⟩
  · split at posted
    · cases posted
    · cases posted
      exact ⟨rfl, rfl⟩

/-- The hooks that the agents run. -/
theorem hooks_steady : ∀ hook ∈ decoyCompletenessGate :: defaultHooks, hook.Steady := by
  simp only [defaultHooks, List.forall_mem_cons, List.not_mem_nil, IsEmpty.forall_iff,
    implies_true, and_true]
  refine ⟨?_, sealGuard_steady, ?_, ?_, ?_, ?_⟩ <;>
  · rintro call output ctx out ctx' ⟨⟩
    exact ⟨rfl, rfl⟩

end

end Sentinel.Agent
