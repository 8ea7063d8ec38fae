import Sentinel.Agent.Loop
import Sentinel.Python.JsonProofs
import Sentinel.Sandbox.Rpc

/-! Hooks that modify the input of a call. Every hook is shown the call as it was made, so
the input that a hook puts in its place is judged by no hook after it. -/
namespace Sentinel.Agent
open Python

/-- The calls that the hooks are shown, one after another. -/
def shown (hooks : List Hook) (call : ToolCall) (ctx : RunContext) : List ToolCall :=
  match hooks with
  | [] => []
  | hook :: rest =>
    call :: match hook.preToolUse call ctx with
      | .error _ => []
      | .ok none => shown rest call ctx
      | .ok (some result) => if result.action = .deny then [] else shown rest call ctx

def Denies (hook : Hook) (call : ToolCall) (ctx : RunContext) : Prop :=
  ∃ result, hook.preToolUse call ctx = .ok (some result) ∧ result.action = .deny

/-- The hook lets the call through, as it is or with another input. -/
def LetsThrough (hook : Hook) (call : ToolCall) (ctx : RunContext) : Prop :=
  Returns (hook.preToolUse call ctx) ∧ ¬ Denies hook call ctx

/-- What a modification puts in the place of the input. -/
def modification (hook : Hook) (call : ToolCall) (ctx : RunContext) : Option (Option Json) :=
  match hook.preToolUse call ctx with
  | .ok (some result) => if result.action = .modify then some result.modifiedInput else none
  | _ => none

/-- The last modification of a call, and the number of hooks up to it. -/
def lastModification (hooks : List Hook) (call : ToolCall) (ctx : RunContext) :
    Option (ℕ × Option Json) :=
  match hooks with
  | [] => none
  | hook :: rest =>
    match lastModification rest call ctx with
    | some (n, input) => some (n + 1, input)
    | none => (modification hook call ctx).map fun input => (1, input)

/-- The input after the modifications, where `own` is the input without any. -/
def inputAfter (hooks : List Hook) (call : ToolCall) (ctx : RunContext) (own : Json) : Json :=
  match lastModification hooks call ctx with
  | some (_, input) => input.getD call.input
  | none => own

/-- The number of hooks up to the one that produced the input, none for the call's own. -/
def producedBy (hooks : List Hook) (call : ToolCall) (ctx : RunContext) : ℕ :=
  match lastModification hooks call ctx with
  | some (n, some _) => n
  | _ => 0

/-- The hooks let the call through with the input. -/
def Dispatches (hooks : List Hook) (call : ToolCall) (ctx : RunContext) (input : Json) : Prop :=
  ∃ decision, preToolUse hooks call ctx {} = .ok decision ∧ decision.action ≠ .deny ∧
    decision.chosenInput call = input

/-- Every hook after the one that produced the input was shown it, and did not deny it; and
no denied call is let through. -/
structure JudgesInputs (hooks : List Hook) (call : ToolCall) (ctx : RunContext) : Prop where
  judged : ∀ input, Dispatches hooks call ctx input → ∀ i hook, producedBy hooks call ctx ≤ i →
    hooks[i]? = some hook → (shown hooks call ctx)[i]? = some ⟨call.name, input⟩ ∧
      ¬ Denies hook ⟨call.name, input⟩ ctx
  denied : (∃ hook ∈ hooks, Denies hook call ctx) → ∀ input, ¬ Dispatches hooks call ctx input

/-- The call is not let through, or what it is modified to last is its own input or is
modified by the last hook. -/
def Kept (hooks : List Hook) (call : ToolCall) (ctx : RunContext) : Prop :=
  (∃ hook ∈ hooks, ¬ LetsThrough hook call ctx) ∨ ∀ n input,
    lastModification hooks call ctx = some (n, some input) → n = hooks.length ∨ input = call.input

/-! ### What the hooks decide -/

section
variable {hooks : List Hook} {call : ToolCall} {ctx : RunContext}

/-- A hook denies the call, raises, modifies it or leaves it. -/
theorem passes_cases (hook : Hook) (call : ToolCall) (ctx : RunContext) :
    ¬ LetsThrough hook call ctx ∨
      (hook.preToolUse call ctx = .ok none ∧ modification hook call ctx = none) ∨
      ∃ result, hook.preToolUse call ctx = .ok (some result) ∧
        (result.action = .allow ∧ modification hook call ctx = none ∨
          result.action = .modify ∧ modification hook call ctx = some result.modifiedInput) := by
  cases answer : hook.preToolUse call ctx with
  | error e => exact .inl fun passes => not_returns_error e (answer ▸ passes.1)
  | ok answered =>
    cases answered with
    | none => exact .inr (.inl ⟨rfl, by simp [modification, answer]⟩)
    | some result =>
      cases action : result.action with
      | deny => exact .inl fun passes => passes.2 ⟨result, answer, action⟩
      | allow => exact .inr (.inr ⟨result, rfl, .inl ⟨action, by simp [modification, answer, action]⟩⟩)
      | modify => exact .inr (.inr ⟨result, rfl, .inr ⟨action, by simp [modification, answer, action]⟩⟩)

theorem preToolUse_stops (stops : ∃ hook ∈ hooks, ¬ LetsThrough hook call ctx)
    (start decision : ToolDecision) (decided : preToolUse hooks call ctx start = .ok decision) :
    decision.action = .deny := by
  induction hooks generalizing start with
  | nil => simp at stops
  | cons hook rest ih =>
    have later (passes : LetsThrough hook call ctx) : ∃ hook ∈ rest, ¬ LetsThrough hook call ctx := by
      obtain ⟨other, member, shut⟩ := stops
      rcases List.mem_cons.mp member with rfl | inRest
      · exact absurd passes shut
      · exact ⟨other, inRest, shut⟩
    rw [preToolUse] at decided
    cases answer : hook.preToolUse call ctx with
    | error e =>
      rw [answer] at decided
      cases decided
    | ok answered =>
      rw [answer] at decided
      cases answered with
      | none =>
        refine ih (later ⟨answer ▸ returns_ok _, ?_⟩) start decided
        rintro ⟨result, denied, -⟩
        cases answer.symm.trans denied
      | some result =>
        have open_ (other : result.action ≠ .deny) : LetsThrough hook call ctx := by
          refine ⟨answer ▸ returns_ok _, ?_⟩
          rintro ⟨result', denied, deny⟩
          obtain rfl := Option.some.inj (Except.ok.inj (answer.symm.trans denied))
          exact other deny
        simp only [] at decided
        cases action : result.action with
        | deny =>
          rw [action] at decided
          rw [← Except.ok.inj decided, action]
        | modify =>
          rw [action] at decided
          exact ih (later (open_ (by simp [action]))) result decided
        | allow =>
          rw [action] at decided
          exact ih (later (open_ (by simp [action]))) start decided

/-- Hooks that all let the call through choose the input of the last modification. -/
theorem preToolUse_passes (passes : ∀ hook ∈ hooks, LetsThrough hook call ctx) {start : ToolDecision}
    (open_ : start.action ≠ .deny) :
    ∃ decision, preToolUse hooks call ctx start = .ok decision ∧ decision.action ≠ .deny ∧
      decision.chosenInput call = inputAfter hooks call ctx (start.chosenInput call) := by
  induction hooks generalizing start with
  | nil => exact ⟨start, rfl, open_, rfl⟩
  | cons hook rest ih =>
    rw [List.forall_mem_cons] at passes
    have found (next : ToolDecision)
        (unmodified : modification hook call ctx = none → next = start)
        (modified : ∀ input, modification hook call ctx = some input →
          input.getD call.input = next.chosenInput call) :
        inputAfter (hook :: rest) call ctx (start.chosenInput call) =
          inputAfter rest call ctx (next.chosenInput call) := by
      rw [inputAfter, inputAfter, lastModification]
      cases lastModification rest call ctx with
      | some last => rfl
      | none =>
        cases change : modification hook call ctx with
        | none => rw [unmodified change]; rfl
        | some input => exact modified input change
    rcases passes_cases hook call ctx with shut | ⟨answer, kept⟩ | ⟨result, answer, decided⟩
    · exact absurd passes.1 shut
    · rw [preToolUse, answer, found start (fun _ => rfl) (by simp [kept])]
      exact ih passes.2 open_
    · rcases decided with ⟨action, kept⟩ | ⟨action, modified⟩
      · rw [preToolUse, answer, found start (fun _ => rfl) (by simp [kept])]
        simp only [action]
        exact ih passes.2 open_
      · have chosen : result.modifiedInput.getD call.input = result.chosenInput call := by
          rw [ToolDecision.chosenInput, action]
          cases result.modifiedInput <;> rfl
        rw [preToolUse, answer, found result (by simp [modified]) (by simpa [modified] using chosen)]
        simp only [action]
        exact ih passes.2 (by simp [action])

/-- The input that the hooks let through, if there is one. -/
theorem dispatches_iff (input : Json) : Dispatches hooks call ctx input ↔
    (∀ hook ∈ hooks, LetsThrough hook call ctx) ∧ input = inputAfter hooks call ctx call.input := by
  constructor
  · rintro ⟨decision, decided, open_, rfl⟩
    have passes : ∀ hook ∈ hooks, LetsThrough hook call ctx := by
      by_contra stops
      simp only [not_forall] at stops
      obtain ⟨hook, member, shut⟩ := stops
      exact open_ (preToolUse_stops ⟨hook, member, shut⟩ {} decision decided)
    obtain ⟨decision', decided', -, chosen⟩ :=
      preToolUse_passes passes (show ({} : ToolDecision).action ≠ .deny by decide)
    obtain rfl := Except.ok.inj (decided.symm.trans decided')
    exact ⟨passes, chosen⟩
  · rintro ⟨passes, rfl⟩
    exact preToolUse_passes passes (show ({} : ToolDecision).action ≠ .deny by decide)

theorem shown_of_passes (passes : ∀ hook ∈ hooks, LetsThrough hook call ctx) :
    shown hooks call ctx = List.replicate hooks.length call := by
  induction hooks with
  | nil => rfl
  | cons hook rest ih =>
    rw [List.forall_mem_cons] at passes
    rw [shown, List.length_cons, List.replicate_succ]
    congr 1
    obtain ⟨⟨answered, answer⟩, open_⟩ := passes.1
    rw [answer]
    cases answered with
    | none => exact ih passes.2
    | some result =>
      simp only []
      rw [if_neg fun deny => open_ ⟨result, answer, deny⟩]
      exact ih passes.2

theorem lastModification_bound {n : ℕ} {input : Option Json}
    (last : lastModification hooks call ctx = some (n, input)) : n ≤ hooks.length := by
  induction hooks generalizing n with
  | nil => cases last
  | cons hook rest ih =>
    rw [lastModification] at last
    cases later : lastModification rest call ctx with
    | none =>
      rw [later] at last
      obtain ⟨_, -, same⟩ := Option.map_eq_some_iff.mp last
      obtain ⟨rfl, -⟩ := Prod.mk.inj same
      simp
    | some found =>
      rw [later] at last
      obtain ⟨rfl, rfl⟩ := Prod.mk.inj (Option.some.inj last)
      have bound := ih later
      simpa using bound

theorem not_dispatches_of_denies (denied : ∃ hook ∈ hooks, Denies hook call ctx) (input : Json) :
    ¬ Dispatches hooks call ctx input := by
  intro sent
  obtain ⟨hook, member, denies⟩ := denied
  exact (((dispatches_iff input).mp sent).1 hook member).2 denies

theorem judgesInputs_iff_kept : JudgesInputs hooks call ctx ↔ Kept hooks call ctx := by
  constructor
  · intro guarded
    by_cases passes : ∀ hook ∈ hooks, LetsThrough hook call ctx
    · right
      intro n input last
      by_contra swapped
      rw [not_or] at swapped
      have inside : n < hooks.length := lt_of_le_of_ne (lastModification_bound last) swapped.1
      have sent : Dispatches hooks call ctx input :=
        (dispatches_iff input).mpr ⟨passes, by rw [inputAfter, last]; rfl⟩
      have made : producedBy hooks call ctx = n := by rw [producedBy, last]
      have seen := (guarded.judged input sent n _ made.le (List.getElem?_eq_getElem inside)).1
      rw [shown_of_passes passes, List.getElem?_replicate_of_lt inside] at seen
      exact swapped.2 (congrArg ToolCall.input (Option.some.inj seen)).symm
    · left
      simpa using passes
  · intro kept
    refine ⟨fun input sent i hook later found => ?_, not_dispatches_of_denies⟩
    obtain ⟨passes, chosen⟩ := (dispatches_iff input).mp sent
    have inside : i < hooks.length := (List.getElem?_eq_some_iff.mp found).1
    have own : input = call.input := by
      rw [chosen, inputAfter]
      cases last : lastModification hooks call ctx with
      | none => rfl
      | some modified =>
        obtain ⟨n, _ | modified⟩ := modified
        · rfl
        · rcases kept with ⟨hook, member, shut⟩ | kept
          · exact absurd (passes hook member) shut
          · rcases kept n modified last with final | same
            · rw [producedBy, last] at later
              simp only [] at later
              omega
            · exact same
    subst own
    rw [shown_of_passes passes, List.getElem?_replicate_of_lt inside]
    exact ⟨rfl, (passes hook (List.mem_of_getElem? found)).2⟩

end

/-! ### The two dispatchers -/

/-- A dispatch that notes the tool and the input that it is called with. -/
def noting (dispatch : String → Json → Py Json) (name : String) (input : Json)
    (log : List (String × Json)) : Py Json × List (String × Json) :=
  (dispatch name input, log ++ [(name, input)])

/-- The call that the loop makes of a tool use, and the handler of its arguments. -/
def callOf (name : String) (input : Json) : ToolCall := ⟨name, if input.isDict then input else .dict []⟩

/-- The loop dispatches what the hooks let through, and nothing else. -/
theorem runToolUse_notes (config : LoopConfig) (dispatch : String → Json → Py Json)
    (st : LoopState) (log : List (String × Json)) (tu : ToolUse) {entry : String × Json}
    (noted : entry ∈ (runToolUse config (noting dispatch) st log tu).2) :
    entry ∈ log ∨ entry.1 = tu.name ∧
      Dispatches config.hooks (callOf tu.name tu.input) st.ctx entry.2 := by
  unfold runToolUse at noted
  simp only [] at noted
  split at noted
  · exact .inl noted
  · rename_i decision decided
    split at noted
    · exact .inl noted
    · rename_i open_
      split at noted
      · split at noted <;> exact .inl noted
      · have grown : entry ∈ log ++ [(tu.name, decision.chosenInput (callOf tu.name tu.input))] := by
          simp only [noting] at noted
          split at noted
          · exact noted
          · split at noted <;> exact noted
        rcases List.mem_append.mp grown with old | new
        · exact .inl old
        · obtain rfl := List.mem_singleton.mp new
          exact .inr ⟨rfl, decision, decided, open_, rfl⟩

open Sandbox in
/-- The handler asks its registry for what the hooks let through, and nothing else. -/
theorem handle_asks [FloatRepr] (handler : RpcHandler) (ctx : RunContext) (name : String)
    (args : Json) (other : ToolRegistry)
    (alike : ∀ input, Dispatches handler.hooks (callOf name args) ctx input →
      other.dispatch name input = handler.registry.dispatch name input) :
    ({ handler with registry := other } : RpcHandler).handle ctx (.str name) args =
      handler.handle ctx (.str name) args := by
  unfold RpcHandler.handle
  simp only []
  split
  · rfl
  · split
    · rfl
    · split
      · rfl
      · rename_i decision decided
        split
        · rfl
        · rename_i open_
          have same := alike _ ⟨decision, decided, open_, rfl⟩
          simp only [callOf] at same
          rw [same]

/-- What both dispatchers go on with is guarded exactly for the calls that are kept. -/
theorem modified_inputs_guarded_iff [FloatRepr] (hooks : List Hook) (call : ToolCall)
    (ctx : RunContext) :
    (JudgesInputs hooks call ctx ↔ Kept hooks call ctx) ∧
    (∀ (config : LoopConfig) (dispatch : String → Json → Py Json) (st : LoopState)
      (log : List (String × Json)) (tu : ToolUse), config.hooks = hooks → st.ctx = ctx →
      callOf tu.name tu.input = call →
        ∀ entry ∈ (runToolUse config (noting dispatch) st log tu).2,
          entry ∈ log ∨ entry.1 = call.name ∧ Dispatches hooks call ctx entry.2) ∧
    ∀ (handler : Sandbox.RpcHandler) (args : Json) (other : ToolRegistry), handler.hooks = hooks →
      callOf call.name args = call →
      (∀ input, Dispatches hooks call ctx input →
        other.dispatch call.name input = handler.registry.dispatch call.name input) →
      ({ handler with registry := other } : Sandbox.RpcHandler).handle ctx (.str call.name) args =
        handler.handle ctx (.str call.name) args := by
  refine ⟨judgesInputs_iff_kept, ?_, ?_⟩
  · rintro config dispatch st log tu rfl rfl rfl entry noted
    exact runToolUse_notes config dispatch st log tu noted
  · rintro handler args other rfl made alike
    apply handle_asks
    rwa [made]

section Sample
attribute [local instance] fractionRepr

/-- A hook that puts another input in the place of a call's own. -/
def rewriter (input : Json) : Hook where
  name := "rewriter"
  preToolUse _ _ := .ok (some { action := .modify, modifiedInput := some input })

def sealedReference : Json := .dict [("contains", .str "truth.json")]

/-- The seal guard after a rewriter is shown the call as it was made, and a reference to the
sealed truth is dispatched. -/
theorem rewritten_input_unseen : ¬ ∀ (hooks : List Hook) (call : ToolCall) (ctx : RunContext),
    JudgesInputs hooks call ctx := by
  intro guarded
  let _ : JsonLoads := ⟨fun _ => .error ⟨"JSONDecodeError", "", false⟩⟩
  have sent : Dispatches [rewriter sealedReference, sealGuard] ⟨"logs_search", .dict []⟩ {}
      sealedReference :=
    ⟨{ action := .modify, modifiedInput := some sealedReference }, rfl, by decide, rfl⟩
  have seen := ((guarded _ _ _).judged _ sent 1 sealGuard (le_of_eq rfl) rfl).1
  have made : (shown [rewriter sealedReference, sealGuard] ⟨"logs_search", .dict []⟩ {})[1]? =
      some ⟨"logs_search", .dict []⟩ := rfl
  have same := congrArg ToolCall.input (Option.some.inj (made.symm.trans seen))
  cases same

end Sample

end Sentinel.Agent
