import Sentinel.Actions.Binding
import Sentinel.Agent.Hooks

/-! The approval guard, a hook for loops that could see a mutating tool. It
compares the run's approval token with the `params_hash` field of the call, which
the caller writes; it binds the content only of calls whose field is honest. -/
namespace Sentinel.Actions
open Python Agent

structure NearMissRecord where
  actionId : Json
  attempted : String
  «by» : String
  why : String

structure GuardRun where
  decision : Option ToolDecision
  nearMiss : Option NearMissRecord := none

/-- `ApprovalGuard.pre_tool_use`; `journaled` says whether it has a journal. -/
def approvalGuard (registry : ToolRegistry) (journaled : Bool) (call : ToolCall)
    (ctx : RunContext) : GuardRun :=
  match registry.specs.get? call.name with
  | none => ⟨none, none⟩
  | some spec =>
    if spec.effect ≠ .mutate then ⟨none, none⟩
    else
      let want := (call.input.lookup "params_hash").getD .null
      if ctx.approvalToken.any fun token => token != "" && want.truthy && Json.pyEq (.str token) want then
        ⟨none, none⟩
      else
        { decision := deny "mutate tool requires a matching human approval"
          nearMiss := if journaled then
            some ⟨(call.input.lookup "id").getD (.str "?"), call.name, "model",
              "mutate without matching approval"⟩ else none }

/-- The guard lets the call through. -/
def Allows (registry : ToolRegistry) (journaled : Bool) (ctx : RunContext) (call : ToolCall) :
    Prop :=
  (approvalGuard registry journaled call ctx).decision = none

def Mutates (registry : ToolRegistry) (call : ToolCall) : Prop :=
  ∃ spec, registry.specs.get? call.name = some spec ∧ spec.effect = .mutate

/-- `(kind, target_service, params)` of a call, where it has them. -/
def contentOf (input : Json) : Option (String × String × List (String × Json)) :=
  match input.lookup "kind", input.lookup "target_service",
      (input.lookup "params").getD (.dict []) with
  | some (.str kind), some (.str target), .dict params => some (kind, target, params)
  | _, _, _ => none

/-- Equality of call contents, parameters as dicts. -/
def SameCall (a b : Json) : Prop :=
  ∃ kind target params params', contentOf a = some (kind, target, params) ∧
    contentOf b = some (kind, target, params') ∧
    sortKeys (.dict params) = sortKeys (.dict params')

theorem allows_iff {registry : ToolRegistry} {journaled : Bool} {ctx : RunContext}
    {call : ToolCall} (mutates : Mutates registry call) :
    Allows registry journaled ctx call ↔ ∃ token, ctx.approvalToken = some token ∧ token ≠ "" ∧
      call.input.lookup "params_hash" = some (.str token) := by
  obtain ⟨spec, found, effect⟩ := mutates
  simp only [Allows, approvalGuard, found, effect, ne_eq, not_true_eq_false, if_false]
  cases carried : ctx.approvalToken with
  | none => simp [deny]
  | some token =>
    cases field : call.input.lookup "params_hash" with
    | none => simp [Json.truthy, deny]
    | some want =>
      cases want with
      | str s =>
        by_cases same : token = s
        · subst same
          by_cases empty : token = "" <;> simp [Json.truthy, Json.pyEq, empty, deny]
        · have other : s ≠ token := fun h => same h.symm
          simp [Json.pyEq, same, other, deny]
      | _ => simp [Json.pyEq, Json.number, deny]

section
variable [FloatRepr] [Hashlib]

/-- The hash recomputed from the call's own content. -/
def contentHash (input : Json) : Option String :=
  (contentOf input).map fun (kind, target, params) => paramsHash kind target params

/-- A field that repeats the token is the hash of the call's own content. -/
def Honest (token : Option String) (input : Json) : Prop :=
  ∀ t, token = some t → t ≠ "" → input.lookup "params_hash" = some (.str t) →
    contentHash input = some t

/-- The guard binds a token to content exactly for honest calls, and no two
honest calls with different contents pass under one token. -/
theorem approvalGuard_binds_iff (collisionFree : CollisionFree) (registry : ToolRegistry)
    (journaled : Bool) (ctx : RunContext) :
    (∀ call, Mutates registry call →
      ((Allows registry journaled ctx call → contentHash call.input = ctx.approvalToken) ↔
        Honest ctx.approvalToken call.input)) ∧
    ∀ a b, Mutates registry a → Mutates registry b → Honest ctx.approvalToken a.input →
      Honest ctx.approvalToken b.input → Allows registry journaled ctx a →
      Allows registry journaled ctx b → SameCall a.input b.input := by
  constructor
  · intro call mutates
    rw [allows_iff mutates]
    constructor
    · intro bound t carried nonempty field
      rw [bound ⟨t, carried, nonempty, field⟩, carried]
    · rintro honest ⟨t, carried, nonempty, field⟩
      rw [honest t carried nonempty field, carried]
  · intro a b mutatesA mutatesB honestA honestB allowsA allowsB
    obtain ⟨t, carried, nonempty, fieldA⟩ := (allows_iff mutatesA).mp allowsA
    obtain ⟨t', carried', _, fieldB⟩ := (allows_iff mutatesB).mp allowsB
    obtain rfl : t = t' := Option.some.inj (carried.symm.trans carried')
    obtain ⟨⟨kind, target, params⟩, contentA, hashA⟩ :=
      Option.map_eq_some_iff.mp (honestA t carried nonempty fieldA)
    obtain ⟨⟨kind', target', params'⟩, contentB, hashB⟩ :=
      Option.map_eq_some_iff.mp (honestB t carried nonempty fieldB)
    obtain ⟨rfl, rfl, same⟩ := paramsHash_binds collisionFree (hashA.trans hashB.symm)
    exact ⟨kind, target, params, params', contentA, contentB, same⟩

end

/-- A restart of `target` that carries the hash of a restart of `orders`. -/
def restartCall (target : String) : ToolCall where
  name := "restart_service"
  input := .dict [("kind", .str "restart"), ("target_service", .str target), ("params", .dict []),
    ("params_hash", .str "0a9496365936297580634c693b733b473dca9907ef8b71e429024b33dc450f93")]

def ordersContext : RunContext where
  approvalToken := some "0a9496365936297580634c693b733b473dca9907ef8b71e429024b33dc450f93"

section Samples
attribute [local instance] fractionRepr pinnedHashlib

theorem approvalGuard_binds_orders :
    (Allows actionRegistry true ordersContext (restartCall "orders") →
      contentHash (restartCall "orders").input = ordersContext.approvalToken) ↔
      Honest ordersContext.approvalToken (restartCall "orders").input :=
  (approvalGuard_binds_iff pinnedHashlib_collisionFree actionRegistry true ordersContext).1
    (restartCall "orders") ⟨restartTool, rfl, rfl⟩

/-- The token for `orders` also lets a restart of `payments` through. -/
theorem approvalGuard_unbound : ¬ ∀ (registry : ToolRegistry) (journaled : Bool)
    (ctx : RunContext) (call : ToolCall), Mutates registry call →
      Allows registry journaled ctx call → contentHash call.input = ctx.approvalToken := by
  intro bound
  have mutates : Mutates actionRegistry (restartCall "payments") := ⟨restartTool, rfl, rfl⟩
  have same := bound actionRegistry true ordersContext (restartCall "payments") mutates
    ((allows_iff mutates).mpr ⟨_, rfl, by decide, rfl⟩)
  have payments : contentHash (restartCall "payments").input =
      some "53594a5959c518a06b64a45464c527ad7e26eb7a52ea427c93bbc0ea80443e0c" := rfl
  rw [payments] at same
  exact absurd same (by decide)

end Samples

end Sentinel.Actions
