import Sentinel.Actions.Binding
import Sentinel.Actions.GateProofs

/-! Where a started execution ends. The approval is consumed before the executor
runs and the result is written after it, so an executor that raises leaves the
action executing, and no later call of the gate moves it. -/
namespace Sentinel.Actions
open Python

/-- The action ended as done or failed. -/
def Finished (journal : Journal) (actionId : String) : Prop :=
  statusOf journal actionId = some .done ∨ statusOf journal actionId = some .failed

/-- What must go well for `LiveExecutor.execute` to return: the first health
reading always, and after an operation that worked the settling and the second
reading too. A raising operation is caught unless it is no `Exception`. -/
def LiveEnv.Settles (env : LiveEnv) (action : SuggestedAction) : Prop :=
  Returns (env.healthBefore action.targetService) ∧
    match env.operate action with
    | none => True
    | some (.error e) => e.base = false
    | some (.ok ()) => Returns (env.sleep env.settleS) ∧ Returns (env.healthAfter action.targetService)

theorem LiveEnv.execute_returns_iff (env : LiveEnv) (action : SuggestedAction) :
    Returns (env.execute action) ↔ env.Settles action := by
  unfold LiveEnv.execute LiveEnv.Settles
  cases env.healthBefore action.targetService with
  | error e => simp [bind, Except.bind, not_returns_error]
  | ok before =>
    simp only [bind, Except.bind, returns_ok, true_and]
    rcases env.operate action with _ | e | ⟨⟨⟩⟩
    · simp [returns_ok]
    · cases base : e.base <;> simp [base, returns_ok, not_returns_error]
    · cases env.sleep env.settleS with
      | error e => simp [not_returns_error]
      | ok _ =>
        cases env.healthAfter action.targetService with
        | error e => simp [not_returns_error]
        | ok after => simp [returns_ok]

section
variable [FloatRepr] [Hashlib]

/-- The status an admitted execution is left in. -/
theorem executeApproved_status {journal : Journal} {st : ApprovalState}
    {action : SuggestedAction} {executor : Executor} {now : ℚ}
    (current : stateOf journal action.id = some st) (admitted : Admitted st action now) :
    statusOf (executeApproved journal action executor now).journal action.id =
      match executor.render action, executor.execute action with
      | .error _, _ => some .approved
      | .ok _, .error _ => some .executing
      | .ok _, .ok outcome => some (if outcome.ok then .done else .failed) := by
  have approved : statusOf journal action.id = some .approved := by
    simp [statusOf, current, admitted.approved]
  rw [executeApproved_start current admitted]
  cases executor.render action with
  | error e => exact approved
  | ok preview =>
    cases executor.execute action with
    | error e => exact statusOf_started approved
    | ok outcome => exact statusOf_result (statusOf_started approved)

/-- An execution left at executing stays there whatever the gate is called with. -/
theorem executeApproved_executing {journal : Journal} {action : SuggestedAction}
    (executor : Executor) (now : ℚ) (executing : statusOf journal action.id = some .executing) :
    (executeApproved journal action executor now).journal = journal := by
  obtain ⟨st, current, status⟩ := Option.map_eq_some_iff.mp executing
  simp [executeApproved, gateCheck, current, status]

/-- An admitted execution finishes exactly when the executor renders and executes
the action without raising; for the live executor, exactly when none of its
unguarded callables raises. -/
theorem executeApproved_finished_iff (journal : Journal) (st : ApprovalState)
    (action : SuggestedAction) (now : ℚ)
    (current : stateOf journal action.id = some st) (admitted : Admitted st action now) :
    (∀ executor, Finished (executeApproved journal action executor now).journal action.id ↔
      Returns (executor.render action) ∧ Returns (executor.execute action)) ∧
    ∀ env, Finished (executeApproved journal action (liveExecutor env) now).journal action.id ↔
      env.Settles action := by
  have finished : ∀ executor,
      Finished (executeApproved journal action executor now).journal action.id ↔
        Returns (executor.render action) ∧ Returns (executor.execute action) := by
    intro executor
    rw [Finished, executeApproved_status current admitted]
    cases executor.render action with
    | error e => simp [not_returns_error]
    | ok preview =>
      cases executor.execute action with
      | error e => simp [not_returns_error]
      | ok outcome => cases outcome.ok <;> simp [returns_ok]
  refine ⟨finished, fun env => ?_⟩
  rw [finished, ← env.execute_returns_iff]
  simp [liveExecutor, returns_ok]

end

/-- The demo's restart, with a health reader that cannot reach its backend. -/
def unreachableHealth : LiveEnv where
  healthBefore _ := .error ⟨"ConnectError", "connection refused", false⟩
  healthAfter _ := .error ⟨"ConnectError", "connection refused", false⟩
  flagReset := .ok ()
  restart _ := .ok ()
  scale _ _ := .ok ()
  sleep _ := .ok ()

section Samples
attribute [local instance] fractionRepr pinnedHashlib

theorem executeApproved_finished_dryRun :
    Finished (executeApproved (approvedJournal (restartOrders "a1").withHash)
      (restartOrders "a1").withHash (dryRunExecutor 0) 0).journal "a1" := by
  obtain ⟨st, current, admitted⟩ := approvedJournal_admits "a1"
  exact ((executeApproved_finished_iff _ st _ 0 current (admitted 0)).1 (dryRunExecutor 0)).mpr
    ⟨⟨_, rfl⟩, ⟨_, rfl⟩⟩

/-- An unreachable health backend leaves the approved restart executing. -/
theorem executeApproved_unfinished : ¬ ∀ (journal : Journal) (st : ApprovalState)
    (action : SuggestedAction) (executor : Executor) (now : ℚ),
    stateOf journal action.id = some st → Admitted st action now →
      Finished (executeApproved journal action executor now).journal action.id := by
  intro settles
  obtain ⟨st, current, admitted⟩ := approvedJournal_admits "a1"
  have finished := settles _ st _ (liveExecutor unreachableHealth) 0 current (admitted 0)
  rw [Finished, executeApproved_status current (admitted 0)] at finished
  simp [liveExecutor, LiveEnv.execute, unreachableHealth, bind, Except.bind] at finished

end Samples

end Sentinel.Actions
