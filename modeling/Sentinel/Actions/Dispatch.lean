import Sentinel.Actions.Gate

/-! Shared decision handling. Every approval surface ends here: a denial is
journaled, an approval is journaled and drives the gate with the proposed
action, and the outcome is posted to the brief's Slack thread. -/
namespace Sentinel.Actions
open Python

/-- `_slack_ts`. -/
def slackTs (journal : Journal) (actionId : String) : Option String :=
  journal.findSome? fun e =>
    match e.body with
    | .posted surface ref => if e.actionId = actionId ∧ surface = "slack" then some ref else none
    | _ => none

/-- What a decision leaves and returns; `thread` is the message posted, if any. -/
structure DecisionRun where
  journal : Journal
  invocation : Option Invocation
  result : Py (Option GateResult)
  thread : Option (String × String) := none

variable [FloatRepr] [Hashlib]

def handleDecision (journal : Journal) (actionId decision approver surface : String)
    (executor : Option Executor) (now : ℚ) : DecisionRun :=
  let executor := executor.getD (dryRunExecutor 0)
  if decision = "deny" then
    ⟨journal ++ [⟨actionId, .denied approver ""⟩], none, .ok none, none⟩
  else if decision ≠ "approve" then ⟨journal, none, .ok none, none⟩
  else
    match stateOf journal actionId with
    | none => ⟨journal, none, .ok none, none⟩
    | some st =>
      let run := executeApproved (journal ++ [⟨actionId, .approved approver surface⟩]) st.action
        executor now
      match run.result with
      | .error e => ⟨run.journal, run.invocation, .error e, none⟩
      | .ok res =>
        match (slackTs run.journal actionId).filter (· ≠ "") with
        | none => ⟨run.journal, run.invocation, .ok res, none⟩
        | some ts =>
          match executor.render st.action with
          | .error e => ⟨run.journal, run.invocation, .error e, none⟩
          | .ok op =>
            ⟨run.journal, run.invocation, .ok res,
              some (ts, "Execution: *" ++ res.status.text ++ "* — `" ++ op ++ "`")⟩

/-- An approval of a known action is journaled and handed to the gate. -/
theorem handleDecision_approve {journal : Journal} {actionId : String} {st : ApprovalState}
    (known : stateOf journal actionId = some st) (approver surface : String)
    (executor : Option Executor) (now : ℚ) :
    let run := handleDecision journal actionId "approve" approver surface executor now
    let gate := executeApproved (journal ++ [⟨actionId, .approved approver surface⟩]) st.action
      (executor.getD (dryRunExecutor 0)) now
    run.journal = gate.journal ∧ run.invocation = gate.invocation := by
  have approve : ¬ "approve" = "deny" := by decide
  simp only [handleDecision, if_neg approve, ne_eq, not_true_eq_false, if_false, known]
  split
  · exact ⟨rfl, rfl⟩
  · split
    · exact ⟨rfl, rfl⟩
    · split <;> exact ⟨rfl, rfl⟩

/-- A decision writes at most its own event and then calls the gate at most once. -/
theorem handleDecision_cases (journal : Journal) (actionId decision approver surface : String)
    (executor : Option Executor) (now : ℚ) :
    let run := handleDecision journal actionId decision approver surface executor now
    (run.invocation = none ∧
      (run.journal = journal ∨ run.journal = journal ++ [⟨actionId, .denied approver ""⟩])) ∨
    ∃ st, stateOf journal actionId = some st ∧
      let gate := executeApproved (journal ++ [⟨actionId, .approved approver surface⟩]) st.action
        (executor.getD (dryRunExecutor 0)) now
      run.journal = gate.journal ∧ run.invocation = gate.invocation := by
  by_cases deny : decision = "deny"
  · simp [handleDecision, deny]
  · by_cases approve : decision = "approve"
    · subst approve
      cases known : stateOf journal actionId with
      | none => simp [handleDecision, known]
      | some st => exact .inr ⟨st, rfl, handleDecision_approve known approver surface executor now⟩
    · simp [handleDecision, deny, approve]

end Sentinel.Actions
