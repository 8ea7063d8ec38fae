import Sentinel.Actions.Executor
import Sentinel.Actions.Journal

/-! The structural gate. A mutation runs only through `executeApproved`, which
reads the folded journal, re-checks expiry and content, consumes the approval
and only then calls the executor. -/
namespace Sentinel.Actions
open Python

inductive GateStatus where
  | done | failed | deniedHash | expired | alreadyConsumed | notApproved
  deriving DecidableEq, Repr

def GateStatus.text : GateStatus → String
  | .done => "done"
  | .failed => "failed"
  | .deniedHash => "denied_hash"
  | .expired => "expired"
  | .alreadyConsumed => "already_consumed"
  | .notApproved => "not_approved"

structure GateResult where
  executed : Bool
  status : GateStatus
  detail : String := ""
  deriving DecidableEq, Repr

/-- What the gate decides from the state it reads, before it writes anything. -/
inductive GateCheck where
  | refuse (result : GateResult)
  | expire
  | mismatch
  | start

section
variable [FloatRepr] [Hashlib]

def approvedHash (st : ApprovalState) : String :=
  if st.action.paramsHash ≠ "" then st.action.paramsHash else st.action.computeHash

def pastExpiry (st : ApprovalState) (now : ℚ) : Bool :=
  match st.expiresAt with
  | some expiresAt => expiresAt < now
  | none => false

def gateCheck (st : Option ApprovalState) (action : SuggestedAction) (now : ℚ) : GateCheck :=
  match st with
  | none => .refuse ⟨false, .notApproved, "status=unknown"⟩
  | some st =>
    if st.status ≠ .approved then
      if st.status = .executing ∨ st.status = .done ∨ st.status = .failed then
        .refuse ⟨false, .alreadyConsumed, "status=" ++ st.status.text⟩
      else .refuse ⟨false, .notApproved, "status=" ++ st.status.text⟩
    else if pastExpiry st now then .expire
    else if action.computeHash ≠ approvedHash st then .mismatch
    else .start

end

def expiredEvent (action : SuggestedAction) : Event := ⟨action.id, .expired⟩

def mismatchEvent (action : SuggestedAction) : Event :=
  ⟨action.id, .nearMiss (s!"{action.kind.text} {action.targetService}") "executor"
    "params_hash mismatch vs approval"⟩

def startedEvent (action : SuggestedAction) (backend preview : String) : Event :=
  ⟨action.id, .executeStarted backend preview⟩

def resultEvent (action : SuggestedAction) (outcome : Outcome) : Event :=
  ⟨action.id, .executeResult outcome.record⟩

/-- One call of `executor.execute`, with the gate's clock and the journal as it
stood at the call. -/
structure Invocation where
  action : SuggestedAction
  now : ℚ
  journal : Journal

/-- The journal a call leaves, the executor call it made, and what it returned. -/
structure GateRun where
  journal : Journal
  invocation : Option Invocation
  result : Py GateResult

variable [FloatRepr] [Hashlib]

def executeApproved (journal : Journal) (action : SuggestedAction) (executor : Executor)
    (now : ℚ) : GateRun :=
  match gateCheck (stateOf journal action.id) action now with
  | .refuse result => ⟨journal, none, .ok result⟩
  | .expire =>
    ⟨journal ++ [expiredEvent action], none, .ok ⟨false, .expired, "approval past TTL"⟩⟩
  | .mismatch =>
    ⟨journal ++ [mismatchEvent action], none, .ok ⟨false, .deniedHash, "params_hash mismatch"⟩⟩
  | .start =>
    match executor.render action with
    | .error e => ⟨journal, none, .error e⟩
    | .ok preview =>
      -- the approval is consumed first, then the action runs
      let started := journal ++ [startedEvent action executor.backend preview]
      match executor.execute action with
      | .error e => ⟨started, some ⟨action, now, started⟩, .error e⟩
      | .ok outcome =>
        ⟨started ++ [resultEvent action outcome], some ⟨action, now, started⟩,
          (executor.render action).map fun detail =>
            ⟨outcome.ok, if outcome.ok then .done else .failed, detail⟩⟩

end Sentinel.Actions
