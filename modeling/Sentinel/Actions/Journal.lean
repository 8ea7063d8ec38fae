import Sentinel.Actions.Models

/-! The append-only action journal. Current state is a fold over the events and
is never stored. The journal file is modeled by its list of records, in file
order; every record has the fields its emitter writes, but for the time stamp,
which nothing reads back. -/
namespace Sentinel.Actions
open Python

/-- `EVENTS`. -/
inductive EventKind where
  | proposed | posted | approved | denied | expired | executeStarted | executeResult | nearMiss
  deriving DecidableEq, Repr

inductive EventBody where
  | proposed (action : SuggestedAction) (expiresAt : Option ℚ)
  | posted (surface ref : String)
  | approved (approver surface : String)
  | denied (approver reason : String)
  | expired
  | executeStarted (backend preview : String)
  | executeResult (result : ResultRecord)
  | nearMiss (attempted «by» why : String)

def EventBody.kind : EventBody → EventKind
  | .proposed .. => .proposed
  | .posted .. => .posted
  | .approved .. => .approved
  | .denied .. => .denied
  | .expired => .expired
  | .executeStarted .. => .executeStarted
  | .executeResult .. => .executeResult
  | .nearMiss .. => .nearMiss

structure Event where
  actionId : String
  body : EventBody

abbrev Event.kind (e : Event) : EventKind := e.body.kind

abbrev Journal := List Event

abbrev States := Dict String ApprovalState

/-- What an event other than `proposed` does to the state of its action. Events
that are not legal in the current status are ignored. -/
def transition (st : ApprovalState) : EventBody → ApprovalState
  | .posted surface _ =>
    if st.status = .proposed then { st with status := .posted, surface := some surface } else st
  | .approved approver surface =>
    if st.status = .proposed ∨ st.status = .posted then
      { st with status := .approved, approver := some approver, surface := some surface }
    else st
  | .denied approver _ =>
    if st.status = .proposed ∨ st.status = .posted then
      { st with status := .denied, approver := some approver }
    else st
  | .expired =>
    if st.status = .proposed ∨ st.status = .posted ∨ st.status = .approved then
      { st with status := .expired }
    else st
  | .executeStarted _ _ => if st.status = .approved then { st with status := .executing } else st
  | .executeResult result =>
    if st.status = .executing then
      { st with status := if result.ok then .done else .failed, outcome := some result }
    else st
  | .nearMiss _ _ _ => st
  | .proposed _ _ => st

/-- One iteration of the fold. A `proposed` event replaces whatever state its
id had; any other event of an unknown id is ignored. -/
def applyEvent (states : States) (e : Event) : States :=
  match e.body with
  | .proposed action expiresAt =>
    states.set e.actionId { action, status := .proposed, expiresAt }
  | body =>
    match states.get? e.actionId with
    | none => states
    | some st => states.set e.actionId (transition st body)

def fold (journal : Journal) : States := journal.foldl applyEvent Dict.empty

def stateOf (journal : Journal) (actionId : String) : Option ApprovalState :=
  (fold journal).get? actionId

/-- `_TERMINAL`. -/
def Status.terminal : Status → Bool
  | .denied | .expired | .done | .failed => true
  | _ => false

def isTerminal (journal : Journal) (actionId : String) : Bool :=
  match stateOf journal actionId with
  | none => false
  | some st => st.status.terminal

end Sentinel.Actions
