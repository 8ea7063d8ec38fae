import Sentinel.Actions.Session
import Sentinel.Python.Iteration
import Sentinel.Python.JsonReaderProofs
import Sentinel.Transition.Calls

/-! The Socket Mode listener. A connection delivers envelopes until it drops, each is
acknowledged and then handed to the shared decision handling; what the network does is
given, and other surfaces act on the same journal between two envelopes. -/
namespace Sentinel.Actions
open Python Transition

/-- An envelope, the clock at its decision, and what the calls around it raise. -/
structure Frame where
  raw : List Char
  now : ℚ
  sent : Py Unit := .ok ()
  posted : Py Unit := .ok ()
  reported : Py Unit := .ok ()

/-- What happens while a connection is open. -/
inductive Incoming where
  | frame (frame : Frame)
  | other (call : Call)

/-- `connect` and the end of the iteration return or raise. -/
structure Connection where
  opened : Py Unit := .ok ()
  incoming : List Incoming
  closed : Py Unit := .ok ()

/-- `isinstance(exc, (ConnectionClosed, ConnectionError, OSError))`. -/
class ConnectionErrors where
  dropped : Exn → Bool

/-- A decision as it arrives. Nothing checks the types of its fields. -/
structure Click where
  actionId : Json
  decision : Json
  approver : Json

inductive SocketEvent where
  | acked (envelope : Json)
  | decided (envelope : Json) (frame : Frame) (click : Click)
  | counted
  | other (call : Call)

/-- The strays are the ids of denials in the journal that are not strings. The fold has no
action of such an id, and raises at one that is not hashable. -/
structure Listener where
  world : World
  strays : List Json := []
  seen : ℕ := 0

/-- The id at which every fold of the journal raises. -/
def Listener.jam (s : Listener) : Option Json := s.strays.find? fun id => !id.hashable

/-- The call reads the folded journal. -/
def Call.folds : Call → Bool
  | .decide _ decision _ _ _ _ => decision == "approve"
  | .execute _ _ _ => true
  | _ => false

abbrev Listening := Calls Exn SocketEvent Listener

/-- What the loop does next. -/
inductive Flow where
  | next | reconnect | finish
  deriving DecidableEq

/-- `(payload.get("actions") or [{}])[0]`. -/
def firstAction (payload : Json) : Py Json := do
  let actions ← payload.get "actions"
  if !actions.truthy then pure (.dict [])
  else
    match actions with
    | .list (action :: _) => pure action
    | .str text => pure (.str (String.ofList (text.toList.take 1)))
    | .dict _ => throw ⟨"KeyError", "0", false⟩
    | v => throw ⟨"TypeError", s!"'{v.typeName}' object is not subscriptable", false⟩

/-- `_decision_from_payload`. -/
def decisionFromPayload (payload : Json) : Py Click := do
  let action ← firstAction payload
  let user ← payload.get "user"
  let username ← user.orEmptyDict.get "username"
  let approver ←
    if username.truthy then pure username else user.orEmptyDict.getElse "id" (.str "slack-user")
  let actionId ← action.get "value"
  let decision ← action.getElse "action_id" (.str "")
  pure ⟨actionId, decision, approver⟩

section
variable [FloatRepr] [Hashlib] (executor : Executor) (maxEvents : Option ℕ)

/-- `handle_decision`, and the reply to the thread if there is one. The events hold texts, so
an approver that is not a string, which nothing reads, stands there by its text. -/
def decideOn (frame : Frame) (click : Click) (s : Listener) : Py Unit × Listener :=
  let approver := click.approver.display
  let handled (actionId decision : String) : Py Unit × Listener :=
    let run := handleDecision s.world.journal actionId decision approver "slack" (some executor) frame.now
    let replied : Py Unit := if run.thread.isSome then frame.posted else .ok ()
    (run.result >>= fun _ => replied,
      { s with world := ⟨run.journal, s.world.executions ++ run.invocation.toList⟩ })
  if click.decision.pyEq (.str "deny") then
    match click.actionId with
    | .str actionId => handled actionId "deny"
    | stray => (.ok (), { s with strays := s.strays ++ [stray] })
  else if !click.decision.pyEq (.str "approve") then (.ok (), s)
  else
    match s.jam, click.actionId with
    | some stray, _ => (.error stray.unhashable, s)
    | none, .str actionId => handled actionId "approve"
    | none, stray => (if stray.hashable then .ok () else .error stray.unhashable, s)

/-- A call of another surface, without effect where its fold raises. -/
def Listener.other (s : Listener) (call : Call) : Listener :=
  if s.jam.isSome ∧ call.folds then s else { s with world := call.run s.world }

/-- A decision is handled, reported and counted. -/
def onDecision (frame : Frame) (envelope : Json) (click : Click) : Listening Flow := do
  .logged (.decided envelope frame click) (decideOn executor frame click)
  .call fun s => (frame.reported, s)
  .logged .counted fun s =>
    (.ok (if maxEvents.any (· ≤ s.seen + 1) then .finish else .next), { s with seen := s.seen + 1 })

/-- What follows the acknowledgement of an envelope. -/
def onEnvelope (frame : Frame) (msg mtype envelope : Json) : Listening Flow :=
  if !mtype.pyEq (.str "interactive") then pure .next
  else do
    let payload := (msg.lookup "payload").getD (.dict [])
    let kind ← .lift (payload.get "type")
    if !kind.pyEq (.str "block_actions") then pure .next
    else do
      let click ← .lift (decisionFromPayload payload)
      if !click.actionId.truthy then pure .next
      else onDecision executor maxEvents frame envelope click

variable [FloatReader]

/-- The body of `async for raw in ws`. -/
def onFrame (frame : Frame) : Listening Flow := do
  let msg ← .lift (loads frame.raw)
  let mtype ← .lift (msg.get "type")
  if mtype.pyEq (.str "hello") then pure .next
  else if mtype.pyEq (.str "disconnect") then pure .reconnect
  else do
    let envelope ← .lift (msg.get "envelope_id")
    if envelope.truthy then do
      .logged (.acked envelope) fun s => (frame.sent, s)
      onEnvelope executor maxEvents frame msg mtype envelope
    else onEnvelope executor maxEvents frame msg mtype envelope

def onIncoming : Incoming → Listening Flow
  | .frame frame => onFrame executor maxEvents frame
  | .other call => .logged (.other call) fun s => (.ok .next, s.other call)

def onIncomings : List Incoming → Listening Flow
  | [] => pure .next
  | item :: rest => do
    let flow ← onIncoming executor maxEvents item
    if flow = .next then onIncomings rest else pure flow

def onConnection (connection : Connection) : Listening Flow := do
  .lift connection.opened
  let flow ← onIncomings executor maxEvents connection.incoming
  if flow = .next then do
    .lift connection.closed
    pure .reconnect
  else pure flow

/-- How far `_run` has come. -/
inductive Ending where
  | listening | returned | raised (e : Exn)

/-- `_run`, over the connections so far. -/
def listen [ConnectionErrors] : List Connection → Listener × List SocketEvent →
    Ending × Listener × List SocketEvent
  | [], s => (.listening, s)
  | connection :: rest, s =>
    match onConnection executor maxEvents connection s with
    | (.ok .finish, t) => (.returned, t)
    | (.ok _, t) => listen rest t
    | (.error e, t) => if ConnectionErrors.dropped e then listen rest t else (.raised e, t)

end

end Sentinel.Actions
