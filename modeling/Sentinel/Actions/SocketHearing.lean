import Sentinel.Actions.SocketMode

/-! What the listener does, item by item: a frame is acknowledged, then its click is handled
and counted, until something is raised, the connection ends or the listener has seen what it
was to see. The code does so. -/
namespace Sentinel.Actions
open Python Transition

/-- What a frame asks for, as far as it can be read. -/
inductive Ask where
  | greeting
  | disconnect
  | envelope (id : Json) (click : Py (Option Click))

/-- The click of a message, if it is one on an action. -/
def clickOf (msg mtype : Json) : Py (Option Click) :=
  if !mtype.pyEq (.str "interactive") then pure none
  else do
    let payload := (msg.lookup "payload").getD (.dict [])
    let kind ← payload.get "type"
    if !kind.pyEq (.str "block_actions") then pure none
    else do
      let click ← decisionFromPayload payload
      pure (if !click.actionId.truthy then none else some click)

def Frame.ask [FloatRepr] [FloatReader] (frame : Frame) : Py Ask := do
  let msg ← loads frame.raw
  let mtype ← msg.get "type"
  if mtype.pyEq (.str "hello") then pure .greeting
  else if mtype.pyEq (.str "disconnect") then pure .disconnect
  else do
    let id ← msg.get "envelope_id"
    pure (.envelope id (clickOf msg mtype))

def ackOf (id : Json) : List SocketEvent := if id.truthy then [.acked id] else []

/-- The acknowledgement is sent, where there is one to send. -/
def Frame.Sent (frame : Frame) (id : Json) : Prop := id.truthy = true → frame.sent = .ok ()

section
variable [FloatRepr] [Hashlib] (executor : Executor)

/-- What is logged takes its effect. -/
def SocketEvent.run (s : Listener) : SocketEvent → Listener
  | .acked _ => s
  | .decided _ frame click => (decideOn executor frame click s).2
  | .counted => { s with seen := s.seen + 1 }
  | .other call => s.other call

def replay (s : Listener) (events : List SocketEvent) : Listener :=
  events.foldl (SocketEvent.run executor) s

theorem replay_append (s : Listener) (events later : List SocketEvent) :
    replay executor s (events ++ later) = replay executor (replay executor s events) later :=
  List.foldl_append

/-- What the handling of a click and the report of it come to. -/
def handling (frame : Frame) (click : Click) (s : Listener) : Py Unit :=
  (decideOn executor frame click s).1 >>= fun _ => frame.reported

variable [FloatReader] (maxEvents : Option ℕ)

/-- What is logged at an item, and what follows it. -/
inductive Hears (s : Listener) : Incoming → List SocketEvent → Py Flow → Prop
  | other (call : Call) : Hears s (.other call) [.other call] (.ok .next)
  | unread {frame : Frame} {e : Exn} (ask : frame.ask = .error e) : Hears s (.frame frame) [] (.error e)
  | greeting {frame : Frame} (ask : frame.ask = .ok .greeting) : Hears s (.frame frame) [] (.ok .next)
  | disconnect {frame : Frame} (ask : frame.ask = .ok .disconnect) :
    Hears s (.frame frame) [] (.ok .reconnect)
  | unsent {frame : Frame} {id : Json} {click : Py (Option Click)} {e : Exn}
    (ask : frame.ask = .ok (.envelope id click)) (truthy : id.truthy = true) (sent : frame.sent = .error e) :
    Hears s (.frame frame) [.acked id] (.error e)
  | unclear {frame : Frame} {id : Json} {e : Exn} (ask : frame.ask = .ok (.envelope id (.error e)))
    (sent : frame.Sent id) : Hears s (.frame frame) (ackOf id) (.error e)
  | idle {frame : Frame} {id : Json} (ask : frame.ask = .ok (.envelope id (.ok none)))
    (sent : frame.Sent id) : Hears s (.frame frame) (ackOf id) (.ok .next)
  | failed {frame : Frame} {id : Json} {click : Click} {e : Exn}
    (ask : frame.ask = .ok (.envelope id (.ok (some click)))) (sent : frame.Sent id)
    (raised : handling executor frame click s = .error e) :
    Hears s (.frame frame) (ackOf id ++ [.decided id frame click]) (.error e)
  | counted {frame : Frame} {id : Json} {click : Click}
    (ask : frame.ask = .ok (.envelope id (.ok (some click)))) (sent : frame.Sent id)
    (handled : handling executor frame click s = .ok ()) :
    Hears s (.frame frame) (ackOf id ++ [.decided id frame click, .counted])
      (.ok (if maxEvents.any (· ≤ s.seen + 1) then .finish else .next))

/-- Items are heard up to the first after which it does not go on. -/
inductive HearsAll : Listener → List Incoming → List SocketEvent → Py Flow → Prop
  | none (s : Listener) : HearsAll s [] [] (.ok .next)
  | next {s : Listener} {item : Incoming} {rest : List Incoming} {events later : List SocketEvent}
    {result : Py Flow} (first : Hears executor maxEvents s item events (.ok .next))
    (others : HearsAll (replay executor s events) rest later result) :
    HearsAll s (item :: rest) (events ++ later) result
  | last {s : Listener} {item : Incoming} {rest : List Incoming} {events : List SocketEvent}
    {result : Py Flow} (first : Hears executor maxEvents s item events result) (ends : result ≠ .ok .next) :
    HearsAll s (item :: rest) events result

inductive Connects (s : Listener) (connection : Connection) : List SocketEvent → Py Flow → Prop
  | unopened {e : Exn} (opened : connection.opened = .error e) : Connects s connection [] (.error e)
  | left {events : List SocketEvent} {result : Py Flow} (opened : connection.opened = .ok ())
    (heard : HearsAll executor maxEvents s connection.incoming events result) (ends : result ≠ .ok .next) :
    Connects s connection events result
  | closed {events : List SocketEvent} (opened : connection.opened = .ok ())
    (heard : HearsAll executor maxEvents s connection.incoming events (.ok .next)) :
    Connects s connection events (connection.closed.map fun _ => .reconnect)

/-- Connections are listened to one after the other, until the listener returns or raises
what is no dropped connection. -/
inductive Listens [ConnectionErrors] : Listener → List Connection → List SocketEvent → Ending → Prop
  | waiting (s : Listener) : Listens s [] [] .listening
  | returned {s : Listener} {connection : Connection} {rest : List Connection} {events : List SocketEvent}
    (first : Connects executor maxEvents s connection events (.ok .finish)) :
    Listens s (connection :: rest) events .returned
  | raised {s : Listener} {connection : Connection} {rest : List Connection} {events : List SocketEvent}
    {e : Exn} (first : Connects executor maxEvents s connection events (.error e))
    (other : ConnectionErrors.dropped e = false) : Listens s (connection :: rest) events (.raised e)
  | again {s : Listener} {connection : Connection} {rest : List Connection} {events later : List SocketEvent}
    {result : Py Flow} {ending : Ending} (first : Connects executor maxEvents s connection events result)
    (going : result = .ok .reconnect ∨ ∃ e, result = .error e ∧ ConnectionErrors.dropped e = true)
    (others : Listens (replay executor s events) rest later ending) :
    Listens s (connection :: rest) (events ++ later) ending

end

/-! ### The code -/

section
variable [FloatRepr] [Hashlib] (executor : Executor) (maxEvents : Option ℕ)

/-- What follows an acknowledgement. -/
def onClick (frame : Frame) (id : Json) : Option Click → Listening Flow
  | none => pure .next
  | some click => onDecision executor maxEvents frame id click

def onAsk (frame : Frame) : Ask → Listening Flow
  | .greeting => pure .next
  | .disconnect => pure .reconnect
  | .envelope id click =>
    if id.truthy then do
      .logged (.acked id) fun s => (frame.sent, s)
      .lift click >>= onClick executor maxEvents frame id
    else .lift click >>= onClick executor maxEvents frame id

theorem onEnvelope_eq (frame : Frame) (msg mtype id : Json) :
    onEnvelope executor maxEvents frame msg mtype id =
      (.lift (clickOf msg mtype) >>= onClick executor maxEvents frame id) := by
  rw [onEnvelope, clickOf]
  split_ifs with interactive
  · rfl
  rw [Calls.lift_bind, bind_assoc]
  refine bind_congr fun kind => ?_
  split_ifs with actions
  · rfl
  rw [Calls.lift_bind, bind_assoc]
  refine bind_congr fun click => ?_
  split_ifs <;> rfl

theorem onFrame_eq [FloatReader] (frame : Frame) :
    onFrame executor maxEvents frame = (.lift frame.ask >>= onAsk executor maxEvents frame) := by
  rw [onFrame, Frame.ask, Calls.lift_bind, bind_assoc]
  refine bind_congr fun msg => ?_
  rw [Calls.lift_bind, bind_assoc]
  refine bind_congr fun mtype => ?_
  split_ifs with hello disconnect
  · rfl
  · rfl
  rw [Calls.lift_bind, bind_assoc]
  refine bind_congr fun id => ?_
  simp only [onEnvelope_eq]
  rfl

/-- Wherever the code starts, it takes the effect of what it logs, and what it logs and comes
to are related as told. -/
def Does (told : Listener → List SocketEvent → Py Flow → Prop) (code : Listening Flow) : Prop :=
  ∀ s log, ∃ events result, code (s, log) = (result, replay executor s events, log ++ events) ∧
    told s events result

/-- A decision is the call of another surface, or leaves journal and executor as they are. -/
theorem decideOn_cases (frame : Frame) (click : Click) (s : Listener) :
    (decideOn executor frame click s).2.seen = s.seen ∧
      ((decideOn executor frame click s).2.world = s.world ∨
        ∃ actionId decision approver, (decideOn executor frame click s).2.world =
          (Call.decide actionId decision approver "slack" (some executor) frame.now).run s.world) := by
  rw [decideOn]
  dsimp only
  split_ifs
  · split
    · exact ⟨rfl, .inr ⟨_, _, _, rfl⟩⟩
    · exact ⟨rfl, .inl rfl⟩
  · exact ⟨rfl, .inl rfl⟩
  · split
    · exact ⟨rfl, .inl rfl⟩
    · exact ⟨rfl, .inr ⟨_, _, _, rfl⟩⟩
    · exact ⟨rfl, .inl rfl⟩

theorem does_decision (frame : Frame) (id : Json) (click : Click) :
    Does executor (fun s events result =>
      (∃ e, handling executor frame click s = .error e ∧ events = [.decided id frame click] ∧
        result = .error e) ∨
      (handling executor frame click s = .ok () ∧ events = [.decided id frame click, .counted] ∧
        result = .ok (if maxEvents.any (· ≤ s.seen + 1) then .finish else .next)))
      (onDecision executor maxEvents frame id click) := by
  intro s log
  have seen := (decideOn_cases executor frame click s).1
  simp only [onDecision, Calls.bind_apply, Calls.logged, Calls.call, handling]
  cases handled : (decideOn executor frame click s).1 with
  | error e => exact ⟨_, _, rfl, .inl ⟨e, rfl, rfl, rfl⟩⟩
  | ok _ =>
    dsimp only
    cases reported : frame.reported with
    | error e => exact ⟨_, _, rfl, .inl ⟨e, rfl, rfl, rfl⟩⟩
    | ok _ =>
      refine ⟨_, _, Prod.ext ?_ (Prod.ext rfl (List.append_assoc _ _ _)), .inr ⟨rfl, rfl, rfl⟩⟩
      simp only [seen]

variable [FloatReader]

theorem does_click (frame : Frame) {id : Json} {click : Py (Option Click)}
    (ask : frame.ask = .ok (.envelope id click)) (sent : frame.Sent id) (s : Listener) (log : List SocketEvent) :
    ∃ events result, (Calls.lift click >>= onClick executor maxEvents frame id) (s, log ++ ackOf id) =
        (result, replay executor s events, log ++ events) ∧
      Hears executor maxEvents s (.frame frame) events result := by
  have acked : replay executor s (ackOf id) = s := by
    rw [ackOf]
    split_ifs <;> rfl
  cases click with
  | error e => exact ⟨_, _, by rw [acked]; rfl, .unclear ask sent⟩
  | ok click =>
    cases click with
    | none => exact ⟨_, _, by rw [acked]; rfl, .idle ask sent⟩
    | some click =>
      obtain ⟨events, result, ran, told⟩ := does_decision executor maxEvents frame id click s (log ++ ackOf id)
      have replayed : replay executor s (ackOf id ++ events) = replay executor s events := by
        rw [replay_append, acked]
      refine ⟨ackOf id ++ events, result, ?_, ?_⟩
      · rw [replayed, ← List.append_assoc]
        exact ran
      · rcases told with ⟨e, raised, rfl, rfl⟩ | ⟨handled, rfl, rfl⟩
        · exact .failed ask sent raised
        · exact .counted ask sent handled

theorem does_incoming (item : Incoming) :
    Does executor (fun s => Hears executor maxEvents s item) (onIncoming executor maxEvents item) := by
  intro s log
  cases item with
  | other call => exact ⟨_, _, rfl, .other call⟩
  | frame frame =>
    rw [onIncoming, onFrame_eq]
    have unlogged : (s, log) = (replay executor s [], log ++ []) := by
      rw [List.append_nil]
      rfl
    cases ask : frame.ask with
    | error e => exact ⟨[], _, congrArg _ unlogged, .unread ask⟩
    | ok asked =>
      cases asked with
      | greeting => exact ⟨[], _, congrArg _ unlogged, .greeting ask⟩
      | disconnect => exact ⟨[], _, congrArg _ unlogged, .disconnect ask⟩
      | envelope id click =>
        have heard := does_click executor maxEvents frame ask
        simp only [Calls.lift, Calls.bind_apply, onAsk]
        split_ifs with truthy
        · cases sent : frame.sent with
          | error e =>
            exact ⟨[.acked id], .error e, by simp [Calls.bind_apply, Calls.logged]; rfl,
              .unsent ask truthy sent⟩
          | ok _ =>
            obtain ⟨events, result, ran, told⟩ := heard (fun _ => sent) s log
            rw [ackOf, if_pos truthy] at ran
            refine ⟨events, result, ?_, told⟩
            rw [← ran]
            simp [Calls.bind_apply, Calls.logged]
        · obtain ⟨events, result, ran, told⟩ := heard (fun present => absurd present truthy) s log
          rw [ackOf, if_neg truthy, List.append_nil] at ran
          exact ⟨events, result, ran, told⟩

theorem does_incomings (items : List Incoming) :
    Does executor (fun s => HearsAll executor maxEvents s items) (onIncomings executor maxEvents items) := by
  induction items with
  | nil =>
    intro s log
    refine ⟨[], .ok .next, ?_, .none s⟩
    rw [List.append_nil]
    rfl
  | cons item rest ih =>
    intro s log
    obtain ⟨events, result, ran, told⟩ := does_incoming executor maxEvents item s log
    rw [onIncomings, Calls.bind_apply, ran]
    cases result with
    | error e => exact ⟨events, .error e, rfl, .last told (by simp)⟩
    | ok flow =>
      dsimp only
      split_ifs with going
      · subst going
        obtain ⟨later, result, ran', told'⟩ := ih (replay executor s events) (log ++ events)
        refine ⟨events ++ later, result, ?_, .next told told'⟩
        rw [ran', List.append_assoc, replay_append]
      · exact ⟨events, .ok flow, rfl, .last told fun same => going (Except.ok.inj same)⟩

theorem does_connection (connection : Connection) :
    Does executor (fun s => Connects executor maxEvents s connection)
      (onConnection executor maxEvents connection) := by
  intro s log
  rw [onConnection, Calls.bind_apply, Calls.lift]
  cases opened : connection.opened with
  | error e =>
    refine ⟨[], .error e, ?_, .unopened opened⟩
    rw [List.append_nil]
    rfl
  | ok _ =>
    obtain ⟨events, result, ran, told⟩ := does_incomings executor maxEvents connection.incoming s log
    dsimp only
    rw [Calls.bind_apply, ran]
    cases result with
    | error e => exact ⟨events, .error e, rfl, .left opened told (by simp)⟩
    | ok flow =>
      dsimp only
      split_ifs with going
      · subst going
        refine ⟨events, _, ?_, .closed opened told⟩
        rw [Calls.bind_apply, Calls.lift]
        cases connection.closed <;> rfl
      · exact ⟨events, .ok flow, rfl, .left opened told fun same => going (Except.ok.inj same)⟩

/-- A connection is left one way or the other. -/
theorem Connects.ends {s : Listener} {connection : Connection} {events : List SocketEvent} {result : Py Flow}
    (told : Connects executor maxEvents s connection events result) : result ≠ .ok .next := by
  cases told with
  | unopened opened => simp
  | left opened heard ends => exact ends
  | closed opened heard => cases connection.closed <;> simp [Except.map]

variable [ConnectionErrors]

theorem listens (connections : List Connection) (s : Listener) (log : List SocketEvent) :
    ∃ events ending, listen executor maxEvents connections (s, log) =
        (ending, replay executor s events, log ++ events) ∧
      Listens executor maxEvents s connections events ending := by
  induction connections generalizing s log with
  | nil =>
    refine ⟨[], .listening, ?_, .waiting s⟩
    rw [List.append_nil]
    rfl
  | cons connection rest ih =>
    obtain ⟨events, result, ran, told⟩ := does_connection executor maxEvents connection s log
    have again (going : result = .ok .reconnect ∨
          ∃ e, result = .error e ∧ ConnectionErrors.dropped e = true) :
        ∃ all ending, listen executor maxEvents rest (replay executor s events, log ++ events) =
            (ending, replay executor s all, log ++ all) ∧
          Listens executor maxEvents s (connection :: rest) all ending := by
      obtain ⟨later, ending, ran', told'⟩ := ih (replay executor s events) (log ++ events)
      refine ⟨events ++ later, ending, ?_, .again told going told'⟩
      rw [ran', List.append_assoc, replay_append]
    rw [listen, ran]
    cases result with
    | error e =>
      cases dropped : ConnectionErrors.dropped e with
      | true =>
        simp only [dropped, if_true]
        exact again (.inr ⟨e, rfl, dropped⟩)
      | false => exact ⟨events, .raised e, by simp [dropped], .raised told dropped⟩
    | ok flow =>
      cases flow with
      | next => exact absurd rfl told.ends
      | reconnect => exact again (.inl rfl)
      | finish => exact ⟨events, .returned, rfl, .returned told⟩

end

end Sentinel.Actions
