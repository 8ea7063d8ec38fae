import Sentinel.Actions.SocketHearing

/-! What a listener keeps: its decisions are acknowledged before they are handled, it returns
exactly at the last that it was asked for, and a click that is delivered again executes
nothing again. -/
namespace Sentinel.Actions
open Python Transition

def SocketEvent.isDecided : SocketEvent → Bool
  | .decided _ _ _ => true
  | _ => false

def SocketEvent.isCounted : SocketEvent → Bool
  | .counted => true
  | _ => false

def SocketEvent.proposedId : SocketEvent → Option String
  | .other call => call.proposedId
  | _ => none

/-- The envelope of a decision, if it has an id, is acknowledged just before. -/
def AckedFirst (events : List SocketEvent) : Prop :=
  ∀ before envelope frame click after, events = before ++ .decided envelope frame click :: after →
    envelope.truthy = true → ∃ earlier, before = earlier ++ [.acked envelope]

theorem ackedFirst_undecided {events : List SocketEvent} (undecided : ∀ e ∈ events, e.isDecided = false) :
    AckedFirst events := by
  rintro before envelope frame click after rfl
  exact absurd (undecided (.decided envelope frame click) (by simp)) (by simp [SocketEvent.isDecided])

theorem AckedFirst.append {events later : List SocketEvent} (first : AckedFirst events)
    (second : AckedFirst later) : AckedFirst (events ++ later) := by
  intro before envelope frame click after split truthy
  rcases List.append_eq_append_iff.mp split with ⟨middle, rfl, rest⟩ | ⟨middle, whole, rest⟩
  · obtain ⟨earlier, rfl⟩ := second middle envelope frame click after rest truthy
    exact ⟨events ++ earlier, (List.append_assoc _ _ _).symm⟩
  · cases middle with
    | nil =>
      obtain ⟨earlier, none⟩ := second [] envelope frame click after rest.symm truthy
      simp at none
    | cons e middle =>
      obtain ⟨rfl, -⟩ := List.cons.inj rest
      exact first before envelope frame click middle whole truthy

theorem ackedFirst_ackOf (id : Json) : AckedFirst (ackOf id) := by
  rw [ackOf]
  split_ifs
  all_goals exact ackedFirst_undecided (by simp [SocketEvent.isDecided])

theorem ackedFirst_decided (id : Json) (frame : Frame) (click : Click) :
    AckedFirst (ackOf id ++ [.decided id frame click]) := by
  intro before envelope frame' click' after split truthy
  have undecided := ackedFirst_ackOf id
  rcases append_one_split split with ⟨-, same, rfl⟩ | ⟨middle, -, whole⟩
  · obtain ⟨rfl, -, -⟩ : envelope = id ∧ frame' = frame ∧ click' = click := by simpa [eq_comm] using same
    exact ⟨[], by simp [ackOf, truthy]⟩
  · exact undecided before envelope frame' click' middle whole truthy

theorem uncounted_ackOf (id : Json) : (ackOf id).countP SocketEvent.isCounted = 0 := by
  rw [ackOf]
  split_ifs <;> rfl

/-- The listener is to return. -/
def finishes : Py Flow → Bool
  | .ok .finish => true
  | _ => false

section
variable [FloatRepr] [Hashlib] {executor : Executor} {maxEvents : Option ℕ}

/-- The decisions were acknowledged, and the listener returns at the last that it was
asked for. -/
structure Since (executor : Executor) (maxEvents : Option ℕ) (s : Listener) (events : List SocketEvent)
    (finished : Bool) : Prop where
  acked : AckedFirst events
  last : finished = true → ∃ k ∈ maxEvents, (replay executor s events).seen = max 1 k
  below : finished = false → ∀ k ∈ maxEvents, (replay executor s events).seen < max 1 k

theorem run_seen (s : Listener) (e : SocketEvent) :
    (e.run executor s).seen = s.seen + if e.isCounted then 1 else 0 := by
  cases e with
  | decided envelope frame click => exact (decideOn_cases executor frame click s).1
  | other call =>
    have uncounted : (s.other call).seen = s.seen := by
      rw [Listener.other]
      split_ifs <;> rfl
    exact uncounted
  | _ => rfl

/-- What the listener has seen are the decisions that it counted. -/
theorem replay_seen (s : Listener) (events : List SocketEvent) :
    (replay executor s events).seen = s.seen + events.countP SocketEvent.isCounted := by
  induction events generalizing s with
  | nil => rfl
  | cons e rest ih =>
    have others := ih (e.run executor s)
    rw [run_seen] at others
    rw [List.countP_cons, add_comm (rest.countP _), ← add_assoc]
    exact others

theorem since_uncounted {s : Listener} {events : List SocketEvent} (acked : AckedFirst events)
    (uncounted : events.countP SocketEvent.isCounted = 0) (below : ∀ k ∈ maxEvents, s.seen < max 1 k) :
    Since executor maxEvents s events false := by
  refine ⟨acked, by simp, fun _ k member => ?_⟩
  rw [replay_seen, uncounted]
  exact below k member

theorem since_nil {s : Listener} (below : ∀ k ∈ maxEvents, s.seen < max 1 k) :
    Since executor maxEvents s [] false :=
  since_uncounted (ackedFirst_undecided (by simp)) rfl below

theorem Since.trans {s : Listener} {events later : List SocketEvent} {finished : Bool}
    (first : Since executor maxEvents s events false)
    (second : Since executor maxEvents (replay executor s events) later finished) :
    Since executor maxEvents s (events ++ later) finished :=
  ⟨first.acked.append second.acked, by rw [replay_append]; exact second.last,
    by rw [replay_append]; exact second.below⟩

variable [FloatReader] {s : Listener}

theorem Hears.since {item : Incoming} {events : List SocketEvent} {result : Py Flow}
    (heard : Hears executor maxEvents s item events result) (below : ∀ k ∈ maxEvents, s.seen < max 1 k) :
    Since executor maxEvents s events (finishes result) := by
  cases heard with
  | other call => exact since_uncounted (ackedFirst_undecided (by simp [SocketEvent.isDecided])) rfl below
  | unread ask => exact since_nil below
  | greeting ask => exact since_nil below
  | disconnect ask => exact since_nil below
  | unsent ask truthy sent =>
    exact since_uncounted (ackedFirst_undecided (by simp [SocketEvent.isDecided])) rfl below
  | unclear ask sent => exact since_uncounted (ackedFirst_ackOf _) (uncounted_ackOf _) below
  | idle ask sent => exact since_uncounted (ackedFirst_ackOf _) (uncounted_ackOf _) below
  | @failed frame id click e ask sent raised =>
    refine since_uncounted (ackedFirst_decided id frame click) ?_ below
    rw [List.countP_append, uncounted_ackOf]
    rfl
  | @counted frame id click ask sent handled =>
    have seen : (replay executor s (ackOf id ++ [.decided id frame click, .counted])).seen = s.seen + 1 := by
      rw [replay_seen, List.countP_append, uncounted_ackOf]
      rfl
    refine ⟨?_, fun finished => ?_, fun going k member => ?_⟩
    · rw [List.append_cons]
      exact (ackedFirst_decided id frame click).append (ackedFirst_undecided (by simp [SocketEvent.isDecided]))
    · have reached : maxEvents.any (· ≤ s.seen + 1) = true := by
        by_contra unreached
        rw [if_neg unreached] at finished
        cases finished
      obtain ⟨k, member, reached⟩ := (Option.any_eq_true _ _).mp reached
      refine ⟨k, member, ?_⟩
      have := below k member
      have := of_decide_eq_true reached
      omega
    · have unreached : ¬ maxEvents.any (· ≤ s.seen + 1) = true := by
        intro reached
        rw [if_pos reached] at going
        cases going
      rw [Option.mem_def.mp member, Option.any_some, decide_eq_true_eq] at unreached
      omega

theorem HearsAll.since {items : List Incoming} {events : List SocketEvent} {result : Py Flow}
    (heard : HearsAll executor maxEvents s items events result) (below : ∀ k ∈ maxEvents, s.seen < max 1 k) :
    Since executor maxEvents s events (finishes result) := by
  induction heard with
  | none s => exact since_nil below
  | next first others ih =>
    have begun := first.since below
    exact begun.trans (ih (begun.below rfl))
  | last first ends => exact first.since below

theorem Connects.since {connection : Connection} {events : List SocketEvent} {result : Py Flow}
    (told : Connects executor maxEvents s connection events result) (below : ∀ k ∈ maxEvents, s.seen < max 1 k) :
    Since executor maxEvents s events (finishes result) := by
  cases told with
  | unopened opened => exact since_nil below
  | left opened heard ends => exact heard.since below
  | closed opened heard =>
    have since := heard.since below
    cases connection.closed <;> exact since

variable [ConnectionErrors]

theorem Listens.since {connections : List Connection} {events : List SocketEvent} {ending : Ending}
    (told : Listens executor maxEvents s connections events ending)
    (below : ∀ k ∈ maxEvents, s.seen < max 1 k) :
    ∃ finished, Since executor maxEvents s events finished ∧ (finished = true ↔ ending = .returned) := by
  induction told with
  | waiting s => exact ⟨false, since_nil below, by simp⟩
  | returned first => exact ⟨true, first.since below, by simp⟩
  | raised first other => exact ⟨false, first.since below, by simp⟩
  | @again _ _ _ _ _ result _ first going others ih =>
    have begun := first.since below
    have unfinished : finishes result = false := by
      rcases going with rfl | ⟨e, rfl, -⟩ <;> rfl
    rw [unfinished] at begun
    obtain ⟨finished, later, returned⟩ := ih (begun.below rfl)
    exact ⟨finished, begun.trans later, returned⟩

end

section
variable [FloatRepr] [Hashlib]

theorem Kept.event (collisionFree : CollisionFree) (executor : Executor) {s : Listener} (kept : Kept s.world)
    (unique : (idsOf s.world.journal .proposed).Nodup) (e : SocketEvent) : Kept (e.run executor s).world := by
  cases e with
  | decided envelope frame click =>
    rcases (decideOn_cases executor frame click s).2 with same | ⟨actionId, decision, approver, called⟩
    · exact same ▸ kept
    · exact called ▸ kept.run collisionFree _ unique
  | other call =>
    rw [SocketEvent.run, Listener.other]
    split_ifs
    · exact kept
    · exact kept.run collisionFree call unique
  | _ => exact kept

/-- Only a call of another surface proposes. -/
theorem event_proposed (executor : Executor) (s : Listener) (e : SocketEvent) :
    idsOf (e.run executor s).world.journal .proposed <+:
      idsOf s.world.journal .proposed ++ e.proposedId.toList := by
  cases e with
  | decided envelope frame click =>
    rcases (decideOn_cases executor frame click s).2 with same | ⟨actionId, decision, approver, called⟩
    · rw [SocketEvent.run, same]
      exact List.prefix_append _ _
    · rw [SocketEvent.run, called, run_proposed]
      exact List.prefix_rfl
  | other call =>
    rw [SocketEvent.run, Listener.other]
    split_ifs
    · exact List.prefix_append _ _
    · rw [run_proposed]
      exact List.prefix_rfl
  | _ => exact List.prefix_append _ _

theorem Kept.replay (collisionFree : CollisionFree) (executor : Executor) {events : List SocketEvent}
    {s : Listener} (kept : Kept s.world)
    (unique : (idsOf s.world.journal .proposed ++ events.filterMap SocketEvent.proposedId).Nodup) :
    Kept (replay executor s events).world := by
  induction events generalizing s with
  | nil => exact kept
  | cons e rest ih =>
    refine ih (kept.event collisionFree executor (List.nodup_append.mp unique).1 e) ?_
    refine List.Nodup.sublist ((event_proposed executor s e).sublist.append_right _) ?_
    rw [List.append_assoc]
    cases proposal : e.proposedId <;> simpa [proposal] using unique

variable [FloatReader] [ConnectionErrors]

/-- Whatever is delivered, dropped and delivered again, and whatever other surfaces do in
between: the listener does what its frames ask for, each decision acknowledged before, it
returns exactly when it has counted as many as it was asked for, and every execution is
safe, its action's only one. -/
theorem listener_safe (collisionFree : CollisionFree) (executor : Executor) (maxEvents : Option ℕ)
    (connections : List Connection) (journal : Journal) (hashed : Hashed journal) :
    ∃ events ending listener,
      listen executor maxEvents connections ({ world := ⟨journal, []⟩ }, []) = (ending, listener, events) ∧
      Listens executor maxEvents { world := ⟨journal, []⟩ } connections events ending ∧
      listener = replay executor { world := ⟨journal, []⟩ } events ∧ AckedFirst events ∧
      listener.seen = events.countP SocketEvent.isCounted ∧ (∀ k ∈ maxEvents, listener.seen ≤ max 1 k) ∧
      (ending = .returned ↔ ∃ k ∈ maxEvents, listener.seen = max 1 k) ∧
      ((idsOf journal .proposed ++ events.filterMap SocketEvent.proposedId).Nodup →
        ∀ earlier i later, listener.world.executions = earlier ++ i :: later → Safe earlier i) := by
  obtain ⟨events, ending, ran, told⟩ := listens executor maxEvents connections { world := ⟨journal, []⟩ } []
  obtain ⟨finished, since, returned⟩ := told.since fun k _ => lt_of_lt_of_le Nat.zero_lt_one (le_max_left 1 k)
  refine ⟨events, ending, _, ran, told, rfl, since.acked, ?_, fun k member => ?_, ?_, fun unique => ?_⟩
  · exact (replay_seen _ events).trans (Nat.zero_add _)
  · cases finished with
    | true =>
      obtain ⟨k', member', seen⟩ := since.last rfl
      rw [seen, Option.mem_unique member member']
    | false => exact (since.below rfl k member).le
  · rw [← returned]
    refine ⟨since.last, ?_⟩
    rintro ⟨k, member, seen⟩
    by_contra going
    exact absurd seen (since.below (Bool.eq_false_iff.mpr going) k member).ne
  · exact (Kept.replay collisionFree executor ⟨hashed, by simp, by simp⟩ unique).safe

end

section Sample
attribute [local instance] fractionRepr fractionReader pinnedHashlib

/-- Only an abrupt close is a dropped connection here. -/
@[reducible] def closedOnly : ConnectionErrors where
  dropped e := e.type = "ConnectionClosedError"

attribute [local instance] closedOnly

def approveClick : List Char := dumps (.dict [("type", .str "interactive"), ("envelope_id", .str "e1"),
  ("payload", .dict [("type", .str "block_actions"), ("user", .dict [("username", .str "dana")]),
    ("actions", .list [.dict [("action_id", .str "approve"), ("value", .str "a1")]])])])

/-- The connection drops when the click is acknowledged, and on the next one it comes twice. -/
def redelivered : List Connection :=
  [{ incoming := [.frame { raw := approveClick, now := 5, sent := .error ⟨"ConnectionClosedError", "", false⟩ }] },
    { incoming := [.frame { raw := approveClick, now := 6 }, .frame { raw := approveClick, now := 7 }] }]

def restartProposed : Journal := [⟨"a1", .proposed (restartOrders "a1").withHash (some 10)⟩]

theorem redelivered_click_safe : ∃ events ending listener,
    listen (dryRunExecutor 0) (some 2) redelivered ({ world := ⟨restartProposed, []⟩ }, []) =
        (ending, listener, events) ∧
      ending = .returned ∧ listener.seen = 2 ∧ listener.world.executions.length = 1 ∧
      ∀ earlier i later, listener.world.executions = earlier ++ i :: later → Safe earlier i := by
  have hashed : Hashed restartProposed := by
    intro e member
    obtain rfl := List.mem_singleton.mp member
    rintro _ _ ⟨⟩
    rfl
  obtain ⟨events, ending, listener, run, -, -, -, -, -, limit, safe⟩ := listener_safe
    pinnedHashlib_collisionFree (dryRunExecutor 0) (some 2) redelivered restartProposed hashed
  have counted :
      let last := listen (dryRunExecutor 0) (some 2) redelivered ({ world := ⟨restartProposed, []⟩ }, [])
      last.2.1.seen = 2 ∧ last.2.1.world.executions.length = 1 ∧
        (idsOf restartProposed .proposed ++ last.2.2.filterMap SocketEvent.proposedId).Nodup := by
    decide +kernel
  rw [run] at counted
  exact ⟨events, ending, listener, run, limit.mpr ⟨2, rfl, counted.1⟩, counted.1, counted.2.1,
    safe counted.2.2⟩

end Sample

end Sentinel.Actions
