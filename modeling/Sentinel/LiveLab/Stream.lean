import Sentinel.LiveLab.EventLog

/-! The stream of a live run. A request tests whether the run thread is alive and
then, in a later step, either subscribes to the bus or reads the journal file. The
run emits from any of its threads, joins them, closes the bus once and ends; an
exception outside `Exception` in its last cleanup ends it without the close. -/
namespace Sentinel.LiveLab
open Python Transition

/-- A GET of `/runs/{id}/stream`, as far as it has come. -/
inductive Request where
  -- `is_active` answered True, or False
  | live (after : ℤ)
  | finished (after : ℤ)
  -- the subscription taken, by its index
  | subscribed (after : ℤ) (i : ℕ)
  -- all that the journal held past `after`
  | replayed (after : ℤ) (frames : Py (List SseFrame))

def Request.after : Request → ℤ
  | .live after | .finished after | .subscribed after _ | .replayed after _ => after

structure StreamState where
  bus : BusState
  -- the run thread is alive
  alive : Bool := true
  requests : List Request := []

def StreamState.start (maxlen : ℕ) : StreamState := { bus := .start maxlen true }

inductive StreamCall where
  -- threads of the run
  | emit (event : String) (data : Json) (atMs : ℤ)
  | close
  | closing (atMs : ℤ)
  | exit
  -- a client, and the server for it
  | request (after : ℤ)
  | serve (r : ℕ)
  | pull (r : ℕ)

section
variable [FloatRepr] [FloatReader]

/-- `disk_gen`, or `ring_gen` while there is no file: the first frame makes it. -/
def EventBus.replay (bus : EventBus) (after : ℤ) : Py (List SseFrame) :=
  match bus.journal with
  | none | some [] => .ok ((bus.backlog after).map BusFrame.toSseFrame)
  | some text => do
    let frames ← readEvents text
    pure (frames.filter fun f => after < f.seq)

def StreamState.next (s : StreamState) : StreamCall → Option StreamState
  | .emit event data atMs =>
    if s.alive = true ∧ s.bus.closers = [] then
      (s.bus.next (.emit event data atMs)).map fun bus => { s with bus }
    else none
  | .close =>
    if s.alive = true ∧ s.bus.closers = [] then
      (s.bus.next .close).map fun bus => { s with bus }
    else none
  | .closing atMs => (s.bus.next (.closing 0 atMs)).map fun bus => { s with bus }
  | .exit =>
    if s.bus.closers = [] ∨ s.bus.closers = [.returned] then some { s with alive := false } else none
  | .request after =>
    some { s with requests := s.requests ++ [if s.alive then .live after else .finished after] }
  | .serve r =>
    match s.requests[r]? with
    | some (.live after) =>
      (s.bus.next (.subscribe after)).map fun bus =>
        { s with bus, requests := s.requests.set r (.subscribed after s.bus.bus.subs.length) }
    | some (.finished after) =>
      some { s with requests := s.requests.set r (.replayed after (s.bus.bus.replay after)) }
    | _ => none
  | .pull r =>
    match s.requests[r]? with
    | some (.subscribed _ i) => (s.bus.next (.get i)).map fun bus => { s with bus }
    | _ => none

def StreamStep (s : StreamState) (call : StreamCall) (s' : StreamState) : Prop :=
  s.next call = some s'

end

/-- A client asks for frames past one that the run has emitted. -/
def Asked (s : StreamState) : StreamCall → Prop
  | .request after => after ≤ s.bus.bus.seq
  | _ => True

instance (s : StreamState) (call : StreamCall) : Decidable (Asked s call) :=
  match call with
  | .request _ => inferInstanceAs (Decidable (_ ≤ _))
  | .emit .. | .close | .closing _ | .exit | .serve _ | .pull _ => inferInstanceAs (Decidable True)

/-- The run's frames past `after`. -/
def EventBus.past (bus : EventBus) (after : ℤ) : List BusFrame :=
  bus.frames.filter fun f => after < f.seq

/-- What a request delivers, its data after one `json.dumps` and `json.loads`. -/
def StreamState.delivers (s : StreamState) : Request → Option (List SseFrame)
  | .subscribed _ i => s.bus.bus.subs[i]?.map fun sub =>
    (sub.yielded ++ sub.queue).reduceOption.map BusFrame.reloaded
  | .replayed _ (.ok frames) => some frames
  | _ => none

/-- The stream serves each client the run's frames past what it asked for. -/
structure Streams (s : StreamState) : Prop where
  increasing : ∀ after, (s.bus.bus.past after).Pairwise fun f g => f.seq < g.seq
  subscribed : ∀ after i, .subscribed after i ∈ s.requests →
    ∃ sub, s.bus.bus.subs[i]? = some sub ∧
      sub.yielded ++ sub.queue =
        (s.bus.bus.past after).map some ++ if s.bus.bus.closed then [none] else []
  replayed : ∀ after frames, .replayed after frames ∈ s.requests →
    frames = .ok ((s.bus.bus.past after).map BusFrame.reloaded)
  agree : ∀ r ∈ s.requests, ∀ r' ∈ s.requests, r.after = r'.after →
    ∀ frames ∈ s.delivers r, ∀ frames' ∈ s.delivers r', frames = frames'

end Sentinel.LiveLab
