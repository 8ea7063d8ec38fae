import Mathlib.Data.List.DropRight
import Sentinel.Python.JsonReader
import Sentinel.Python.Values
import Sentinel.Transition.Run

/-! The in-process event seam of a live run. Each section that holds the lock is
one atomic step, so the calls of any number of threads are an arbitrary sequence
of such steps; a `close` takes three. Data is the value that `json.dumps` writes
of it, and writes to the journal do not fail. -/
namespace Sentinel.LiveLab
open Python

/-- What a client of the stream sees of a frame. -/
structure SseFrame where
  seq : ℕ
  event : String
  data : Json

structure BusFrame extends SseFrame where
  atMs : ℤ

def BusFrame.json (f : BusFrame) : Json :=
  .dict [("seq", .int f.seq), ("event", .str f.event), ("data", f.data), ("at_ms", .int f.atMs)]

/-- One consumer's queue. What its reader took stays on record, as does what it
asked for and how many frames there were then. -/
structure Subscription where
  yielded : List (Option BusFrame) := []
  queue : List (Option BusFrame)
  -- in `_subs`
  attached : Bool
  after : ℤ
  since : ℕ

/-- Everything put into the queue so far. -/
def Subscription.contents (sub : Subscription) : List (Option BusFrame) := sub.yielded ++ sub.queue

def Subscription.put (sub : Subscription) (frame : Option BusFrame) : Subscription :=
  { sub with queue := sub.queue ++ [frame] }

/-- `get`, where it does not raise `queue.Empty`. -/
def Subscription.get (sub : Subscription) : Option Subscription :=
  match sub.queue with
  | [] => none
  | frame :: rest => some { sub with yielded := sub.yielded ++ [frame], queue := rest }

structure EventBus where
  seq : ℕ := 0
  ring : List BusFrame := []
  maxlen : ℕ := 5000
  closed : Bool := false
  -- the text of events.jsonl
  journal : Option (List Char) := none
  -- all subscriptions taken so far
  subs : List Subscription := []
  -- all frames emitted so far, and how many they were when the bus was closed
  frames : List BusFrame := []
  closedAt : Option ℕ := none

namespace EventBus

def frame (bus : EventBus) (event : String) (data : Json) (atMs : ℤ) : BusFrame :=
  ⟨⟨bus.seq + 1, event, data⟩, atMs⟩

def emit [FloatRepr] (bus : EventBus) (event : String) (data : Json) (atMs : ℤ) : EventBus :=
  let frame := bus.frame event data atMs
  { bus with
    seq := bus.seq + 1
    ring := (bus.ring ++ [frame]).rtake bus.maxlen
    journal := bus.journal.map fun text => text ++ (dumps frame.json ++ ['\n'])
    subs := bus.subs.map fun sub => if sub.attached then sub.put (some frame) else sub
    frames := bus.frames ++ [frame] }

def backlog (bus : EventBus) (after : ℤ) : List BusFrame := bus.ring.filter fun f => after < f.seq

def subscribe (bus : EventBus) (after : ℤ) : EventBus :=
  { bus with
    subs := bus.subs ++ [{
      queue := (bus.backlog after).map some ++ if bus.closed then [none] else []
      attached := !bus.closed
      after
      since := bus.frames.length }] }

/-- The last section of `close`. -/
def finish (bus : EventBus) : EventBus :=
  { bus with
    closed := true
    subs := bus.subs.map fun sub => if sub.attached then { sub.put none with attached := false } else sub
    closedAt := some (bus.closedAt.getD bus.frames.length) }

def get (bus : EventBus) (i : ℕ) : Option EventBus := do
  let sub ← bus.subs[i]?
  let sub ← sub.get
  pure { bus with subs := bus.subs.set i sub }

end EventBus

/-- A call of `close`, after the section that reads `_closed`. -/
inductive Closer where
  | emitting | ending | returned
  deriving DecidableEq, Repr

structure BusState where
  bus : EventBus
  closers : List Closer

def BusState.start (maxlen : ℕ) (journaled : Bool) : BusState :=
  ⟨{ maxlen, journal := if journaled then some [] else none }, []⟩

/-- The next section that holds the lock, whichever thread runs it. -/
inductive BusCall where
  | emit (event : String) (data : Json) (atMs : ℤ)
  | subscribe (after : ℤ)
  | get (i : ℕ)
  | close
  | closing (j : ℕ) (atMs : ℤ)

section
variable [FloatRepr]

def BusState.next (s : BusState) : BusCall → Option BusState
  | .emit event data atMs => some ⟨s.bus.emit event data atMs, s.closers⟩
  | .subscribe after => some ⟨s.bus.subscribe after, s.closers⟩
  | .get i => (s.bus.get i).map fun bus => ⟨bus, s.closers⟩
  | .close => some ⟨s.bus, s.closers ++ [if s.bus.closed then .ending else .emitting]⟩
  | .closing j atMs =>
    match s.closers[j]? with
    | some .emitting => some ⟨s.bus.emit "done" (.dict []) atMs, s.closers.set j .ending⟩
    | some .ending => some ⟨s.bus.finish, s.closers.set j .returned⟩
    | _ => none

def BusStep (s : BusState) (call : BusCall) (s' : BusState) : Prop := s.next call = some s'

end

/-! ### Reading the journal -/

/-- What the stream reads of a journal line. `emit` writes no other types than
these. -/
def sseOf (frame : Json) : Py SseFrame := do
  let seq ← frame.item "seq"
  let event ← frame.item "event"
  let data ← frame.item "data"
  match seq, event with
  | .int seq, .str event => pure ⟨seq.toNat, event, data⟩
  | _, _ => throw ⟨"TypeError", "unexpected type of a frame's field", false⟩

/-- The frames of a journal text, without its blank lines. -/
def readEvents [FloatRepr] [FloatReader] (text : List Char) : Py (List SseFrame) :=
  ((splitlines text).filter fun line => strip line ≠ []).mapM fun line => do
    sseOf (← loads line)

end Sentinel.LiveLab
