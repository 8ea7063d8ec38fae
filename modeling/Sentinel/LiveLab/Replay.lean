import Sentinel.LiveLab.EventLog
import Sentinel.Python.JsonRoundtrip

/-! Replay of a journaled run. One thread reads the journal, emits its frames anew
on a bus of its own and closes it on every path; its clients read that bus, and a
request may abort it. The bus takes its own time stamps. -/
namespace Sentinel.LiveLab
open Python Transition

/-- `compress_gap`: quarter speed, at most five seconds. -/
def compressGap (gapMs : ℚ) : ℚ := if gapMs ≤ 0 then 0 else min 5 (gapMs / 1000 / 4)

/-- `at_ms - prev_at`. -/
def subtract (atMs prevAt : Json) : Py ℚ :=
  match atMs.number, prevAt.number with
  | some a, some p => .ok (a - p)
  | _, _ => .error ⟨"TypeError",
      s!"unsupported operand type(s) for -: '{atMs.typeName}' and '{prevAt.typeName}'", false⟩

/-- The event and the data that are emitted anew. The bus takes any value for an
event; `emit` wrote a string. -/
def emissionOf (frame : Json) : Py (String × Json) := do
  let event ← frame.item "event"
  let data ← frame.item "data"
  match event with
  | .str event => pure (event, data)
  | _ => throw ⟨"TypeError", "unexpected type of a frame's field", false⟩

/-- The next step of the replay thread. -/
inductive ReplayPc where
  | reading
  | loop (prevAt : Json) (frames : List Json)
  -- after the abort check
  | frame (prevAt frame : Json) (rest : List Json)
  -- the sleep is over
  | paused (atMs frame : Json) (rest : List Json)
  | emit (atMs frame : Json) (rest : List Json)
  -- bus.close()
  | closing
  | ended

structure ReplayState where
  -- the text of events.jsonl
  text : List Char
  bus : BusState := .start 5000 false
  currentAtMs : Json := .int 0
  abort : Bool := false
  pc : ReplayPc := .reading

/-- The thread takes its next step at `now`, a request aborts, or a client
subscribes and reads. -/
inductive ReplayCall where
  | run (nowMs : ℤ)
  | abort
  | subscribe (after : ℤ)
  | get (i : ℕ)

/-- A frame of the loop, after the abort check. -/
def arrive (prevAt frame : Json) (rest : List Json) : Py ReplayPc := do
  let event ← frame.item "event"
  if event.pyEq (.str "done") then pure (.loop prevAt rest)
  else
    let atMs := (frame.lookup "at_ms").getD (.int 0)
    match prevAt with
    | .null => pure (.emit atMs frame rest)
    | prevAt => do
      let gap ← subtract atMs prevAt
      pure (if compressGap gap > 0 then .paused atMs frame rest else .emit atMs frame rest)

section
variable [FloatRepr] [FloatReader]

/-- The journal's lines that are not blank. -/
def readFrames (text : List Char) : Py (List Json) :=
  ((splitlines text).filter fun line => strip line ≠ []).mapM loads

namespace ReplayState

/-- One step of the thread. What raises in the loop leaves it for the close. -/
def run (s : ReplayState) (nowMs : ℤ) : Option ReplayState :=
  match s.pc with
  | .reading =>
    match readFrames s.text with
    | .ok frames => some { s with pc := .loop .null frames }
    | .error _ => some { s with pc := .closing }
  | .loop _ [] => some { s with pc := .closing }
  | .loop prevAt (frame :: rest) =>
    some { s with pc := if s.abort then .closing else .frame prevAt frame rest }
  | .frame prevAt frame rest =>
    match arrive prevAt frame rest with
    | .ok pc => some { s with pc }
    | .error _ => some { s with pc := .closing }
  | .paused atMs frame rest =>
    some { s with pc := if s.abort then .closing else .emit atMs frame rest }
  | .emit atMs frame rest =>
    match emissionOf frame with
    | .ok (event, data) =>
      (s.bus.next (.emit event data nowMs)).map fun bus =>
        { s with bus, currentAtMs := atMs, pc := .loop atMs rest }
    | .error _ => some { s with currentAtMs := atMs, pc := .closing }
  | .closing =>
    (s.bus.next (if s.bus.closers = [] then .close else .closing 0 nowMs)).map fun bus =>
      { s with bus, pc := if bus.closers = [.returned] then .ended else .closing }
  | .ended => none

def next (s : ReplayState) : ReplayCall → Option ReplayState
  | .run nowMs => s.run nowMs
  | .abort => some { s with abort := true }
  | .subscribe after => (s.bus.next (.subscribe after)).map fun bus => { s with bus }
  | .get i => (s.bus.next (.get i)).map fun bus => { s with bus }

end ReplayState

def ReplayStep (s : ReplayState) (call : ReplayCall) (s' : ReplayState) : Prop :=
  s.next call = some s'

end

end Sentinel.LiveLab
