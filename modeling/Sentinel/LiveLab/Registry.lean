import Sentinel.LiveLab.Machine
import Sentinel.LiveLab.Replay
import Sentinel.Python.Dict

/-! All runs a process has started. A request to start one holds the registry's lock
while it looks for a run in flight, builds its run, registers and starts it; the run
threads go on outside the lock. -/
namespace Sentinel.LiveLab
open Python Actions

def Note.isFault : Note → Bool
  | .inject | .clear => true
  | _ => false

inductive RunBody where
  | live (config : Config) (system : System)
  | replay (state : ReplayState)

/-- A run object with its thread. -/
structure RunThread where
  body : RunBody
  started : Bool := false

def RunBody.ended : RunBody → Bool
  | .live _ system => match system.pc with
    | .ended => true
    | _ => false
  | .replay state => match state.pc with
    | .ended => true
    | _ => false

/-- `is_active`: from the start of the thread until it ends. -/
def RunThread.isActive (t : RunThread) : Bool := t.started && !t.body.ended

/-- A step of a run's thread, or of a request on that run. -/
inductive ThreadCall where
  | live (party : Party)
  | replay (call : ReplayCall)

/-- A step that only the run's own thread takes. -/
def ThreadCall.own : ThreadCall → Bool
  | .live .run | .replay (.run _) => true
  | _ => false

inductive StartRequest where
  | live (scenarioId : String) (scenario : Scenario) (preset : Preset)
  | replay (sourceRunId : String)

/-- What a request answers. -/
inductive Answer where
  | started (i : ℕ)
  | refused (statusCode : ℕ) (detail : String)
  | raised (e : Exn)

/-- A call of `start_live` or `start_replay`, as far as it has come. -/
inductive Starting where
  | waiting (request : StartRequest)
  -- the runs that `active()` has left to look at
  | scanning (request : StartRequest) (rest : List ℕ)
  | building (request : StartRequest)
  | registering (runId : String) (i : ℕ)
  | launching (i : ℕ)
  | answered (answer : Answer)

/-- What the registry depends on, as functions of the instant. -/
structure RegistryEnv where
  -- `int(time.time() * 1000)`
  timeMs : ℕ → ℕ
  depsFactory : ℕ → String → Scenario → Py Deps
  -- the directory, the bus and the clock reading of `LiveRun(...)`
  liveRun : ℕ → Config → Py Unit
  -- the events.jsonl of a run, if there is one, once its run.json is read
  source : ℕ → String → Option (Py (List Char))

structure Registry where
  threads : List RunThread := []
  -- `_runs`, by the place of the run among the threads
  runs : Dict String ℕ := .empty
  requests : List Starting := []
  -- the request that holds `_lock`
  lock : Option ℕ := none
  -- the calls of inject() and clear() so far, with their run
  faults : List (ℕ × Note) := []
  steps : ℕ := 0

/-- The next step of a request, of the lock's holder, or of a thread. -/
inductive RegistryCall where
  | request (request : StartRequest)
  | acquire (j : ℕ)
  -- the holder goes on; a live run will see the given calls
  | serve (j : ℕ) (clicks : List Click)
  | thread (i : ℕ) (call : ThreadCall)

section
variable [FloatRepr] [FloatReader] [Hashlib]

def RunBody.next : RunBody → ThreadCall → Option RunBody
  | .live config system, .live party => (system.next config party).map (.live config)
  | .replay state, .replay call => (state.next call).map .replay
  | _, _ => none

/-- The calls of inject() and clear() that a step of a live run adds to its log. -/
def RunBody.newFaults : RunBody → RunBody → List Note
  | .live _ before, .live _ after =>
    (after.live.log.drop before.live.log.length).filter Note.isFault
  | _, _ => []

/-- The run that a request builds, and its id. -/
def build (env : RegistryEnv) (n : ℕ) (clicks : List Click) :
    StartRequest → Except Answer (String × RunBody)
  | .live scenarioId scenario preset => do
    let runId := s!"live-{scenarioId}-{env.timeMs n}"
    let deps ← (env.depsFactory n runId scenario).mapError .raised
    let config : Config := { runId, scenario, preset, deps }
    (env.liveRun n config).mapError .raised
    pure (runId, .live config (.start clicks))
  | .replay sourceRunId =>
    match env.source n sourceRunId with
    | none => .error (.refused 404 s!"no journaled run at {sourceRunId}")
    | some text => do
      let text ← text.mapError .raised
      pure (s!"replay-{sourceRunId}-{env.timeMs n / 1000}", .replay { text })

namespace Registry

/-- The holder answers and leaves the lock. -/
def answer (s : Registry) (j : ℕ) (answer : Answer) : Registry :=
  { s with requests := s.requests.set j (.answered answer), lock := none }

/-- One step of the request that holds the lock. -/
def serve (env : RegistryEnv) (s : Registry) (j : ℕ) (clicks : List Click) :
    Starting → Option Registry
  | .scanning request [] => some { s with requests := s.requests.set j (.building request) }
  | .scanning request (i :: rest) =>
    if s.threads[i]?.any RunThread.isActive then
      some (s.answer j (.refused 409 "a run is already in flight"))
    else some { s with requests := s.requests.set j (.scanning request rest) }
  | .building request =>
    match build env s.steps clicks request with
    | .error answer => some (s.answer j answer)
    | .ok (runId, body) => some { s with
        threads := s.threads ++ [{ body }]
        requests := s.requests.set j (.registering runId s.threads.length) }
  | .registering runId i => some { s with
      runs := s.runs.set runId i
      requests := s.requests.set j (.launching i) }
  | .launching i => some { s.answer j (.started i) with
      threads := s.threads.modify i fun t => { t with started := true } }
  | .waiting _ | .answered _ => none

def next (env : RegistryEnv) (s : Registry) : RegistryCall → Option Registry
  | .request request => some { s with requests := s.requests ++ [.waiting request] }
  | .acquire j =>
    match s.lock, s.requests[j]? with
    | none, some (.waiting request) => some { s with
        lock := some j, requests := s.requests.set j (.scanning request s.runs.values) }
    | _, _ => none
  | .serve j clicks =>
    match s.requests[j]? with
    | some starting => if s.lock = some j then s.serve env j clicks starting else none
    | none => none
  | .thread i call =>
    match s.threads[i]? with
    | some t =>
      if call.own && !t.started then none
      else (t.body.next call).map fun body => { s with
        threads := s.threads.set i { t with body }
        faults := s.faults ++ (t.body.newFaults body).map fun note => (i, note) }
    | none => none

end Registry

/-- Time passes with each step. -/
def RegistryStep (env : RegistryEnv) (s : Registry) (call : RegistryCall) (s' : Registry) : Prop :=
  (s.next env call).map (fun t => { t with steps := s.steps + 1 }) = some s'

end

end Sentinel.LiveLab
