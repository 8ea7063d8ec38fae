import Sentinel.Actions.Catalog
import Sentinel.Actions.Gate
import Sentinel.LiveLab.Preflight
import Sentinel.Transition.Run

/-! The live run state machine: one thread walks an incident end to end, and
request threads approve, deny or abort it. Each access to a shared field, each
call of a dependency and each journal record is one atomic step, so a run is an
arbitrary interleaving. Bus, snapshot and journal writes do not fail. -/
namespace Sentinel.LiveLab
open Python Actions

inductive Phase where
  | idle | preflight | booting | baseline | injecting | soak | investigating | report
  | awaitingApproval | executing | recovering | done | failed | cancelled
  deriving DecidableEq, Repr

structure Timings where
  baselineS : ℕ
  soakS : ℕ
  lagS : ℕ

inductive Preset where
  | proven | quick

/-- `PRESETS`. -/
def Preset.timings : Preset → Timings
  | .proven => ⟨180, 240, 60⟩
  | .quick => ⟨120, 180, 60⟩

/-- What the machine reads of a scenario. -/
structure Scenario where
  truthService : String
  accepted : List String
  heroMetric : String
  recoveredBelow : Option ℚ := none
  remediationKey : Option String := none

/-- What the machine reads of `run_rca`'s result; a missing synthesis is empty. -/
structure RcaResult where
  rootCauseService : Option String
  synthesis : List (String × Json) := []

/-- The injected dependencies. What a call does is an arbitrary function of the
number of steps that the run thread has taken. -/
structure Deps where
  daemonUp : ℕ → Py Bool
  appServices : ℕ → Py (List Service)
  labUp : ℕ → Py Unit
  ingestAgeS : ℕ → Py (Option ℚ)
  inject : ℕ → Py Unit
  clear : ℕ → Py Unit
  healthNow : ℕ → Py (Option ℚ)
  storeFactory : ℕ → Py Unit
  runRca : ℕ → Py RcaResult
  executorFactory : ℕ → Py Unit
  executor : ℕ → Executor
  clock : ℕ → Py ℚ
  sleep : ℕ → Py Unit
  uuid4 : ℕ → ℕ → String
  env : String → Option String
  approvalTtlS : ℚ

structure Config where
  runId : String
  scenario : Scenario
  preset : Preset
  deps : Deps

inductive Verb where
  | approved | denied
  deriving DecidableEq, Repr

structure Decision where
  verb : Verb
  approver : String
  reason : String := ""
  deriving DecidableEq, Repr

/-- The frames but `phase` that the run thread itself emits on the bus, and their
data. -/
inductive Frame where
  | lab (services : List Service) (ingestAgeS : Option ℚ)
  | report (rootCauseService : Option String) (hit : Bool)
  | action (action : SuggestedAction) (status : String) (ok : Option Bool)
  | recovery (before after : Json) (recovered : Bool)
  | error (message : String)

/-- What happened so far, in order. -/
inductive Note where
  -- an entry of `_phases`, and its frame
  | phase (phase : Phase)
  | frame (frame : Frame)
  | inject
  | clear
  | execute (now : ℚ)
  -- a request thread assigned the decision; later it returned True
  | decided (decision : Decision)
  | accepted (decision : Decision)
  -- the run thread took the TTL-expired branch
  | lapsed

/-- The fields that the threads share. -/
structure LiveRun where
  phase : Phase := .idle
  abort : Bool := false
  decisionReady : Bool := false
  decision : Option Decision := none
  journal : Journal := []
  log : List Note := []
  -- steps of the run thread
  steps : ℕ := 0

/-- A call of `_emit_phase`, with what the code after it still needs. -/
inductive Entry where
  | preflight | booting | baseline | injecting | soak | investigating
  | report (result : RcaResult)
  | awaitingApproval (action : SuggestedAction)
  | executing (action : SuggestedAction)
  | recovering (before : Json) (recovered : Bool)
  | done
  | failed
  | cancelled

def Entry.phase : Entry → Phase
  | .preflight => .preflight
  | .booting => .booting
  | .baseline => .baseline
  | .injecting => .injecting
  | .soak => .soak
  | .investigating => .investigating
  | .report _ => .report
  | .awaitingApproval _ => .awaitingApproval
  | .executing _ => .executing
  | .recovering _ _ => .recovering
  | .done => .done
  | .failed => .failed
  | .cancelled => .cancelled

inductive Window where
  | baseline | soak

def Window.seconds (timings : Timings) : Window → ℕ
  | .baseline => timings.baselineS
  | .soak => timings.soakS

/-- Where `_emit_lab` returns to. -/
inductive Return where
  | boot
  | injected
  | wait (window : Window) (deadline : ℚ)

/-- The next call of the run thread where it writes nothing that outlives it but
frames. -/
inductive Task where
  -- _preflight
  | daemonUp
  | preflightServices
  -- _boot
  | bootServices
  | labUp
  | bootAbort (poll : ℕ)
  | bootPoll (poll : ℕ)
  | bootSleep (poll : ℕ)
  | ingestAbort (poll : ℕ)
  | ingestPoll (poll : ℕ)
  | ingestSleep (poll : ℕ)
  -- _emit_lab
  | labServices (back : Return)
  | labIngestAge (back : Return) (services : List Service)
  -- _run
  | baselineStart
  | injectedAt
  -- _wait
  | waitStart (window : Window)
  | waitAbort (window : Window) (deadline : ℚ)
  | waitRemaining (window : Window) (deadline : ℚ)
  | waitSleep (window : Window) (deadline : ℚ)
  -- _investigate
  | windowEnd
  | storeFactory
  | runRca
  -- _propose
  | executorFactory (result : RcaResult)
  | suggest (result : RcaResult)
  | expires (action : SuggestedAction)
  -- _decide_and_execute
  | deadline (action : SuggestedAction)
  | awaiting (action : SuggestedAction) (deadline : ℚ)
  | ttl (action : SuggestedAction) (deadline : ℚ)
  | decisionAbort (action : SuggestedAction)
  | renderDetail (action : SuggestedAction)
  | gateNow (action : SuggestedAction)
  | recoveryAbort (poll : ℕ) (before : Json)
  | recoverySleep (poll : ℕ) (before : Json)
  | recoveryHealth (poll : ℕ) (before : Json)

/-- The next step of the run thread. -/
inductive Pc where
  | task (task : Task)
  -- _emit_phase: the assignment, then the entry with its clock reading
  | enter (entry : Entry)
  | announce (entry : Entry)
  -- _run
  | sweep
  | inject
  -- _propose
  | propose (action : SuggestedAction) (expires : ℚ)
  | post (action : SuggestedAction)
  -- _decide_and_execute
  | decisionNone (action : SuggestedAction)
  | decisionRead (action : SuggestedAction)
  | expire (action : SuggestedAction)
  | deny (action : SuggestedAction) (approver reason : String)
  | approve (action : SuggestedAction) (approver : String)
  -- execute_approved
  | gateCheck (action : SuggestedAction) (now : ℚ)
  | gateExpire (action : SuggestedAction)
  | gateMismatch (action : SuggestedAction)
  | gateRender (action : SuggestedAction) (now : ℚ)
  | gateStart (action : SuggestedAction) (now : ℚ) (preview : String)
  | gateExecute (action : SuggestedAction) (now : ℚ)
  | gateResult (action : SuggestedAction) (outcome : Outcome)
  | gateDetail (action : SuggestedAction) (outcome : Outcome)
  | settle (action : SuggestedAction) (result : GateResult)
  -- the end of _run
  | finalClear
  | close
  | ended

/-- How a task ends: it goes on, or an exception leaves it. -/
inductive Turn where
  | go (frames : List Frame) (pc : Pc)
  | raise (e : Exn)
  | aborted

def attempt {α : Type} (result : Py α) (next : α → Turn) : Turn :=
  match result with
  | .ok a => next a
  | .error e => .raise e

def Turn.goto (pc : Pc) : Turn := .go [] pc

def runtimeError (message : String) : Exn := ⟨"RuntimeError", message, false⟩

/-- The code after a call of `_emit_lab`. -/
def Return.pc : Return → Pc
  | .boot => .sweep
  | .injected => .enter .soak
  | .wait window deadline => .task (.waitAbort window deadline)

/-- `except Exception: return` of `_emit_lab`. -/
def labFailed (back : Return) (e : Exn) : Turn := if e.base then .raise e else .goto back.pc

/-- `value < bound` for a JSON value. -/
def lessThan (value : Json) (bound : ℚ) : Py Bool :=
  match value.number with
  | some x => .ok (x < bound)
  | none => .error ⟨"TypeError", s!"'<' not supported between instances of '{value.typeName}' and 'float'", false⟩

/-- `_is_recovered`. -/
def isRecovered (recoveredBelow : Option ℚ) (before value : Json) : Py Bool :=
  match value with
  | .null => .ok false
  | value =>
    match recoveredBelow with
    | some threshold => lessThan value threshold
    | none =>
      match before with
      | .null => .ok false
      | before =>
        match before.number with
        | some x => lessThan value (x / 3)
        | none => .error ⟨"TypeError", s!"unsupported operand type(s) for /: '{before.typeName}' and 'int'", false⟩

/-- `_RECOVERY_POLLS`. -/
def recoveryPolls : ℕ := 12

/-- The head of the recovery loop. -/
def recoveryLoop (poll : ℕ) (before : Json) (recovered : Bool) : Pc :=
  if recovered || recoveryPolls ≤ poll then .enter .done else .task (.recoveryAbort poll before)

/-- The signature `_propose` derives from the scenario. -/
def Scenario.signature (scenario : Scenario) : String :=
  (([("cpu", "resource"), ("error", "error")] : List (String × String)).lookup
    scenario.heroMetric).getD "resource"

/-- A text field of the synthesis, falsy values as none. What reads it raises on a
value that is no text. -/
def synthesisText (result : RcaResult) (key : String) (refused : Json → Exn) :
    Py (Option String) :=
  match (result.synthesis.lookup key).getD .null with
  | .str text => .ok (if text = "" then none else some text)
  | value => if value.truthy then .error (refused value) else .ok none

/-- `scenario.remediation_key or synthesis.get("fault_type")`. -/
def faultType (scenario : Scenario) (result : RcaResult) : Py (Option String) :=
  if scenario.remediationKey.getD "" ≠ "" then .ok scenario.remediationKey
  else synthesisText result "fault_type" fun value =>
    ⟨"AttributeError", s!"'{value.typeName}' object has no attribute 'lower'", false⟩

/-- `[justification] if justification else []`. -/
def citations (result : RcaResult) : Py (List String) := do
  let justification ← synthesisText result "justification" fun _ =>
    ⟨"ValidationError", "Input should be a valid string", false⟩
  pure justification.toList

section
variable [FloatRepr] [Hashlib] (config : Config)

/-- `suggest_actions` and `elect_primary` as `_propose` calls them. -/
def proposal (result : RcaResult) (n : ℕ) : Py (Option SuggestedAction) := do
  let target := result.rootCauseService.getD ""
  let actions ← suggestActions (config.deps.uuid4 n)
    (if target = "" then config.scenario.truthService else target)
    (← faultType config.scenario result) (some config.scenario.signature) (← citations result)
    true (config.deps.executor n)
  pure (electPrimary actions)

/-- One step of a task, the `n`-th of the run thread. -/
def Task.turn (live : LiveRun) (n : ℕ) : Task → Turn
  | .daemonUp =>
    attempt (config.deps.daemonUp n) fun daemon =>
      if daemon then .goto (.task .preflightServices)
      else attempt (preflightVerdict (runPreflight false [] config.deps.env)) fun () =>
        .goto (.enter .booting)
  | .preflightServices =>
    attempt (config.deps.appServices n) fun services =>
      attempt (preflightVerdict (runPreflight true services config.deps.env)) fun () =>
        .goto (.enter .booting)
  | .bootServices =>
    attempt (config.deps.appServices n) fun services =>
      if services.any fun s => !s.running then .goto (.task .labUp)
      else .goto (.task (.ingestAbort 0))
  | .labUp => attempt (config.deps.labUp n) fun () => .goto (.task (.bootAbort 0))
  | .bootAbort poll => if live.abort then .aborted else .goto (.task (.bootPoll poll))
  | .bootPoll poll =>
    attempt (config.deps.appServices n) fun services =>
      if services.all Service.running then .goto (.task (.ingestAbort 0))
      else .goto (.task (.bootSleep poll))
  | .bootSleep poll =>
    attempt (config.deps.sleep n) fun () =>
      if poll + 1 < 36 then .goto (.task (.bootAbort (poll + 1)))
      else .raise (runtimeError "lab did not reach running state within 180s")
  | .ingestAbort poll => if live.abort then .aborted else .goto (.task (.ingestPoll poll))
  | .ingestPoll poll =>
    attempt (config.deps.ingestAgeS n) fun age =>
      if age.any fun age => age ≤ 120 then .goto (.task (.labServices .boot))
      else .goto (.task (.ingestSleep poll))
  | .ingestSleep poll =>
    attempt (config.deps.sleep n) fun () =>
      if poll + 1 < 36 then .goto (.task (.ingestAbort (poll + 1)))
      else .raise (runtimeError "New Relic ingest never became fresh (no recent Metric data)")
  | .labServices back =>
    match config.deps.appServices n with
    | .ok services => .goto (.task (.labIngestAge back services))
    | .error e => labFailed back e
  | .labIngestAge back services =>
    match config.deps.ingestAgeS n with
    | .ok age => .go [.lab services age] back.pc
    | .error e => labFailed back e
  | .baselineStart => attempt (config.deps.clock n) fun _ => .goto (.enter .baseline)
  | .injectedAt => attempt (config.deps.clock n) fun _ => .goto (.task (.labServices .injected))
  | .waitStart window =>
    attempt (config.deps.clock n) fun now =>
      .goto (.task (.waitAbort window (now + window.seconds config.preset.timings)))
  | .waitAbort window due =>
    if live.abort then .aborted else .goto (.task (.waitRemaining window due))
  | .waitRemaining window due =>
    attempt (config.deps.clock n) fun now =>
      if due - now ≤ 0 then
        match window with
        | .baseline => .goto (.enter .injecting)
        | .soak => .goto (.task .windowEnd)
      else .goto (.task (.waitSleep window due))
  | .waitSleep window due =>
    attempt (config.deps.sleep n) fun () => .goto (.task (.labServices (.wait window due)))
  | .windowEnd => attempt (config.deps.clock n) fun _ => .goto (.enter .investigating)
  | .storeFactory => attempt (config.deps.storeFactory n) fun () => .goto (.task .runRca)
  | .runRca => attempt (config.deps.runRca n) fun result => .goto (.enter (.report result))
  | .executorFactory result =>
    attempt (config.deps.executorFactory n) fun () => .goto (.task (.suggest result))
  | .suggest result =>
    attempt (proposal config result n) fun primary =>
      match primary with
      | none => .raise (runtimeError "catalog produced no mutate action for a cpu fault")
      | some action => .goto (.task (.expires action))
  | .expires action =>
    attempt (config.deps.clock n) fun now => .goto (.propose action (now + config.deps.approvalTtlS))
  | .deadline action =>
    attempt (config.deps.clock n) fun now =>
      .goto (.task (.awaiting action (now + config.deps.approvalTtlS)))
  | .awaiting action due =>
    if live.decisionReady then .goto (.task (.decisionAbort action))
    else .goto (.task (.ttl action due))
  | .ttl action due =>
    attempt (config.deps.clock n) fun now =>
      if now ≥ due then .goto (.task (.decisionAbort action))
      else .goto (.task (.awaiting action due))
  | .decisionAbort action => if live.abort then .aborted else .goto (.decisionNone action)
  | .renderDetail action =>
    attempt ((config.deps.executor n).render action) fun _ => .goto (.enter (.executing action))
  | .gateNow action => attempt (config.deps.clock n) fun now => .goto (.gateCheck action now)
  | .recoveryAbort poll before =>
    if live.abort then .aborted else .goto (.task (.recoverySleep poll before))
  | .recoverySleep poll before =>
    attempt (config.deps.sleep n) fun () => .goto (.task (.recoveryHealth poll before))
  | .recoveryHealth poll before =>
    attempt (config.deps.healthNow n) fun value =>
      attempt (isRecovered config.scenario.recoveredBelow before (.ofOption value)) fun recovered =>
        .go [.recovery before (.ofOption value) recovered] (recoveryLoop (poll + 1) before recovered)

end

/-- The code after a call of `_emit_phase`, and the frames that open it. -/
def Entry.body (scenario : Scenario) : Entry → List Frame × Pc
  | .preflight => ([], .task .daemonUp)
  | .booting => ([], .task .bootServices)
  | .baseline => ([], .task (.waitStart .baseline))
  | .injecting => ([], .inject)
  | .soak => ([], .task (.waitStart .soak))
  | .investigating => ([], .task .storeFactory)
  | .report result =>
    ([.report result.rootCauseService
      (result.rootCauseService.any fun service => service ∈ scenario.accepted)],
      .task (.executorFactory result))
  | .awaitingApproval action => ([], .task (.deadline action))
  | .executing action => ([], .task (.gateNow action))
  | .recovering before recovered => ([], recoveryLoop 0 before recovered)
  | .done | .failed | .cancelled => ([], .finalClear)

namespace LiveRun

def noted (live : LiveRun) (notes : List Note) : LiveRun := { live with log := live.log ++ notes }

def emit (live : LiveRun) (frames : List Frame) : LiveRun := live.noted (frames.map .frame)

def append (live : LiveRun) (e : Event) : LiveRun := { live with journal := live.journal ++ [e] }

/-- An exception inside the `try` of `_run`. -/
def fail (live : LiveRun) (e : Exn) : LiveRun × Pc :=
  if e.base then (live, .finalClear)
  else (live.emit [.error s!"{e.type}: {e.message}"], .enter .failed)

/-- A dependency call inside that `try`. -/
def attempt {α : Type} (live : LiveRun) (result : Py α) (next : α → LiveRun × Pc) : LiveRun × Pc :=
  match result with
  | .ok a => next a
  | .error e => live.fail e

def follow (live : LiveRun) : Turn → LiveRun × Pc
  | .go frames pc => (live.emit frames, pc)
  | .raise e => live.fail e
  | .aborted => (live, .enter .cancelled)

end LiveRun

def postedEvent (action : SuggestedAction) (runId : String) : Event :=
  ⟨action.id, .posted "dashboard" runId⟩

section
variable [FloatRepr] [Hashlib] (config : Config)

/-- One step of the run thread. A journal record reads the clock first. -/
def Pc.next (live : LiveRun) (n : ℕ) : Pc → LiveRun × Pc
  | .task t => live.follow (t.turn config live n)
  | .enter entry => ({ live with phase := entry.phase }, .announce entry)
  | .announce entry =>
    match config.deps.clock n with
    | .ok _ =>
      ((live.noted [.phase entry.phase]).emit (entry.body config.scenario).1,
        (entry.body config.scenario).2)
    | .error e =>
      match entry with
      -- an exception inside the handlers leaves `_run`
      | .failed | .cancelled => (live, .finalClear)
      | _ => live.fail e
  | .sweep =>
    (live.noted [.clear]).attempt (config.deps.clear n) fun () =>
      (live.noted [.clear], .task .baselineStart)
  | .inject =>
    (live.noted [.inject]).attempt (config.deps.inject n) fun () =>
      (live.noted [.inject], .task .injectedAt)
  | .propose action expires =>
    live.attempt (config.deps.clock n) fun _ =>
      (live.append ⟨action.id, .proposed action (some expires)⟩, .post action)
  | .post action =>
    live.attempt (config.deps.clock n) fun _ =>
      ((live.append (postedEvent action config.runId)).emit [.action action "posted" none],
        .enter (.awaitingApproval action))
  | .decisionNone action =>
    match live.decision with
    | none => (live.noted [.lapsed], .expire action)
    | some _ => (live, .decisionRead action)
  | .decisionRead action =>
    match live.decision with
    | none => live.fail ⟨"TypeError", "cannot unpack non-iterable NoneType object", false⟩
    | some decision =>
      match decision.verb with
      | .denied => (live, .deny action decision.approver decision.reason)
      | .approved => (live, .approve action decision.approver)
  | .expire action =>
    live.attempt (config.deps.clock n) fun _ =>
      ((live.append (expiredEvent action)).emit [.action action "expired" none], .enter .done)
  | .deny action approver reason =>
    live.attempt (config.deps.clock n) fun _ =>
      ((live.append ⟨action.id, .denied approver reason⟩).emit [.action action "denied" none],
        .enter .done)
  | .approve action approver =>
    live.attempt (config.deps.clock n) fun _ =>
      ((live.append ⟨action.id, .approved approver "dashboard"⟩).emit
        [.action action "approved" none], .task (.renderDetail action))
  | .gateCheck action now =>
    match Actions.gateCheck (stateOf live.journal action.id) action now with
    | .refuse result => (live, .settle action result)
    | .expire => (live, .gateExpire action)
    | .mismatch => (live, .gateMismatch action)
    | .start => (live, .gateRender action now)
  | .gateExpire action =>
    live.attempt (config.deps.clock n) fun _ =>
      (live.append (expiredEvent action), .settle action ⟨false, .expired, "approval past TTL"⟩)
  | .gateMismatch action =>
    live.attempt (config.deps.clock n) fun _ =>
      (live.append (mismatchEvent action),
        .settle action ⟨false, .deniedHash, "params_hash mismatch"⟩)
  | .gateRender action now =>
    live.attempt ((config.deps.executor n).render action) fun preview =>
      (live, .gateStart action now preview)
  | .gateStart action now preview =>
    live.attempt (config.deps.clock n) fun _ =>
      (live.append (startedEvent action (config.deps.executor n).backend preview),
        .gateExecute action now)
  | .gateExecute action now =>
    (live.noted [.execute now]).attempt ((config.deps.executor n).execute action) fun outcome =>
      (live.noted [.execute now], .gateResult action outcome)
  | .gateResult action outcome =>
    live.attempt (config.deps.clock n) fun _ =>
      (live.append (resultEvent action outcome), .gateDetail action outcome)
  | .gateDetail action outcome =>
    live.attempt ((config.deps.executor n).render action) fun detail =>
      (live, .settle action ⟨outcome.ok, if outcome.ok then .done else .failed, detail⟩)
  | .settle action result =>
    let outcome := (stateOf live.journal action.id).bind (·.outcome)
    let before := (outcome.map (·.before)).getD .null
    let after := (outcome.map (·.after)).getD .null
    let shown := live.emit [.action action "execute_result" (some result.executed)]
    shown.attempt (isRecovered config.scenario.recoveredBelow before after) fun recovered =>
      (shown.emit [.recovery before after recovered], .enter (.recovering before recovered))
  | .finalClear =>
    match config.deps.clear n with
    | .ok () => (live.noted [.clear], .close)
    | .error e => (live.noted [.clear], if e.base then .ended else .close)
  | .close => (live, .ended)
  | .ended => (live, .ended)

end

/-- A call of `approve`, `deny` or `abort`, and how far its thread has come. -/
inductive Click where
  | deciding (decision : Decision)
  | assigning (decision : Decision)
  | signalling (decision : Decision)
  | aborting
  | waking
  -- what the call returned
  | accepted (decision : Decision)
  | refused
  | aborted
  deriving DecidableEq, Repr

/-- `approve(approver)`. -/
def Click.approve (approver : String) : Click := .deciding ⟨.approved, approver, ""⟩

/-- `deny(approver, reason)`. -/
def Click.deny (approver reason : String) : Click := .deciding ⟨.denied, approver, reason⟩

/-- One step of a request thread. -/
def Click.next (live : LiveRun) : Click → Option (LiveRun × Click)
  | .deciding decision =>
    if live.phase = .awaitingApproval then some (live, .assigning decision) else some (live, .refused)
  | .assigning decision =>
    some ({ live with decision := some decision }.noted [.decided decision], .signalling decision)
  | .signalling decision =>
    some ({ live with decisionReady := true }.noted [.accepted decision], .accepted decision)
  | .aborting => some ({ live with abort := true }, .waking)
  | .waking => some ({ live with decisionReady := true }, .aborted)
  | .accepted _ | .refused | .aborted => none

/-- Calls that did not begin yet. -/
def Click.called : Click → Bool
  | .deciding _ | .aborting => true
  | _ => false

structure System where
  live : LiveRun
  pc : Pc
  clicks : List Click

/-- Which thread takes a step: the run thread, or the request thread `i`. -/
inductive Party where
  | run
  | click (i : ℕ)
  deriving DecidableEq, Repr

def System.start (clicks : List Click) : System := ⟨{}, .enter .preflight, clicks⟩

section
variable [FloatRepr] [Hashlib] (config : Config)

def System.next (s : System) : Party → Option System
  | .run =>
    match s.pc with
    | .ended => none
    | pc =>
      let (live, pc) := pc.next config s.live s.live.steps
      some ⟨{ live with steps := s.live.steps + 1 }, pc, s.clicks⟩
  | .click i =>
    match s.clicks[i]? with
    | none => none
    | some click => (click.next s.live).map fun (live, click) => ⟨live, s.pc, s.clicks.set i click⟩

def Step (s : System) (l : Party) (s' : System) : Prop := s.next config l = some s'

end

end Sentinel.LiveLab
