import Sentinel.LiveLab.Machine
import Sentinel.Newrelic.Client

/-! The health readings that judge a recovery, with their calls of the shared client
taken apart: the reading before the operation, the one after the settle and every
poll ask the same text, and other threads may ask any text at any time. -/
namespace Sentinel.LiveLab
open Python Actions Transition Newrelic

/-- `float(value)`, up to how a text is read. -/
def floatOf (floatText : String → Py ℚ) : Json → Py ℚ
  | .str text => floatText text
  | value =>
    match value.number with
    | some x => .ok x
    | none => .error ⟨"TypeError",
        s!"float() argument must be a string or a real number, not '{value.typeName}'", false⟩

/-- What the remediation reads of the dependencies and of the scenario. -/
structure Remedy where
  newrelic : Newrelic.Env
  floatText : String → Py ℚ
  healthNrql : String
  recoveredBelow : Option ℚ := none
  action : SuggestedAction
  forceDryrun : Bool := false
  -- the executor's callables at an instant; its health reader is `health` instead
  callables : ℕ → LiveEnv
  sleep : ℕ → Py Unit

/-- `make_health`, on the rows that `nrql` returned. -/
def Remedy.health (r : Remedy) : List Json → Py (Option ℚ)
  | [] => .ok none
  | row :: _ => do
    let value ← row.get "p"
    match value with
    | .null => pure none
    | value => some <$> floatOf r.floatText value

/-- The next step of the run thread from `execute_approved` on. -/
inductive RemedyPc where
  -- LiveExecutor.execute
  | before (call : NrqlCall)
  | operate (before : Option ℚ)
  | settle (before : Option ℚ)
  | after (before : Option ℚ) (call : NrqlCall)
  -- _decide_and_execute
  | judge (before after : Json)
  | recoveryAbort (poll : ℕ) (before : Json)
  | recoverySleep (poll : ℕ) (before : Json)
  | recoveryHealth (poll : ℕ) (before : Json) (call : NrqlCall)
  | stopped

/-- A value recorded as after or compared by the recovery loop, with the instant at
which the backend answered the query that it was read from. -/
structure Reading where
  value : Option ℚ
  answeredAt : ℕ

structure RemedyState where
  pc : RemedyPc
  cache : Cache := Dict.empty
  -- the calls of other threads
  others : List NrqlCall := []
  abort : Bool := false
  -- the steps taken by any thread
  instant : ℕ := 0
  -- when the operation returned
  applied : Option ℕ := none
  readings : List Reading := []

namespace RemedyState

def stop (s : RemedyState) : RemedyState := { s with pc := .stopped }

def tick (s : RemedyState) : RemedyState := { s with instant := s.instant + 1 }

def record (s : RemedyState) (value : Option ℚ) (answeredAt : ℕ) (pc : RemedyPc) : RemedyState :=
  { s with pc, readings := s.readings ++ [⟨value, answeredAt⟩] }

end RemedyState

section
variable (r : Remedy)

/-- The run thread once `_is_recovered` compared a value. -/
def Remedy.judged (poll : ℕ) (before value : Json) : RemedyPc :=
  match isRecovered r.recoveredBelow before value with
  | .error _ => .stopped
  | .ok recovered =>
    match recoveryLoop poll before recovered with
    | .task (.recoveryAbort poll before) => .recoveryAbort poll before
    | _ => .stopped

/-- The start of the execution. The gate may refuse the action, and the kill switch
replaces the executor. -/
def Remedy.start (permitted : Bool) : RemedyState :=
  if permitted then
    if r.forceDryrun then
      match (dryRunExecutor 0).execute r.action with
      | .ok outcome => { pc := .judge outcome.before outcome.after }
      | .error _ => { pc := .stopped }
    else { pc := .before (.entered r.healthNrql) }
  else { pc := .judge .null .null }

namespace RemedyState

/-- One step of `health()`, the thread being at `waiting` until its value is `taken`. -/
def read (s : RemedyState) (call : NrqlCall) (waiting : NrqlCall → RemedyPc)
    (taken : Option ℚ → ℕ → RemedyState) : RemedyState :=
  match call with
  | .returned rows answeredAt =>
    match r.health rows with
    | .ok value => taken value answeredAt
    | .error _ => s.stop
  | .raised _ => s.stop
  | call =>
    let (cache, call) := call.next r.newrelic s.cache s.instant
    { s with cache, pc := waiting call }

/-- One step of the run thread. -/
def run (s : RemedyState) : RemedyState :=
  match s.pc with
  | .before call => s.read r call .before fun value _ => { s with pc := .operate value }
  | .operate before =>
    match (r.callables s.instant).operate r.action with
    | none => { s with pc := .judge .null .null }
    | some (.error e) => if e.base then s.stop else { s with pc := .judge (.ofOption before) .null }
    | some (.ok ()) => { s with pc := .settle before, applied := some s.instant }
  | .settle before =>
    match (r.callables s.instant).sleep 60 with
    | .ok () => { s with pc := .after before (.entered r.healthNrql) }
    | .error _ => s.stop
  | .after before call =>
    s.read r call (.after before) fun value answeredAt =>
      s.record value answeredAt (.judge (.ofOption before) (.ofOption value))
  | .judge before after => { s with pc := r.judged 0 before after }
  | .recoveryAbort poll before => if s.abort then s.stop else { s with pc := .recoverySleep poll before }
  | .recoverySleep poll before =>
    match r.sleep s.instant with
    | .ok () => { s with pc := .recoveryHealth poll before (.entered r.healthNrql) }
    | .error _ => s.stop
  | .recoveryHealth poll before call =>
    s.read r call (.recoveryHealth poll before) fun value answeredAt =>
      s.record value answeredAt (r.judged (poll + 1) before (.ofOption value))
  | .stopped => s

end RemedyState

/-- What happens next: the run thread takes a step, or another thread steps in its
call `i`, calls `nrql` or requests the abort. -/
inductive RemedyLabel where
  | run
  | other (i : ℕ)
  | ask (query : String)
  | abort

def RemedyState.next (s : RemedyState) : RemedyLabel → Option RemedyState
  | .run =>
    match s.pc with
    | .stopped => none
    | _ => some (s.run r).tick
  | .other i =>
    match s.others[i]? with
    | none => none
    | some call =>
      let (cache, call) := call.next r.newrelic s.cache s.instant
      some (tick { s with cache, others := s.others.set i call })
  | .ask query => some (tick { s with others := s.others ++ [.entered query] })
  | .abort => some (tick { s with abort := true })

def RemedyStep (s : RemedyState) (l : RemedyLabel) (s' : RemedyState) : Prop := s.next r l = some s'

end

/-! ### The executor taken apart -/

section
variable {r : Remedy} {s s' : RemedyState}

/-- What the execution came to is what `LiveEnv.execute` returns where the callables
behave as they did. -/
def RemedyPc.Executed (r : Remedy) : RemedyPc → Prop
  | .settle _ | .after _ _ => ∃ env : LiveEnv, env.operate r.action = some (.ok ())
  | .judge was now => ∃ (env : LiveEnv) (outcome : Outcome),
      env.execute r.action = .ok outcome ∧ outcome.before = was ∧ outcome.after = now
  | _ => True

theorem read_pc {P : RemedyPc → Prop} {call : NrqlCall} {waiting : NrqlCall → RemedyPc}
    {taken : Option ℚ → ℕ → RemedyState} (stopped : P .stopped) (waits : ∀ call, P (waiting call))
    (takes : ∀ value answeredAt, P (taken value answeredAt).pc) :
    P (s.read r call waiting taken).pc := by
  unfold RemedyState.read
  split
  · split
    · exact takes _ _
    · exact stopped
  · exact stopped
  · exact waits _

theorem judged_executed (poll : ℕ) (before value : Json) :
    (r.judged poll before value).Executed r := by
  unfold Remedy.judged
  split
  · trivial
  · split <;> trivial

theorem executed_run (executed : s.pc.Executed r) : (s.run r).pc.Executed r := by
  cases here : s.pc with
  | before call =>
    simp only [RemedyState.run, here]
    exact read_pc trivial (fun _ => trivial) fun _ _ => trivial
  | operate before =>
    simp only [RemedyState.run, here]
    let env : LiveEnv := { r.callables s.instant with healthBefore := fun _ => .ok before }
    have same : env.operate r.action = (r.callables s.instant).operate r.action := rfl
    split
    · rename_i unsupported
      have failed : env.execute r.action = .ok
          { ok := false, error := "live executor cannot run kind=" ++ r.action.kind.text } := by
        simp only [LiveEnv.execute, same, unsupported]
        rfl
      exact ⟨env, _, failed, rfl, rfl⟩
    · rename_i e raised
      split
      · trivial
      · rename_i ordinary
        have failed : env.execute r.action = .ok
            { ok := false, before := .ofOption before, durationS := env.elapsed,
              error := s!"{e.type}: {e.message}" } := by
          simp only [LiveEnv.execute, same, raised]
          exact if_neg ordinary
        exact ⟨env, _, failed, rfl, rfl⟩
    · exact ⟨_, ‹_›⟩
  | settle before =>
    rw [here] at executed
    simp only [RemedyState.run, here]
    split
    · exact executed
    · trivial
  | after before call =>
    rw [here] at executed
    obtain ⟨env, operated⟩ := executed
    simp only [RemedyState.run, here]
    refine read_pc trivial (fun _ => ⟨env, operated⟩) fun value _ => ?_
    let answering : LiveEnv := { env with
      healthBefore := fun _ => .ok before, healthAfter := fun _ => .ok value, sleep := fun _ => .ok () }
    have same : answering.operate r.action = env.operate r.action := rfl
    exact ⟨answering, _, by simp only [LiveEnv.execute, same, operated]; rfl, rfl, rfl⟩
  | judge before after =>
    simp only [RemedyState.run, here]
    exact judged_executed 0 before after
  | recoveryAbort poll before =>
    simp only [RemedyState.run, here]
    split <;> trivial
  | recoverySleep poll before =>
    simp only [RemedyState.run, here]
    split <;> trivial
  | recoveryHealth poll before call =>
    simp only [RemedyState.run, here]
    exact read_pc trivial (fun _ => trivial) fun value _ => judged_executed _ _ _
  | stopped =>
    simp only [RemedyState.run, here]
    trivial

theorem executed_step {l : RemedyLabel} (executed : s.pc.Executed r) (step : RemedyStep r s l s') :
    s'.pc.Executed r := by
  cases l with
  | run =>
    cases here : s.pc with
    | stopped => simp [RemedyStep, RemedyState.next, here] at step
    | _ =>
      simp only [RemedyStep, RemedyState.next, here, Option.some.injEq] at step
      rw [← step]
      exact executed_run executed
  | other i =>
    simp only [RemedyStep, RemedyState.next] at step
    split at step
    · cases step
    · cases step
      exact executed
  | ask query | abort =>
    cases step
    exact executed

/-- The before and after that are judged come from `LiveEnv.execute`, whatever the
other threads do meanwhile. -/
theorem judge_executed {ls : List RemedyLabel} (live : r.forceDryrun = false)
    (run : Transition.Run (RemedyStep r) (r.start true) ls s) : s.pc.Executed r := by
  refine run.invariant (fun s => s.pc.Executed r) (fun _ _ _ executed step =>
    executed_step executed step) ?_
  simp [Remedy.start, live, RemedyPc.Executed]

end

/-! ### The freshness of the readings -/

section
variable (r : Remedy)

/-- The reading's value is what the backend answered after the operation was applied. -/
def Remedy.Fresh (s : RemedyState) (reading : Reading) : Prop :=
  ∃ rows, Served r.newrelic r.healthNrql s.applied s.instant rows reading.answeredAt ∧
    r.health rows = .ok reading.value

/-- The clock reading with which a reading after the operation looks into the cache. -/
def RemedyPc.looking : RemedyPc → Option ℚ
  | .after _ (.looking _ now) | .recoveryHealth _ _ (.looking _ now) => some now
  | _ => none

/-- The condition on a step: where a reading after the operation looks into the cache,
a response from before the operation is past its time to live. -/
def Remedy.Expired (s : RemedyState) : RemedyLabel → Prop
  | .run => ∀ now ∈ s.pc.looking, ∀ hit ∈ s.cache.get? r.healthNrql, ∀ m ∈ s.applied,
      hit.answeredAt ≤ m → r.newrelic.cacheTtlS ≤ now - hit.storedAt
  | _ => True

instance (s : RemedyState) (l : RemedyLabel) : Decidable (r.Expired s l) :=
  match l with
  | .run => inferInstanceAs (Decidable (∀ now ∈ s.pc.looking, ∀ hit ∈ s.cache.get? r.healthNrql,
      ∀ m ∈ s.applied, hit.answeredAt ≤ m → r.newrelic.cacheTtlS ≤ now - hit.storedAt))
  | .other _ | .ask _ | .abort => inferInstanceAs (Decidable True)

/-- A call of `health()` is on its way, with a response after `since`. -/
def Remedy.Asking (s : RemedyState) (since : Option ℕ) (call : NrqlCall) : Prop :=
  call.Asks r.newrelic r.healthNrql since s.instant

/-- The calls of the run thread are late enough, and there is no reading before the
operation. -/
def RemedyPc.Ready (s : RemedyState) : RemedyPc → Prop
  | .before call => s.readings = [] ∧ r.Asking s none call
  | .operate _ => s.readings = []
  | .after _ call | .recoveryHealth _ _ call => r.Asking s s.applied call
  | _ => True

/-- The invariant. -/
structure Trusted (s : RemedyState) : Prop where
  truthful : Truthful r.newrelic s.instant s.cache
  others : ∀ call ∈ s.others, ∃ query, call.Asks r.newrelic query none s.instant
  past : ∀ m ∈ s.applied, m < s.instant
  fresh : ∀ reading ∈ s.readings, r.Fresh s reading
  ready : s.pc.Ready r s

end

section
variable {r : Remedy} {s s' : RemedyState} {since : Option ℕ} {call : NrqlCall}

/-- How a step of `health()` goes: it raises, it has a value that the backend served,
or it is still on its way. -/
theorem read_cases (waiting : NrqlCall → RemedyPc) {taken : Option ℚ → ℕ → RemedyState}
    (asking : r.Asking s since call) (truthful : Truthful r.newrelic s.instant s.cache)
    (past : ∀ m ∈ since, m < s.instant)
    (served : ∀ now, call = .looking r.healthNrql now → ∀ hit ∈ s.cache.get? r.healthNrql,
      now - hit.storedAt < r.newrelic.cacheTtlS → ∀ m ∈ since, m < hit.answeredAt) :
    s.read r call waiting taken = s.stop ∨
    (∃ rows value answeredAt, Served r.newrelic r.healthNrql since s.instant rows answeredAt ∧
      r.health rows = .ok value ∧ s.read r call waiting taken = taken value answeredAt) ∨
    ∃ cache call', Truthful r.newrelic (s.instant + 1) cache ∧
      call'.Asks r.newrelic r.healthNrql since (s.instant + 1) ∧
      s.read r call waiting taken = { s with cache, pc := waiting call' } := by
  obtain ⟨asks', truthful'⟩ := next_asks asking truthful past served
  cases call with
  | returned rows answeredAt =>
    simp only [RemedyState.read]
    split
    · exact .inr (.inl ⟨rows, _, answeredAt, asking, ‹_›, rfl⟩)
    · exact .inl rfl
  | raised e => exact .inl rfl
  | entered | looking | executing | storing => exact .inr (.inr ⟨_, _, truthful', asks', rfl⟩)

theorem Remedy.Fresh.later {reading : Reading} (fresh : r.Fresh s reading) :
    r.Fresh s.tick reading := by
  obtain ⟨rows, served, value⟩ := fresh
  exact ⟨rows, served.mono s.instant.le_succ, value⟩

theorem Trusted.others_later (trusted : Trusted r s) :
    ∀ call ∈ s.others, ∃ query, call.Asks r.newrelic query none (s.instant + 1) := by
  intro call member
  obtain ⟨query, asks⟩ := trusted.others call member
  exact ⟨query, asks.mono s.instant.le_succ⟩

theorem Trusted.past_later (trusted : Trusted r s) : ∀ m ∈ s.applied, m < s.instant + 1 :=
  fun m applied => (trusted.past m applied).trans s.instant.lt_succ_self

theorem RemedyPc.Ready.later {pc : RemedyPc} (ready : pc.Ready r s) : pc.Ready r s.tick := by
  cases pc with
  | before call => exact ⟨ready.1, NrqlCall.Asks.mono ready.2 s.instant.le_succ⟩
  | operate before => exact ready
  | after before call => exact NrqlCall.Asks.mono ready s.instant.le_succ
  | recoveryHealth poll before call => exact NrqlCall.Asks.mono ready s.instant.le_succ
  | settle | judge | recoveryAbort | recoverySleep | stopped => trivial

/-- The run thread goes on and leaves everything else alone. -/
theorem Trusted.goto (trusted : Trusted r s) {pc : RemedyPc}
    (ready : pc.Ready r (RemedyState.tick { s with pc })) : Trusted r (RemedyState.tick { s with pc }) where
  truthful := trusted.truthful.mono s.instant.le_succ
  others := trusted.others_later
  past := trusted.past_later
  fresh := fun reading member => (trusted.fresh reading member).later
  ready := ready

theorem Trusted.stop (trusted : Trusted r s) : Trusted r s.stop.tick := trusted.goto trivial

theorem judged_ready (poll : ℕ) (before value : Json) : (r.judged poll before value).Ready r s := by
  unfold Remedy.judged
  split
  · trivial
  · split <;> trivial

/-- A step of a reading before the operation. -/
theorem trusted_before (trusted : Trusted r s) (here : s.pc = .before call) : Trusted r (s.run r).tick := by
  have ready := trusted.ready
  rw [here] at ready
  obtain ⟨unread, asking⟩ := ready
  simp only [RemedyState.run, here]
  rcases read_cases .before asking trusted.truthful nofun nofun with
    stopped | ⟨rows, value, answeredAt, -, -, done⟩ | ⟨cache, call', truthful, asks, moved⟩
  · rw [stopped]
    exact trusted.stop
  · rw [done]
    exact trusted.goto unread
  · rw [moved]
    exact ⟨truthful, trusted.others_later, trusted.past_later,
      fun reading member => (trusted.fresh reading member).later, unread, asks⟩

/-- A step of a reading after the operation, whose value is recorded. -/
theorem trusted_read (trusted : Trusted r s) {waiting : NrqlCall → RemedyPc}
    {judged : Option ℚ → RemedyPc} (asking : r.Asking s s.applied call)
    (expired : ∀ now, call = .looking r.healthNrql now → ∀ hit ∈ s.cache.get? r.healthNrql,
      ∀ m ∈ s.applied, hit.answeredAt ≤ m → r.newrelic.cacheTtlS ≤ now - hit.storedAt)
    (waits : ∀ call s, r.Asking s s.applied call → (waiting call).Ready r s)
    (judges : ∀ value s, (judged value).Ready r s) :
    Trusted r (s.read r call waiting fun value answeredAt =>
      s.record value answeredAt (judged value)).tick := by
  have served : ∀ now, call = .looking r.healthNrql now → ∀ hit ∈ s.cache.get? r.healthNrql,
      now - hit.storedAt < r.newrelic.cacheTtlS → ∀ m ∈ s.applied, m < hit.answeredAt := by
    intro now looking hit found young m applied
    by_contra early
    have old := expired now looking hit found m applied (Nat.le_of_not_lt early)
    exact Rat.not_lt.mpr old young
  rcases read_cases waiting asking trusted.truthful trusted.past served with
    stopped | ⟨rows, value, answeredAt, response, read, done⟩ | ⟨cache, call', truthful, asks, moved⟩
  · rw [stopped]
    exact trusted.stop
  · rw [done]
    refine ⟨trusted.truthful.mono s.instant.le_succ, trusted.others_later, trusted.past_later, ?_,
      judges value _⟩
    intro reading member
    rcases List.mem_append.mp member with earlier | new
    · exact (trusted.fresh reading earlier).later
    · obtain rfl := List.mem_singleton.mp new
      exact ⟨rows, response.mono s.instant.le_succ, read⟩
  · rw [moved]
    exact ⟨truthful, trusted.others_later, trusted.past_later,
      fun reading member => (trusted.fresh reading member).later, waits call' _ asks⟩

theorem trusted_operate (trusted : Trusted r s) {before : Option ℚ} (here : s.pc = .operate before) :
    Trusted r (s.run r).tick := by
  have unread : s.readings = [] := by
    have ready := trusted.ready
    rw [here] at ready
    exact ready
  simp only [RemedyState.run, here]
  split
  · exact trusted.goto trivial
  · split
    · exact trusted.stop
    · exact trusted.goto trivial
  · refine ⟨trusted.truthful.mono s.instant.le_succ, trusted.others_later, ?_, ?_, trivial⟩
    · intro m applied
      cases applied
      exact s.instant.lt_succ_self
    · intro reading member
      have earlier : reading ∈ s.readings := member
      rw [unread] at earlier
      cases earlier

theorem trusted_run (trusted : Trusted r s) (expired : r.Expired s .run) : Trusted r (s.run r).tick := by
  cases here : s.pc with
  | before call => exact trusted_before trusted here
  | operate before => exact trusted_operate trusted here
  | settle before =>
    simp only [RemedyState.run, here]
    split
    · exact trusted.goto rfl
    · exact trusted.stop
  | after before call =>
    have asking := trusted.ready
    rw [here] at asking
    simp only [RemedyState.run, here]
    refine trusted_read trusted asking ?_ (fun _ _ asks => asks) fun _ _ => trivial
    rintro now rfl
    exact expired now (by rw [here]; rfl)
  | judge before after =>
    simp only [RemedyState.run, here]
    exact trusted.goto (judged_ready 0 before after)
  | recoveryAbort poll before =>
    simp only [RemedyState.run, here]
    split
    · exact trusted.stop
    · exact trusted.goto trivial
  | recoverySleep poll before =>
    simp only [RemedyState.run, here]
    split
    · exact trusted.goto rfl
    · exact trusted.stop
  | recoveryHealth poll before call =>
    have asking := trusted.ready
    rw [here] at asking
    simp only [RemedyState.run, here]
    refine trusted_read trusted asking ?_ (fun _ _ asks => asks) fun value _ => judged_ready _ _ _
    rintro now rfl
    exact expired now (by rw [here]; rfl)
  | stopped =>
    simp only [RemedyState.run, here]
    exact ⟨trusted.truthful.mono s.instant.le_succ, trusted.others_later, trusted.past_later,
      fun reading member => (trusted.fresh reading member).later, by
        rw [show (RemedyState.tick _).pc = s.pc from rfl, here]
        trivial⟩

theorem trusted_step {l : RemedyLabel} (trusted : Trusted r s)
    (step : Guarded r.Expired (RemedyStep r) s l s') : Trusted r s' := by
  obtain ⟨expired, taken⟩ := step
  have later : ∀ reading ∈ s.readings, r.Fresh s.tick reading :=
    fun reading member => (trusted.fresh reading member).later
  cases l with
  | run =>
    cases here : s.pc with
    | stopped => simp [RemedyStep, RemedyState.next, here] at taken
    | _ =>
      simp only [RemedyStep, RemedyState.next, here, Option.some.injEq] at taken
      rw [← taken]
      exact trusted_run trusted expired
  | other i =>
    simp only [RemedyStep, RemedyState.next] at taken
    split at taken
    · cases taken
    · rename_i call found
      cases taken
      obtain ⟨query, asks⟩ := trusted.others call (List.mem_of_getElem? found)
      obtain ⟨asks', truthful⟩ := next_asks asks trusted.truthful nofun nofun
      refine ⟨truthful, ?_, trusted.past_later, later, ?_⟩
      · intro other member
        rcases List.mem_or_eq_of_mem_set member with earlier | rfl
        · exact trusted.others_later other earlier
        · exact ⟨query, asks'⟩
      · exact trusted.ready.later
  | ask query =>
    cases taken
    refine ⟨trusted.truthful.mono s.instant.le_succ, ?_, trusted.past_later, later, trusted.ready.later⟩
    intro other member
    rcases List.mem_append.mp member with earlier | new
    · exact trusted.others_later other earlier
    · obtain rfl := List.mem_singleton.mp new
      exact ⟨query, rfl⟩
  | abort =>
    cases taken
    exact ⟨trusted.truthful.mono s.instant.le_succ, trusted.others_later, trusted.past_later, later,
      trusted.ready.later⟩

theorem trusted_start (permitted : Bool) : Trusted r (r.start permitted) := by
  have initial : ∀ pc : RemedyPc, pc.Ready r { pc } → Trusted r { pc } := fun pc ready =>
    ⟨truthful_empty, nofun, nofun, nofun, ready⟩
  unfold Remedy.start
  split
  · split
    · split
      · exact initial _ trivial
      · exact initial _ trivial
    · exact initial _ ⟨rfl, rfl⟩
  · exact initial _ trivial

/-- Where no response from before the operation is served, every reading that judges
the recovery is fresh. -/
theorem recovery_judged_fresh {permitted : Bool} {ls : List RemedyLabel}
    (run : Transition.Run (Guarded r.Expired (RemedyStep r)) (r.start permitted) ls s) :
    ∀ reading ∈ s.readings, r.Fresh s reading :=
  (run.invariant (Trusted r) (fun _ _ _ trusted step => trusted_step trusted step)
    (trusted_start permitted)).fresh

end

section Sample

/-- Callables that succeed at once. -/
def calmCallables : LiveEnv where
  healthBefore _ := .ok none
  healthAfter _ := .ok none
  flagReset := .ok ()
  restart _ := .ok ()
  scale _ _ := .ok ()
  sleep _ := .ok ()

/-- The fault is gone when the sixth step clears it; `monotonic` times each step. -/
def curedRemedy (monotonic : ℕ → ℚ) : Remedy where
  newrelic := { backend n _ := .ok [.dict [("p", .int (if n ≤ 5 then 90 else 10))]], monotonic }
  floatText _ := .error ⟨"ValueError", "could not convert string to float", false⟩
  healthNrql := "SELECT latest(docker.container.cpu.utilization) AS p FROM Metric"
  recoveredBelow := some 50
  action := { id := "a1", kind := .removeImpairment, effect := .mutate, targetService := "cart" }
  callables _ := calmCallables
  sleep _ := .ok ()

/-- Every step takes longer than a response lives. -/
def slowRemedy : Remedy := curedRemedy fun n => 200 * n

theorem recovery_judged_fresh_slow :
    ∃ s, s.applied = some 5 ∧ s.readings.map Reading.value = [some 10] ∧
      ∀ reading ∈ s.readings, slowRemedy.Fresh s reading := by
  obtain ⟨s, run, reached⟩ := exists_run
    (fun _ _ => of_decide_eq_true : ∀ s l, _ → slowRemedy.Expired s l)
    (by decide +kernel : (play (RemedyState.next slowRemedy)
      (fun s l => decide (slowRemedy.Expired s l)) (List.replicate 13 .run)
      (slowRemedy.start true)).any (fun s =>
        decide (s.applied = some 5 ∧ s.readings.map Reading.value = [some 10])) = true)
  obtain ⟨applied, values⟩ := of_decide_eq_true reached
  exact ⟨s, applied, values, recovery_judged_fresh run⟩

/-- Nothing takes time but the settle. -/
def settledRemedy : Remedy := curedRemedy fun n => if n ≤ 6 then 0 else 60

theorem after_served_from_before :
    ∃ s, Transition.Run (RemedyStep settledRemedy) (settledRemedy.start true)
      (List.replicate 10 .run) s ∧ ∃ reading ∈ s.readings, ¬ settledRemedy.Fresh s reading := by
  obtain ⟨s, run, reached⟩ := exists_run
    (fun _ _ _ => trivial : ∀ _ _, true = true → True)
    (by decide +kernel : (play (RemedyState.next settledRemedy) (fun _ _ => true)
      (List.replicate 10 .run) (settledRemedy.start true)).any (fun s =>
        decide (s.applied = some 5 ∧ s.readings.map Reading.answeredAt = [2])) = true)
  obtain ⟨applied, answered⟩ := of_decide_eq_true reached
  obtain ⟨reading, one, early⟩ := List.map_eq_singleton_iff.mp answered
  refine ⟨s, run.unguarded, reading, by simp [one], ?_⟩
  rintro ⟨rows, served, -⟩
  have late := served.late 5 applied
  omega

end Sample

end Sentinel.LiveLab
