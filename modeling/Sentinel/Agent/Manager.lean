import Mathlib.Algebra.BigOperators.Group.Finset.Piecewise
import Sentinel.Agent.Accounting
import Sentinel.Agent.Agents
import Sentinel.Tools.Models
import Sentinel.Transition.Mutex

/-! The manager's accounts. Investigators run side by side, and what each used and found is put
on the common account under a lock, a little at a time. What pydantic accepts of a submitted
finding or verdict is a parameter. -/
namespace Sentinel.Agent
open Python Tools Transition

/-! ### Investigators -/

/-- An investigator's verdict on one service. -/
structure ServiceFinding where
  service : String
  isOrigin : Bool
  faultType : Option String := none
  ownServerErrors : ℕ := 0
  shiftedSignals : List String := []
  suspectChangeId : Option String := none
  confidence : ℚ
  evidence : List String := []
  named : service ≠ ""
  calibrated : 0 ≤ confidence ∧ confidence ≤ 1

/-- `model_dump(mode="json")`. -/
def ServiceFinding.modelDump (finding : ServiceFinding) : List (String × Json) :=
  [("service", .str finding.service), ("is_origin", .bool finding.isOrigin),
    ("fault_type", optionalStr finding.faultType),
    ("own_server_errors", .int finding.ownServerErrors),
    ("shifted_signals", strings finding.shiftedSignals),
    ("suspect_change_id", optionalStr finding.suspectChangeId),
    ("confidence", .float finding.confidence), ("evidence", strings finding.evidence)]

/-- `ServiceFinding.model_validate`, and whether `ChangeVerdict.model_validate` accepts. -/
class FindingModels where
  finding : Json → Py ServiceFinding
  verdict : Json → Py Unit

structure FindingVerdict where
  accept : Bool := true
  feedback : String := ""

/-- `FindingValidator.subagent_stop`, the only hook that looks at findings. -/
def subagentStop (finding : ServiceFinding) : FindingVerdict :=
  let issues :=
    (if finding.service = "" then ["service is required"] else []) ++
    (if finding.isOrigin && finding.evidence.isEmpty then
      ["is_origin=true requires at least one evidence line"] else []) ++
    (if finding.isOrigin && (finding.faultType.getD "" == "") then
      ["is_origin=true requires a fault_type"] else []) ++
    (if 0 ≤ finding.confidence ∧ finding.confidence ≤ 1 then []
      else ["confidence must be between 0 and 1"])
  if issues.isEmpty then {} else { accept := false, feedback := "; ".intercalate issues }

/-- What a subagent is spawned for. -/
inductive Subject where
  | service (name : String)
  | change (id : String)

/-- A subagent with its loop, whose dispatches act on a world of its own. -/
structure Subagent (σ : Type) where
  subject : Subject
  config : LoopConfig
  dispatch : String → Json → σ → Py Json × σ
  ctx : RunContext
  world : σ

/-- What an investigator reports when it ran out of budget. -/
def noFinding (service stop : String) : Py ServiceFinding :=
  if named : service ≠ "" then
    .ok {
      service, isOrigin := false, confidence := 0, named, calibrated := ⟨le_rfl, zero_le_one⟩
      evidence := [s!"investigator for {service} returned no finding within budget ({stop})"] }
  else .error ⟨"ValidationError", "String should have at least 1 character", false⟩

/-! ### Accounts -/

/-- `worker_usage`, `worker_calls`, `worker_events`, `findings` and the two counters. -/
structure Accounts where
  workerUsage : Dict String Int := Dict.empty
  workerCalls : List String := []
  workerEvents : List HookEvent := []
  subagents : ℕ := 0
  findings : List Json := []
  rejected : ℕ := 0

/-- `_accumulate`, and the section in which a finding is kept. -/
inductive AccountCall where
  | accumulate (result : LoopResult)
  | record (finding : ServiceFinding)

/-- `run_investigator` or `run_change_investigator`: the loop, and the finding of one that is for
a service. -/
def Subagent.outcome {σ : Type} [FindingModels] (agent : Subagent σ) :
    Py (LoopResult × Option ServiceFinding) := do
  let result ← (runLoop agent.config agent.dispatch agent.ctx agent.world).1
  match agent.subject with
  | .service name =>
    let finding ← result.terminal.elim (noFinding name result.stop) FindingModels.finding
    pure (result, some finding)
  | .change _ =>
    result.terminal.elim (.ok ()) FindingModels.verdict
    pure (result, none)

/-- `_investigate_service` or the change branch of `dispatch`, as far as it holds the lock. One that
raises puts nothing on the account. -/
def Subagent.program {σ : Type} [FindingModels] (agent : Subagent σ) : List AccountCall :=
  match agent.outcome with
  | .error _ => []
  | .ok (result, found) => .accumulate result :: found.toList.map .record

inductive AccountPc where
  | usage (left : List (String × Int)) (result : LoopResult)
  | sum (key : String) (total : Int) (left : List (String × Int)) (result : LoopResult)
  | calls (result : LoopResult)
  | events (result : LoopResult)
  | count
  | counted (n : ℕ)
  | dump (finding : ServiceFinding)
  | reject (finding : ServiceFinding)
  | rejected (n : ℕ) (finding : ServiceFinding)
  | append (data : List (String × Json))
  | done

/-- A counter is read, then written. -/
def accountWork (s : Accounts) : AccountPc → Option (Accounts × AccountPc)
  | .usage ((key, n) :: left) result => some (s, .sum key (tokensOf s.workerUsage key + n) left result)
  | .sum key total left result =>
    some ({ s with workerUsage := s.workerUsage.set key total }, .usage left result)
  | .usage [] result => some (s, .calls result)
  | .calls result => some ({ s with workerCalls := s.workerCalls ++ result.calls }, .events result)
  | .events result => some ({ s with workerEvents := s.workerEvents ++ result.events }, .count)
  | .count => some (s, .counted (s.subagents + 1))
  | .counted n => some ({ s with subagents := n }, .done)
  | .dump finding =>
    some (s, if (subagentStop finding).accept then .append finding.modelDump else .reject finding)
  | .reject finding => some (s, .rejected (s.rejected + 1) finding)
  | .rejected n finding =>
    some ({ s with rejected := n },
      .append (assign "_validation" (.str (subagentStop finding).feedback) finding.modelDump))
  | .append data => some ({ s with findings := s.findings ++ [.dict data] }, .done)
  | .done => none

def accountBody : Body Accounts AccountPc AccountCall where
  enter
    | .accumulate result => .usage result.usage.items result
    | .record finding => .dump finding
  work := accountWork

/-! ### Sections as a whole -/

/-- What is kept of a finding. -/
def ServiceFinding.kept (finding : ServiceFinding) : Json :=
  if (subagentStop finding).accept then .dict finding.modelDump
  else .dict (assign "_validation" (.str (subagentStop finding).feedback) finding.modelDump)

def addCounts (counter : Dict String Int) (counts : List (String × Int)) : Dict String Int :=
  counts.foldl (fun counter entry => counter.set entry.1 (tokensOf counter entry.1 + entry.2)) counter

/-- A section as one step. -/
def Accounts.apply (s : Accounts) : AccountCall → Accounts
  | .accumulate result => { s with
      workerUsage := addCounts s.workerUsage result.usage.items
      workerCalls := s.workerCalls ++ result.calls
      workerEvents := s.workerEvents ++ result.events
      subagents := s.subagents + 1 }
  | .record finding => { s with
      findings := s.findings ++ [finding.kept]
      rejected := s.rejected + if (subagentStop finding).accept then 0 else 1 }

/-- How far a section that started at `s` has come. -/
inductive Booked (s : Accounts) : AccountCall → Accounts → AccountPc → Prop where
  | usage {result : LoopResult} (earlier later) : result.usage.items = earlier ++ later →
      Booked s (.accumulate result) { s with workerUsage := addCounts s.workerUsage earlier }
        (.usage later result)
  | sum {result : LoopResult} (earlier key n later) :
      result.usage.items = earlier ++ (key, n) :: later →
      Booked s (.accumulate result) { s with workerUsage := addCounts s.workerUsage earlier }
        (.sum key (tokensOf (addCounts s.workerUsage earlier) key + n) later result)
  | calls {result : LoopResult} : Booked s (.accumulate result)
      { s with workerUsage := addCounts s.workerUsage result.usage.items } (.calls result)
  | events {result : LoopResult} : Booked s (.accumulate result) { s with
      workerUsage := addCounts s.workerUsage result.usage.items
      workerCalls := s.workerCalls ++ result.calls } (.events result)
  | count {result : LoopResult} : Booked s (.accumulate result)
      { s.apply (.accumulate result) with subagents := s.subagents } .count
  | counted {result : LoopResult} : Booked s (.accumulate result)
      { s.apply (.accumulate result) with subagents := s.subagents } (.counted (s.subagents + 1))
  | dump {finding : ServiceFinding} : Booked s (.record finding) s (.dump finding)
  | reject {finding : ServiceFinding} : (subagentStop finding).accept = false →
      Booked s (.record finding) s (.reject finding)
  | rejected {finding : ServiceFinding} : (subagentStop finding).accept = false →
      Booked s (.record finding) s (.rejected (s.rejected + 1) finding)
  | append {finding : ServiceFinding} (data) : finding.kept = .dict data →
      Booked s (.record finding)
        { s with rejected := s.rejected + if (subagentStop finding).accept then 0 else 1 }
        (.append data)
  | done (call) : Booked s call (s.apply call) .done

theorem addCounts_concat (counter : Dict String Int) (counts : List (String × Int)) (key : String)
    (n : Int) : addCounts counter (counts ++ [(key, n)]) =
      (addCounts counter counts).set key (tokensOf (addCounts counter counts) key + n) := by
  simp [addCounts]

theorem booked_step {s t u : Accounts} {call : AccountCall} {pc next : AccountPc}
    (booked : Booked s call t pc) (worked : accountWork t pc = some (u, next)) :
    Booked s call u next := by
  cases booked with
  | @usage result earlier later split =>
    cases later with
    | nil =>
      cases worked
      rw [List.append_nil] at split
      rw [← split]
      exact .calls
    | cons entry later =>
      cases worked
      exact .sum earlier _ _ later split
  | sum earlier key n later split =>
    cases worked
    have more := Booked.usage (s := s) (earlier ++ [(key, n)]) later (by simpa using split)
    rwa [addCounts_concat] at more
  | calls =>
    cases worked
    exact .events
  | events =>
    cases worked
    exact .count
  | count =>
    cases worked
    exact .counted
  | counted =>
    cases worked
    exact .done _
  | @dump finding =>
    cases worked
    cases accepted : (subagentStop finding).accept with
    | true =>
      have kept : Booked s (.record finding) _ _ := .append finding.modelDump (by
        rw [ServiceFinding.kept, if_pos accepted])
      rwa [if_pos accepted] at kept
    | false => exact .reject accepted
  | reject refused =>
    cases worked
    exact .rejected refused
  | @rejected finding refused =>
    cases worked
    have kept : Booked s (.record finding) _ _ := .append _ (by
      rw [ServiceFinding.kept, refused]
      rfl)
    rwa [refused] at kept
  | append data kept =>
    cases worked
    rw [← kept]
    exact .done _
  | done => cases worked

theorem booked_works {s t : Accounts} {call : AccountCall} {pc : AccountPc}
    (works : accountBody.Works s (accountBody.enter call) t pc) : Booked s call t pc := by
  induction works with
  | refl =>
    cases call with
    | accumulate result => exact .usage [] _ rfl
    | record finding => exact .dump
  | step _ worked ih => exact booked_step ih worked

/-- One after the other, the sections are what they are as one step each. -/
theorem serial_accounts {start s : Accounts} {calls : List AccountCall}
    (serial : accountBody.Serial start calls s) : s = calls.foldl Accounts.apply start := by
  induction serial with
  | nil => rfl
  | @call calls before call t pc _ works ended ih =>
    rw [List.foldl_concat, ← ih]
    cases booked_works works with
    | done => rfl
    | @usage _ _ later =>
      cases later with
      | nil => cases ended
      | cons => cases ended
    | _ => cases ended

/-! ### Totals -/

namespace AccountCall

def tokens (key : String) : AccountCall → ℤ
  | accumulate result => tokensOf result.usage key
  | record _ => 0

def names : AccountCall → List String
  | accumulate result => result.calls
  | record _ => []

def spawned : AccountCall → ℕ
  | accumulate _ => 1
  | record _ => 0

def kept : AccountCall → List Json
  | accumulate _ => []
  | record finding => [finding.kept]

end AccountCall

/-- The finding failed the check when it was kept. -/
def flagged (data : Json) : Bool := (data.lookup "_validation").isSome

theorem flagged_kept (finding : ServiceFinding) :
    flagged finding.kept = !(subagentStop finding).accept := by
  unfold ServiceFinding.kept
  split
  · rename_i accepted
    rw [accepted]
    rfl
  · rename_i refused
    rw [Bool.not_eq_true] at refused
    rw [refused, flagged]
    change ((assign "_validation" _ finding.modelDump).lookup "_validation").isSome = _
    rw [lookup_assign, if_pos rfl]
    rfl

theorem tokensOf_addCounts {counts : List (String × Int)} (unique : (counts.map Prod.fst).Nodup)
    (counter : Dict String Int) (key : String) :
    tokensOf (addCounts counter counts) key = tokensOf counter key + (counts.lookup key).getD 0 := by
  induction counts using List.reverseRecOn with
  | nil => exact (add_zero _).symm
  | append_singleton counts entry ih =>
    obtain ⟨j, n⟩ := entry
    rw [List.map_append, List.nodup_append] at unique
    have fresh : j ∉ counts.map Prod.fst := fun member => unique.2.2 j member j (by simp) rfl
    rw [addCounts_concat, List.lookup_append]
    by_cases same : key = j
    · subst same
      have absent : counts.lookup key = none := by
        rw [List.lookup_eq_none_iff]
        rintro ⟨k, v⟩ member
        rw [bne_iff_ne]
        rintro rfl
        exact fresh (List.mem_map_of_mem member)
      have before := ih unique.1
      rw [absent] at before
      rw [tokensOf, Dict.get?_set, if_pos rfl, before, absent]
      simp
    · rw [tokensOf, Dict.get?_set, if_neg same]
      rw [← tokensOf, ih unique.1]
      simp [List.lookup_cons, beq_false_of_ne same]

/-- What sections have added up to. -/
structure Totals (calls : List AccountCall) (s : Accounts) : Prop where
  usage : ∀ key, tokensOf s.workerUsage key = (calls.map (AccountCall.tokens key)).sum
  names : s.workerCalls = calls.flatMap AccountCall.names
  subagents : s.subagents = (calls.map AccountCall.spawned).sum
  findings : s.findings = calls.flatMap AccountCall.kept
  rejected : s.rejected = s.findings.countP flagged

theorem totals_fold (calls : List AccountCall) : Totals calls (calls.foldl Accounts.apply {}) := by
  induction calls using List.reverseRecOn with
  | nil => exact ⟨fun _ => rfl, rfl, rfl, rfl, rfl⟩
  | append_singleton calls call ih =>
    rw [List.foldl_concat]
    generalize calls.foldl Accounts.apply {} = s at ih
    obtain ⟨usage, names, subagents, findings, rejected⟩ := ih
    cases call with
    | accumulate result =>
      refine ⟨fun key => ?_, ?_, ?_, ?_, rejected⟩
      · have added := tokensOf_addCounts result.usage.unique s.workerUsage key
        rw [usage key] at added
        rw [List.map_append, List.sum_append, List.map_singleton, List.sum_singleton]
        exact added
      · simp [Accounts.apply, AccountCall.names, names]
      · simp [Accounts.apply, AccountCall.spawned, subagents]
      · simpa [Accounts.apply, AccountCall.kept] using findings
    | record finding =>
      refine ⟨fun key => ?_, ?_, ?_, ?_, ?_⟩
      · simpa [Accounts.apply, AccountCall.tokens] using usage key
      · simpa [Accounts.apply, AccountCall.names] using names
      · simpa [Accounts.apply, AccountCall.spawned] using subagents
      · simp [Accounts.apply, AccountCall.kept, findings]
      · simp only [Accounts.apply, rejected, List.countP_append, List.countP_singleton,
          flagged_kept]
        cases (subagentStop finding).accept <;> rfl

/-! ### All investigators together -/

/-- A sum over calls of many threads is the sum of the threads' sums. -/
theorem sum_by_thread {ι C M : Type} [DecidableEq ι] [Fintype ι] [AddCommMonoid M]
    (entered : List (ι × C)) (f : C → M) : ((entered.map Prod.snd).map f).sum =
      ∑ i, (((entered.filter fun call => call.1 = i).map Prod.snd).map f).sum := by
  induction entered with
  | nil => simp
  | cons call rest ih =>
    have split (i : ι) : (((((call :: rest).filter fun c => c.1 = i).map Prod.snd).map f).sum : M) =
        (if call.1 = i then f call.2 else 0) +
          (((rest.filter fun c => c.1 = i).map Prod.snd).map f).sum := by
      by_cases same : call.1 = i
      · simp [same]
      · simp [same]
    rw [List.map_cons, List.map_cons, List.sum_cons, ih, Finset.sum_congr rfl fun i _ => split i,
      Finset.sum_add_distrib, Finset.sum_ite_eq, if_pos (Finset.mem_univ _)]

theorem coe_flatMap {α β : Type} (xs : List α) (f : α → List β) :
    ((xs.flatMap f : List β) : Multiset β) = (xs.map fun x => (f x : Multiset β)).sum := by
  induction xs with
  | nil => rfl
  | cons x rest ih => rw [List.flatMap_cons, ← Multiset.coe_add, ih, List.map_cons, List.sum_cons]

section
variable {σ : Type} [FindingModels]

/-- The exchanges of a subagent, where it returns: those that its loop went through. -/
def Subagent.WentThrough (agent : Subagent σ) (log : List Exchange) : Prop :=
  match agent.outcome with
  | .error _ => log = []
  | .ok (result, _) => ∃ final stop, Iterates agent.config (UseStep agent.config agent.dispatch)
      agent.config.maxIters ({ messages := [.user agent.config.initialUser], ctx := agent.ctx }, agent.world)
      log final stop ∧ result = final.1.result log.length stop

/-- The finding of a subagent that returns with one. -/
def Subagent.found (agent : Subagent σ) : List ServiceFinding :=
  match agent.outcome with
  | .error _ => []
  | .ok (_, found) => found.toList

theorem ran_of_outcome {agent : Subagent σ} {result : LoopResult} {found : Option ServiceFinding}
    (returned : agent.outcome = .ok (result, found)) :
    (runLoop agent.config agent.dispatch agent.ctx agent.world).1 = .ok result := by
  obtain ⟨ran, isRan, rest⟩ := bind_ok_iff.mp returned
  cases subject : agent.subject with
  | service name =>
    simp only [subject] at rest
    obtain ⟨finding, -, same⟩ := bind_ok_iff.mp rest
    cases same
    exact isRan
  | change id =>
    simp only [subject] at rest
    obtain ⟨_, -, same⟩ := bind_ok_iff.mp rest
    cases same
    exact isRan

/-- What a subagent puts on the account is that of its exchanges, and its finding. -/
theorem program_account (agent : Subagent σ) : ∃ log, agent.WentThrough log ∧
    (∀ key, (agent.program.map (AccountCall.tokens key)).sum =
      (log.map fun e => e.response.usage.tokens key).sum) ∧
    agent.program.flatMap AccountCall.names = log.flatMap (fun e => e.response.called) ∧
    (agent.program.map AccountCall.spawned).sum = (if Returns agent.outcome then 1 else 0) ∧
    agent.program.flatMap AccountCall.kept = agent.found.map ServiceFinding.kept := by
  rw [Subagent.program, Subagent.found]
  cases returned : agent.outcome with
  | error e =>
    refine ⟨[], by rw [Subagent.WentThrough, returned], fun _ => rfl, rfl, ?_, rfl⟩
    rw [if_neg (not_returns_error e)]
    rfl
  | ok outcome =>
    obtain ⟨result, found⟩ := outcome
    obtain ⟨log, final, stop, iterates, ended, calls, tokens⟩ := runLoop_account (ran_of_outcome returned)
    refine ⟨log, ?_, fun key => ?_, ?_, ?_, ?_⟩
    · rw [Subagent.WentThrough, returned]
      exact ⟨final, stop, iterates, ended⟩
    · rw [← tokens key]
      cases found <;> simp [AccountCall.tokens]
    · rw [← calls]
      cases found <;> simp [AccountCall.names]
    · rw [if_pos (returns_ok _)]
      cases found <;> rfl
    · cases found <;> rfl

variable {ι : Type} [DecidableEq ι] [Fintype ι]

/-- However the subagents are interleaved, whenever the lock is free the account is that of the
sections one after the other; and once all are through, it holds every token and every tool call of
the exchanges of each one that returned, each once, a finding of each that made one, and the rejected
ones are those that are flagged. -/
theorem manager_accounts {agents : ι → Subagent σ} {labels : List (LockStep ι)}
    {s : Mutex Accounts AccountPc AccountCall ι}
    (run : Run (fun s label t => s.next accountBody label = some t)
      (Mutex.start {} fun i => (agents i).program) labels s) (free : s.holder = none) :
    s.shared = (s.entered.map Prod.snd).foldl Accounts.apply {} ∧
      ((∀ i, s.todo i = []) → ∃ log : ι → List Exchange, (∀ i, (agents i).WentThrough (log i)) ∧
        (∀ key, tokensOf s.shared.workerUsage key =
          ∑ i, ((log i).map fun e => e.response.usage.tokens key).sum) ∧
        (s.shared.workerCalls : Multiset String) =
          ∑ i, ((log i).flatMap (fun e => e.response.called) : Multiset String) ∧
        s.shared.subagents = ∑ i, (if Returns (agents i).outcome then 1 else 0) ∧
        (s.shared.findings : Multiset Json) =
          ∑ i, ((agents i).found.map ServiceFinding.kept : Multiset Json) ∧
        s.shared.rejected = s.shared.findings.countP flagged) := by
  have inv := Mutex.serialized_run run
  have folded := serial_accounts (inv.free free).2
  refine ⟨folded, fun through => ?_⟩
  have order (i : ι) : (s.entered.filter fun call => call.1 = i).map Prod.snd = (agents i).program := by
    have all := inv.order i
    rwa [through i, List.append_nil] at all
  have bySubagent {M : Type} [AddCommMonoid M] (f : AccountCall → M) :
      ((s.entered.map Prod.snd).map f).sum = ∑ i, ((agents i).program.map f).sum := by
    rw [sum_by_thread]
    exact Finset.sum_congr rfl fun i _ => by rw [order i]
  obtain ⟨usage, names, subagents, findings, rejected⟩ := totals_fold (s.entered.map Prod.snd)
  rw [← folded] at usage names subagents findings rejected
  choose log through tokens called spawned kept using fun i => program_account (agents i)
  refine ⟨log, through, fun key => ?_, ?_, ?_, ?_, rejected⟩
  · rw [usage key, bySubagent]
    exact Finset.sum_congr rfl fun i _ => tokens i key
  · rw [names, coe_flatMap, bySubagent]
    exact Finset.sum_congr rfl fun i _ => by rw [← coe_flatMap, called i]
  · rw [subagents, bySubagent]
    exact Finset.sum_congr rfl fun i _ => spawned i
  · rw [findings, coe_flatMap, bySubagent]
    exact Finset.sum_congr rfl fun i _ => by rw [← coe_flatMap, kept i]

end

section Sample

/-- No finding or verdict is submitted. -/
@[reducible] def noModels : FindingModels where
  finding _ := .error ⟨"ValidationError", "Field required", false⟩
  verdict _ := .error ⟨"ValidationError", "Field required", false⟩

attribute [local instance] noModels

/-- An investigator whose model asks for the service's logs and then gives up. -/
def resigning (service : String) (tokens : Int) : Subagent Unit where
  subject := .service service
  config := {
    create := fun _ messages => .ok (
      if messages.length = 1 then
        ⟨[.toolUse ⟨"tu1", "query_logs", .dict [("service", .str service)]⟩], some "tool_use",
          { input := tokens, output := 20 }⟩
      else ⟨[], some "end_turn", { input := tokens, output := 1 }⟩)
    toolsSchema := []
    initialUser := s!"Investigate the service '{service}'."
    terminalTool := "report_finding"
    terminalModel := { validate := fun _ => .error [], errorText := fun _ => "", jsonSchema := .dict [], fields := [] }
    hooks := []
    maxIters := 14
    outputBudget := 80000 }
  dispatch _ _ world := (.ok (.dict []), world)
  ctx := {}
  world := ()

def pair (first : Bool) : Subagent Unit := if first then resigning "cart" 700 else resigning "ad" 300

/-- One investigator keeps its finding between the two sections of the other. -/
theorem pair_accounts : ∃ s : Mutex Accounts AccountPc AccountCall Bool,
    s.shared.subagents = ∑ i, (if Returns (pair i).outcome then 1 else 0) ∧
      ∃ log : Bool → List Exchange, (∀ i, (pair i).WentThrough (log i)) ∧
        (∀ key, tokensOf s.shared.workerUsage key =
          ∑ i, ((log i).map fun e => e.response.usage.tokens key).sum) ∧
        (s.shared.workerCalls : Multiset String) =
          ∑ i, ((log i).flatMap (fun e => e.response.called) : Multiset String) := by
  obtain ⟨s, run, reached⟩ := exists_run
    (fun _ _ _ => trivial : ∀ _ _, true = true → True)
    (by decide +kernel : (play (fun s label => s.next accountBody label) (fun _ _ => true)
      ([.acquire true] ++ List.replicate 13 (.work true) ++ [.release true, .acquire false] ++
        List.replicate 13 (.work false) ++ [.release false, .acquire true, .work true, .work true,
        .release true, .acquire false, .work false, .work false, .release false])
      (Mutex.start {} fun i => (pair i).program)).any (fun s => s.holder == none &&
        (s.todo true).isEmpty && (s.todo false).isEmpty) = true)
  simp only [Bool.and_eq_true, beq_iff_eq, List.isEmpty_iff] at reached
  obtain ⟨log, through, tokens, called, spawned, -⟩ := (manager_accounts run.unguarded reached.1.1).2 fun
    | true => reached.1.2
    | false => reached.2
  exact ⟨s, spawned, log, through, tokens, called⟩

end Sample
end Sentinel.Agent
