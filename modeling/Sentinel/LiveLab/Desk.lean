import Sentinel.Actions.GateProofs
import Sentinel.Actions.Lifecycle
import Sentinel.LiveLab.Machine

/-! The decision desk of a live run: how far its one action has come. The desk
is read off the run thread's next step, every step moves it along one table,
and its position determines what the journal says of the action. -/
namespace Sentinel.LiveLab
open Python Actions

inductive Desk where
  | before
  | drafted (action : SuggestedAction)
  | proposed (action : SuggestedAction)
  | awaiting (action : SuggestedAction)
  | lapsing (action : SuggestedAction)
  | taking (action : SuggestedAction)
  | denying (action : SuggestedAction) (approver reason : String)
  | approving (action : SuggestedAction) (approver : String)
  | approved (action : SuggestedAction)
  | expiring (action : SuggestedAction)
  | mismatched (action : SuggestedAction)
  | cleared (action : SuggestedAction) (now : ℚ)
  | executing (action : SuggestedAction) (now : ℚ)
  | executed (action : SuggestedAction)
  | closed
  | gone

def Task.desk : Task → Desk
  | .expires action => .drafted action
  | .deadline action | .awaiting action _ | .ttl action _ | .decisionAbort action => .awaiting action
  | .renderDetail action | .gateNow action => .approved action
  | .recoveryAbort .. | .recoverySleep .. | .recoveryHealth .. => .closed
  | _ => .before

def Entry.desk : Entry → Desk
  | .awaitingApproval action => .awaiting action
  | .executing action => .approved action
  | .recovering .. | .done => .closed
  | .failed | .cancelled => .gone
  | _ => .before

def Pc.desk : Pc → Desk
  | .task t => t.desk
  | .enter entry | .announce entry => entry.desk
  | .sweep | .inject => .before
  | .propose action _ => .drafted action
  | .post action => .proposed action
  | .decisionNone action => .awaiting action
  | .decisionRead action => .taking action
  | .expire action => .lapsing action
  | .deny action approver reason => .denying action approver reason
  | .approve action approver => .approving action approver
  | .gateCheck action _ => .approved action
  | .gateExpire action => .expiring action
  | .gateMismatch action => .mismatched action
  | .gateRender action now | .gateStart action now _ => .cleared action now
  | .gateExecute action now => .executing action now
  | .gateResult action _ => .executed action
  | .gateDetail .. | .settle .. => .closed
  | .finalClear | .close | .ended => .gone

/-- The journal holds a proposal whose life has not ended. -/
def Desk.isOpen : Desk → Bool
  | .before | .drafted _ | .closed | .gone => false
  | _ => true

section
variable [FloatRepr] [Hashlib]

/-- What the journal says of the one action proposed in it. -/
structure Ledger (journal : Journal) (action : SuggestedAction) (expires : ℚ) (status : Status) :
    Prop where
  only : ∀ e ∈ journal, e.kind = .proposed → e = ⟨action.id, .proposed action (some expires)⟩
  proposed : ⟨action.id, .proposed action (some expires)⟩ ∈ journal
  state : ∃ st, stateOf journal action.id = some st ∧ st.action = action ∧
    st.expiresAt = some expires ∧ st.status = status

/-- Every proposed action has come to its end. -/
def Settled (journal : Journal) : Prop :=
  ∀ id action expires, (⟨id, .proposed action expires⟩ : Event) ∈ journal →
    isTerminal journal action.id = true

def Unproposed (journal : Journal) : Prop := ∀ e ∈ journal, e.kind ≠ .proposed

def Hashed (action : SuggestedAction) : Prop := action.paramsHash = action.computeHash

/-- What the position of the desk says of the journal. -/
def Desk.Holds (journal : Journal) : Desk → Prop
  | .before => Unproposed journal
  | .drafted action => Hashed action ∧ Unproposed journal
  | .proposed action => Hashed action ∧ ∃ expires, Ledger journal action expires .proposed
  | .awaiting action | .lapsing action | .taking action | .denying action _ _
  | .approving action _ => Hashed action ∧ ∃ expires, Ledger journal action expires .posted
  | .approved action | .expiring action =>
    Hashed action ∧ ∃ expires, Ledger journal action expires .approved
  | .mismatched _ => False
  | .cleared action now => ∃ expires, Ledger journal action expires .approved ∧ now ≤ expires
  | .executing action now => ∃ expires, Ledger journal action expires .executing ∧ now ≤ expires
  | .executed action => ∃ expires, Ledger journal action expires .executing
  | .closed => Settled journal
  | .gone => True

/-- The moves of the desk in the state `live`, with the events they record. An open
desk is cut only for a reason. -/
inductive DeskStep (live : LiveRun) (why : Prop) : Desk → Desk → Journal → Prop where
  | stay (d) : DeskStep live why d d []
  | cut {d} : (d.isOpen = true → why) → DeskStep live why d .gone []
  | draft {action} : Hashed action → DeskStep live why .before (.drafted action) []
  | propose (action) (expires : ℚ) : DeskStep live why (.drafted action) (.proposed action)
      [⟨action.id, .proposed action (some expires)⟩]
  | post (action runId) : DeskStep live why (.proposed action) (.awaiting action)
      [postedEvent action runId]
  | lapse (action) : live.decision = none → DeskStep live why (.awaiting action) (.lapsing action) []
  | take (action) : live.decision ≠ none → DeskStep live why (.awaiting action) (.taking action) []
  | deny (action approver reason) : live.decision = some ⟨.denied, approver, reason⟩ →
      DeskStep live why (.taking action) (.denying action approver reason) []
  | approve (action approver reason) : live.decision = some ⟨.approved, approver, reason⟩ →
      DeskStep live why (.taking action) (.approving action approver) []
  | expired (action) : DeskStep live why (.lapsing action) .closed [expiredEvent action]
  | denied (action approver reason) : DeskStep live why (.denying action approver reason) .closed
      [⟨action.id, .denied approver reason⟩]
  | approved (action approver) : DeskStep live why (.approving action approver) (.approved action)
      [⟨action.id, .approved approver "dashboard"⟩]
  | refuse {action now result} :
      gateCheck (stateOf live.journal action.id) action now = .refuse result →
      DeskStep live why (.approved action) .closed []
  | late {action now} : gateCheck (stateOf live.journal action.id) action now = .expire →
      DeskStep live why (.approved action) (.expiring action) []
  | mismatch {action now} : gateCheck (stateOf live.journal action.id) action now = .mismatch →
      DeskStep live why (.approved action) (.mismatched action) []
  | clear {action now} : gateCheck (stateOf live.journal action.id) action now = .start →
      DeskStep live why (.approved action) (.cleared action now) []
  | lateExpired (action) : DeskStep live why (.expiring action) .closed [expiredEvent action]
  | mismatched (action) : DeskStep live why (.mismatched action) .closed [mismatchEvent action]
  | started (action now backend preview) : DeskStep live why (.cleared action now)
      (.executing action now) [startedEvent action backend preview]
  | execute (action now) : DeskStep live why (.executing action now) (.executed action) []
  | result (action outcome) : DeskStep live why (.executed action) .closed
      [resultEvent action outcome]

/-! ### The desk and the journal -/

omit [FloatRepr] [Hashlib] in
theorem Ledger.propose {journal : Journal} (fresh : Unproposed journal) (action : SuggestedAction)
    (expires : ℚ) :
    Ledger (journal ++ [⟨action.id, .proposed action (some expires)⟩]) action expires .proposed where
  only e member proposed := by
    rcases List.mem_append.mp member with earlier | last
    · exact absurd proposed (fresh e earlier)
    · exact List.mem_singleton.mp last
  proposed := by simp
  state := ⟨_, by rw [stateOf_append_one, if_pos rfl]; rfl, rfl, rfl, rfl⟩

omit [FloatRepr] [Hashlib] in
/-- A legal event of the action moves its status. -/
theorem Ledger.append {journal : Journal} {action : SuggestedAction} {expires : ℚ} {status : Status}
    (ledger : Ledger journal action expires status) (body : EventBody) (other : body.kind ≠ .proposed)
    (taken : legal body.kind status = true) :
    Ledger (journal ++ [⟨action.id, body⟩]) action expires body.target where
  only e member proposed := by
    rcases List.mem_append.mp member with earlier | last
    · exact ledger.only e earlier proposed
    · rw [List.mem_singleton.mp last] at proposed
      exact absurd proposed other
  proposed := List.mem_append_left _ ledger.proposed
  state := by
    obtain ⟨st, current, own, expiry, rfl⟩ := ledger.state
    refine ⟨transition st body, ?_, ?_, ?_, ?_⟩
    · rw [stateOf_append_one, if_pos rfl, advance_of_ne other, current]
      rfl
    · rw [transition_action, own]
    · rw [transition_expiresAt, expiry]
    · rw [transition_status other, if_pos taken]

omit [FloatRepr] [Hashlib] in
theorem Ledger.settled {journal : Journal} {action : SuggestedAction} {expires : ℚ}
    {status : Status} (ledger : Ledger journal action expires status)
    (terminal : status.terminal = true) : Settled journal := by
  intro id proposed expiry member
  have same := ledger.only _ member rfl
  simp only [Event.mk.injEq, EventBody.proposed.injEq] at same
  obtain ⟨-, rfl, -⟩ := same
  obtain ⟨st, current, -, -, rfl⟩ := ledger.state
  simp [isTerminal, current, terminal]

omit [FloatRepr] [Hashlib] in
theorem Ledger.settle {journal : Journal} {action : SuggestedAction} {expires : ℚ}
    {status : Status} (ledger : Ledger journal action expires status) (body : EventBody)
    (other : body.kind ≠ .proposed) (taken : legal body.kind status = true)
    (terminal : body.target.terminal = true) : Settled (journal ++ [⟨action.id, body⟩]) :=
  (ledger.append body other taken).settled terminal

/-- What the gate decides on an approved action whose content is unchanged. -/
theorem Ledger.gateCheck {journal : Journal} {action : SuggestedAction} {expires : ℚ}
    (ledger : Ledger journal action expires .approved) (hashed : Hashed action) (now : ℚ) :
    Actions.gateCheck (stateOf journal action.id) action now =
      if expires < now then .expire else .start := by
  obtain ⟨st, current, own, expiry, approved⟩ := ledger.state
  have binding : approvedHash st = action.computeHash := by
    rw [approvedHash_of_hashed st (by rw [own]; exact hashed), own]
  simp [Actions.gateCheck, current, approved, pastExpiry, expiry, binding]

/-- The position of the desk goes on saying what the journal says. -/
theorem DeskStep.holds {live : LiveRun} {why : Prop} {events : Journal} {d d' : Desk}
    (step : DeskStep live why d d' events) (holds : d.Holds live.journal) :
    d'.Holds (live.journal ++ events) := by
  cases step with
  | stay => simpa using holds
  | cut => trivial
  | draft hashed => simpa [Desk.Holds] using ⟨hashed, holds⟩
  | propose action expires => exact ⟨holds.1, expires, .propose holds.2 action expires⟩
  | post action runId =>
    obtain ⟨hashed, expires, ledger⟩ := holds
    exact ⟨hashed, expires, ledger.append (.posted "dashboard" runId) (by simp [EventBody.kind]) rfl⟩
  | lapse => simpa [Desk.Holds] using holds
  | take => simpa [Desk.Holds] using holds
  | deny => simpa [Desk.Holds] using holds
  | approve => simpa [Desk.Holds] using holds
  | expired action =>
    obtain ⟨-, expires, ledger⟩ := holds
    exact ledger.settle .expired (by decide) rfl rfl
  | denied action approver reason =>
    obtain ⟨-, expires, ledger⟩ := holds
    exact ledger.settle (.denied approver reason) (by simp [EventBody.kind]) rfl rfl
  | approved action approver =>
    obtain ⟨hashed, expires, ledger⟩ := holds
    exact ⟨hashed, expires, ledger.append (.approved approver "dashboard") (by simp [EventBody.kind]) rfl⟩
  | refuse refused =>
    obtain ⟨hashed, expires, ledger⟩ := holds
    rw [ledger.gateCheck hashed] at refused
    split at refused <;> cases refused
  | late => simpa [Desk.Holds] using holds
  | mismatch mismatched =>
    obtain ⟨hashed, expires, ledger⟩ := holds
    rw [ledger.gateCheck hashed] at mismatched
    split at mismatched <;> cases mismatched
  | clear start =>
    obtain ⟨hashed, expires, ledger⟩ := holds
    rw [ledger.gateCheck hashed] at start
    split at start
    · cases start
    · rename_i inTime
      rw [List.append_nil]
      exact ⟨expires, ledger, Rat.not_lt.mp inTime⟩
  | lateExpired action =>
    obtain ⟨-, expires, ledger⟩ := holds
    exact ledger.settle .expired (by decide) rfl rfl
  | mismatched => exact holds.elim
  | started action now backend preview =>
    obtain ⟨expires, ledger, inTime⟩ := holds
    exact ⟨expires, ledger.append (.executeStarted backend preview) (by simp [EventBody.kind]) rfl, inTime⟩
  | execute =>
    obtain ⟨expires, ledger, -⟩ := holds
    rw [List.append_nil]
    exact ⟨expires, ledger⟩
  | result action outcome =>
    obtain ⟨expires, ledger⟩ := holds
    refine ledger.settle (.executeResult outcome.record) (by simp [EventBody.kind]) rfl ?_
    simp only [EventBody.target]
    split <;> rfl

/-! ### The run thread moves the desk -/

/-- The step tests for an abort at the desk. -/
def Pc.checksAbort : Pc → Bool
  | .task (.decisionAbort _) => true
  | _ => false

def failureOf {α : Type} : Py α → Option Exn
  | .ok _ => none
  | .error e => some e

section Cuts
variable (config : Config) (live : LiveRun) (n : ℕ)

omit [FloatRepr] [Hashlib] in
/-- The exception that the dependency call of a step raises, at an open desk. -/
def Pc.failure : Pc → Option Exn
  | .task (.deadline _) | .task (.ttl _ _) | .task (.gateNow _) | .announce _ | .post _ | .expire _
  | .deny _ _ _ | .approve _ _ | .gateExpire _ | .gateMismatch _ | .gateStart _ _ _
  | .gateResult _ _ => failureOf (config.deps.clock n)
  | .task (.renderDetail action) | .gateRender action _ =>
    failureOf ((config.deps.executor n).render action)
  | .gateExecute action _ => failureOf ((config.deps.executor n).execute action)
  | _ => none

/-- Why a step cuts an open desk: the dependency raises, the abort is seen, or the
decision that was tested is gone. -/
def Pc.Interrupted (pc pc' : Pc) : Prop :=
  (∃ e, pc.failure config n = some e ∧ (e.base = true → pc' = .finalClear)) ∨
  (∃ action, pc = .task (.decisionAbort action) ∧ live.abort = true) ∨
  (∃ action, pc = .decisionRead action ∧ live.decision = none)

/-- What a step does to the journal and the desk. -/
def Moves (pc : Pc) (next : LiveRun × Pc) : Prop :=
  ∃ events, next.1.journal = live.journal ++ events ∧
    DeskStep live (pc.Interrupted config live n next.2) pc.desk next.2.desk events

end Cuts

section Moves
variable {config : Config} {live : LiveRun} {n : ℕ}

omit [FloatRepr] [Hashlib] in
theorem attempt_go {α : Type} {result : Py α} {next : α → Turn} {frames : List Frame} {pc : Pc} :
    attempt result next = .go frames pc ↔ ∃ a, result = .ok a ∧ next a = .go frames pc := by
  cases result <;> simp [attempt]

omit [FloatRepr] [Hashlib] in
theorem goto_go {pc pc' : Pc} {frames : List Frame} :
    Turn.goto pc = .go frames pc' ↔ frames = [] ∧ pc' = pc := by
  simp [Turn.goto, eq_comm]

/-- The elected action carries the hash of its own content. -/
theorem proposal_hashed {result : RcaResult} {action : SuggestedAction}
    (proposed : proposal config result n = .ok (some action)) : Hashed action := by
  simp only [proposal, bind_ok_iff, pure, Except.pure, Except.ok.injEq] at proposed
  obtain ⟨fault, -, cited, -, actions, suggested, elected⟩ := proposed
  exact suggestActions_hashed suggested action (mem_of_electPrimary elected).1

omit [FloatRepr] [Hashlib] in
theorem Return.pc_desk (back : Return) : back.pc.desk = .before := by
  cases back <;> rfl

theorem labFailed_desk {back : Return} {e : Exn} {frames : List Frame} {pc : Pc} {why : Prop}
    (turned : labFailed back e = .go frames pc) : DeskStep live why .before pc.desk [] := by
  unfold labFailed at turned
  split at turned
  · cases turned
  · obtain ⟨-, rfl⟩ := goto_go.mp turned
    rw [back.pc_desk]
    exact .stay _

omit [FloatRepr] [Hashlib] in
theorem recoveryLoop_desk (poll : ℕ) (before : Json) (recovered : Bool) :
    (recoveryLoop poll before recovered).desk = .closed := by
  unfold recoveryLoop
  split <;> rfl

/-- A task leaves the desk as it is, but for drafting the action. -/
theorem Task.turn_desk {t : Task} {frames : List Frame} {pc : Pc} {why : Prop}
    (turned : t.turn config live n = .go frames pc) : DeskStep live why t.desk pc.desk [] := by
  cases t with
  | suggest result =>
    simp only [Task.turn, attempt_go] at turned
    obtain ⟨primary, proposed, turned⟩ := turned
    cases primary with
    | none => cases turned
    | some action =>
      obtain ⟨-, rfl⟩ := goto_go.mp turned
      exact .draft (proposal_hashed proposed)
  | labServices back =>
    simp only [Task.turn] at turned
    split at turned
    · obtain ⟨-, rfl⟩ := goto_go.mp turned
      exact .stay _
    · exact labFailed_desk turned
  | labIngestAge back services =>
    simp only [Task.turn] at turned
    split at turned
    · cases turned
      rw [back.pc_desk]
      exact .stay _
    · exact labFailed_desk turned
  | recoveryHealth poll before =>
    simp only [Task.turn, attempt_go] at turned
    obtain ⟨value, -, recovered, -, turned⟩ := turned
    cases turned
    rw [recoveryLoop_desk]
    exact .stay _
  | _ =>
    simp only [Task.turn, attempt, Turn.goto] at turned
    repeat' split at turned
    all_goals first | contradiction | (cases turned; exact .stay _)

/-- At an open desk a task raises what its dependency call raises. -/
theorem Task.turn_raise {t : Task} {e : Exn} (opened : t.desk.isOpen = true)
    (turned : t.turn config live n = .raise e) : (Pc.task t).failure config n = some e := by
  cases t with
  | deadline action | ttl action due | renderDetail action | gateNow action =>
    simp only [Task.turn, attempt, Turn.goto] at turned
    simp only [Pc.failure, failureOf]
    repeat' split at turned
    all_goals simp_all
  | awaiting action due | decisionAbort action =>
    simp only [Task.turn, Turn.goto] at turned
    split at turned <;> cases turned
  | _ => contradiction

theorem Task.turn_aborted {t : Task} (opened : t.desk.isOpen = true)
    (turned : t.turn config live n = .aborted) :
    ∃ action, t = .decisionAbort action ∧ live.abort = true := by
  cases t with
  | decisionAbort action =>
    simp only [Task.turn, Turn.goto] at turned
    split at turned
    · exact ⟨action, rfl, ‹_›⟩
    · cases turned
  | deadline action | ttl action due | renderDetail action | gateNow action | awaiting action due =>
    simp only [Task.turn, attempt, Turn.goto] at turned
    repeat' split at turned
    all_goals cases turned
  | _ => contradiction

omit [FloatRepr] [Hashlib] in
theorem fail_desk (live : LiveRun) (e : Exn) : (live.fail e).2.desk = .gone := by
  unfold LiveRun.fail
  split <;> rfl

omit [FloatRepr] [Hashlib] in
theorem fail_base (live : LiveRun) {e : Exn} (base : e.base = true) :
    (live.fail e).2 = .finalClear := by
  simp [LiveRun.fail, base]

omit [FloatRepr] [Hashlib] in
theorem fail_journal (live : LiveRun) (e : Exn) : (live.fail e).1.journal = live.journal := by
  unfold LiveRun.fail
  split <;> rfl

theorem moves_fail {pc : Pc} {live' : LiveRun} {e : Exn} (same : live'.journal = live.journal)
    (why : pc.desk.isOpen = true → pc.failure config n = some e) :
    Moves config live n pc (live'.fail e) := by
  refine ⟨[], by rw [fail_journal, same, List.append_nil], ?_⟩
  rw [fail_desk]
  exact .cut fun opened => .inl ⟨e, why opened, fail_base live'⟩

theorem moves_attempt {α : Type} {pc : Pc} {live' : LiveRun} {result : Py α}
    {next : α → LiveRun × Pc} (same : live'.journal = live.journal)
    (why : pc.desk.isOpen = true → pc.failure config n = failureOf result)
    (returned : ∀ a, Moves config live n pc (next a)) :
    Moves config live n pc (live'.attempt result next) := by
  cases result with
  | ok a => exact returned a
  | error e => exact moves_fail same why

/-- A step that records nothing and leaves the desk as it is. -/
theorem moves_stay {pc : Pc} {next : LiveRun × Pc} (same : next.1.journal = live.journal)
    (desk : next.2.desk = pc.desk) : Moves config live n pc next :=
  ⟨[], by rw [same, List.append_nil], by rw [desk]; exact .stay _⟩

theorem Entry.body_desk (entry : Entry) (scenario : Scenario) {why : Prop} :
    DeskStep live why entry.desk (entry.body scenario).2.desk [] := by
  cases entry with
  | recovering before recovered =>
    simp only [Entry.body, recoveryLoop_desk]
    exact .stay _
  | done => exact .cut fun opened => absurd opened (by simp [Entry.desk, Desk.isOpen])
  | _ => exact .stay _

variable (config live n) in
/-- Each step of the run thread is a move of the desk. -/
theorem Pc.next_desk (pc : Pc) : Moves config live n pc (pc.next config live n) := by
  cases pc with
  | task t =>
    simp only [Pc.next]
    cases turned : t.turn config live n with
    | go frames pc =>
      exact ⟨[], by simp [LiveRun.follow, LiveRun.emit, LiveRun.noted], t.turn_desk turned⟩
    | raise e => exact moves_fail rfl fun opened => t.turn_raise opened turned
    | aborted =>
      refine ⟨[], by simp [LiveRun.follow], .cut fun opened => .inr (.inl ?_)⟩
      obtain ⟨action, rfl, aborted⟩ := t.turn_aborted opened turned
      exact ⟨action, rfl, aborted⟩
  | enter entry => exact moves_stay rfl rfl
  | announce entry =>
    simp only [Pc.next]
    split
    · exact ⟨[], by simp [LiveRun.emit, LiveRun.noted], entry.body_desk _⟩
    · rename_i e failed
      split
      · exact ⟨[], by simp, .stay _⟩
      · exact ⟨[], by simp, .stay _⟩
      · exact moves_fail rfl fun _ => by simp [Pc.failure, failureOf, failed]
  | sweep => exact moves_attempt rfl (by simp [Pc.desk, Desk.isOpen]) fun _ => moves_stay rfl rfl
  | inject => exact moves_attempt rfl (by simp [Pc.desk, Desk.isOpen]) fun _ => moves_stay rfl rfl
  | propose action expires =>
    exact moves_attempt rfl (by simp [Pc.desk, Desk.isOpen]) fun _ =>
      ⟨_, rfl, .propose action expires⟩
  | post action =>
    exact moves_attempt rfl (fun _ => rfl) fun _ => ⟨_, rfl, .post action config.runId⟩
  | decisionNone action =>
    simp only [Pc.next]
    split
    · rename_i undecided
      exact ⟨[], by simp [LiveRun.noted], .lapse action undecided⟩
    · rename_i decided
      exact ⟨[], by simp, .take action (by simp [decided])⟩
  | decisionRead action =>
    simp only [Pc.next]
    split
    · rename_i undecided
      refine ⟨[], by simp [fail_journal], ?_⟩
      rw [fail_desk]
      exact .cut fun _ => .inr (.inr ⟨action, rfl, undecided⟩)
    · rename_i decision decided
      obtain ⟨verb, approver, reason⟩ := decision
      cases verb with
      | denied => exact ⟨[], by simp, .deny action approver reason decided⟩
      | approved => exact ⟨[], by simp, .approve action approver reason decided⟩
  | expire action => exact moves_attempt rfl (fun _ => rfl) fun _ => ⟨_, rfl, .expired action⟩
  | deny action approver reason =>
    exact moves_attempt rfl (fun _ => rfl) fun _ => ⟨_, rfl, .denied action approver reason⟩
  | approve action approver =>
    exact moves_attempt rfl (fun _ => rfl) fun _ => ⟨_, rfl, .approved action approver⟩
  | gateCheck action now =>
    simp only [Pc.next]
    split
    · rename_i refused
      exact ⟨[], by simp, .refuse refused⟩
    · rename_i late
      exact ⟨[], by simp, .late late⟩
    · rename_i mismatch
      exact ⟨[], by simp, .mismatch mismatch⟩
    · rename_i start
      exact ⟨[], by simp, .clear start⟩
  | gateExpire action =>
    exact moves_attempt rfl (fun _ => rfl) fun _ => ⟨_, rfl, .lateExpired action⟩
  | gateMismatch action =>
    exact moves_attempt rfl (fun _ => rfl) fun _ => ⟨_, rfl, .mismatched action⟩
  | gateRender action now => exact moves_attempt rfl (fun _ => rfl) fun _ => moves_stay rfl rfl
  | gateStart action now preview =>
    exact moves_attempt rfl (fun _ => rfl) fun _ => ⟨_, rfl, .started action now _ preview⟩
  | gateExecute action now =>
    exact moves_attempt rfl (fun _ => rfl) fun _ =>
      ⟨[], by simp [LiveRun.noted], .execute action now⟩
  | gateResult action outcome =>
    exact moves_attempt rfl (fun _ => rfl) fun _ => ⟨_, rfl, .result action outcome⟩
  | gateDetail action outcome =>
    exact moves_attempt rfl (by simp [Pc.desk, Desk.isOpen]) fun _ => moves_stay rfl rfl
  | settle action result =>
    exact moves_attempt rfl (by simp [Pc.desk, Desk.isOpen]) fun _ => moves_stay rfl rfl
  | finalClear =>
    simp only [Pc.next]
    split
    · exact moves_stay rfl rfl
    · exact moves_stay rfl (by split <;> rfl)
  | close => exact moves_stay rfl rfl
  | ended => exact moves_stay rfl rfl

end Moves

end

end Sentinel.LiveLab
