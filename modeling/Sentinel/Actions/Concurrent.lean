import Sentinel.Actions.Binding
import Sentinel.Actions.Dispatch
import Sentinel.Actions.GateProofs
import Sentinel.Actions.History
import Sentinel.Transition.Threads

/-! Decisions and gate calls as threads over one journal. Each read of the folded
state and each append is one atomic action, so the approval that a call has read
may be used up before the call appends its own `execute_started`. -/
namespace Sentinel.Actions
open Python Transition

structure Shared where
  journal : Journal
  invocations : List Invocation

def Shared.append (s : Shared) (e : Event) : Shared := { s with journal := s.journal ++ [e] }

@[simp] theorem Shared.append_journal (s : Shared) (e : Event) :
    (s.append e).journal = s.journal ++ [e] := rfl

@[simp] theorem Shared.append_invocations (s : Shared) (e : Event) :
    (s.append e).invocations = s.invocations := rfl

/-- How far a call has come. `deciding` is `handle_decision` and `entered` is
`execute_approved` before its first action. -/
inductive Thread where
  | deciding (actionId decision approver surface : String) (executor : Executor)
  | approving (actionId approver surface : String) (action : SuggestedAction) (executor : Executor)
  | entered (action : SuggestedAction) (executor : Executor)
  | clocked (action : SuggestedAction) (executor : Executor) (now : ℚ)
  | expiring (action : SuggestedAction)
  | mismatching (action : SuggestedAction)
  | starting (action : SuggestedAction) (executor : Executor) (now : ℚ) (preview : String)
  | executing (action : SuggestedAction) (executor : Executor) (now : ℚ)
  | recording (action : SuggestedAction) (outcome : Outcome)
  | finished

/-- Passed the check of the gate for `id` and did not append its start yet. -/
def Thread.committed (id : String) : Thread → Bool
  | .starting action .. => action.id = id
  | _ => false

def Thread.executes (id : String) : Thread → Bool
  | .executing action .. => action.id = id
  | _ => false

/-- A call that did not take its first action yet. -/
def Thread.called : Thread → Bool
  | .deciding .. | .entered .. | .clocked .. => true
  | _ => false

section
variable [FloatRepr] [Hashlib]

/-- The next atomic action of a thread, at clock reading `now`. -/
def Thread.next (s : Shared) (now : ℚ) : Thread → Option (Shared × Thread)
  | .deciding actionId decision approver surface executor =>
    if decision = "deny" then some (s.append ⟨actionId, .denied approver ""⟩, .finished)
    else if decision ≠ "approve" then some (s, .finished)
    else
      match stateOf s.journal actionId with
      | none => some (s, .finished)
      | some st => some (s, .approving actionId approver surface st.action executor)
  | .approving actionId approver surface action executor =>
    some (s.append ⟨actionId, .approved approver surface⟩, .entered action executor)
  | .entered action executor => some (s, .clocked action executor now)
  | .clocked action executor called =>
    match gateCheck (stateOf s.journal action.id) action called with
    | .refuse _ => some (s, .finished)
    | .expire => some (s, .expiring action)
    | .mismatch => some (s, .mismatching action)
    | .start =>
      match executor.render action with
      | .error _ => some (s, .finished)
      | .ok preview => some (s, .starting action executor called preview)
  | .expiring action => some (s.append (expiredEvent action), .finished)
  | .mismatching action => some (s.append (mismatchEvent action), .finished)
  | .starting action executor called preview =>
    some (s.append (startedEvent action executor.backend preview),
      .executing action executor called)
  | .executing action executor called =>
    some ({ s with invocations := s.invocations ++ [⟨action, called, s.journal⟩] },
      match executor.execute action with
      | .error _ => .finished
      | .ok outcome => .recording action outcome)
  | .recording action outcome => some (s.append (resultEvent action outcome), .finished)
  | .finished => none

def Act (s : Shared) (t : Thread) (now : ℚ) (s' : Shared) (t' : Thread) : Prop :=
  t.next s now = some (s', t')

abbrev System := Threads Shared Thread

def startedCount (id : String) (s : Shared) : Nat := (idsOf s.journal .executeStarted).count id

def invocationCount (id : String) (s : Shared) : Nat :=
  s.invocations.countP fun i => i.action.id = id

/-- The thread, left alone, finishes in the shared state `final`. -/
def Alone (s : Shared) (t : Thread) (final : Shared) : Prop :=
  ∃ ls, Run (Threads.Step Act) ⟨s, [t]⟩ ls ⟨final, [.finished]⟩

theorem Alone.finished (s : Shared) : Alone s .finished s := ⟨[], .refl _⟩

theorem Alone.act {s s' final : Shared} {t t' : Thread} (now : ℚ)
    (acted : t.next s now = some (s', t')) (rest : Alone s' t' final) : Alone s t final := by
  obtain ⟨ls, run⟩ := rest
  exact ⟨(0, now) :: ls, .next (.act rfl acted) run⟩

/-- Without interference the actions of a call are those of the gate. -/
theorem alone_executeApproved (s : Shared) (action : SuggestedAction) (executor : Executor)
    (now : ℚ) : Alone s (.clocked action executor now)
      ⟨(executeApproved s.journal action executor now).journal,
        s.invocations ++ (executeApproved s.journal action executor now).invocation.toList⟩ := by
  cases checked : gateCheck (stateOf s.journal action.id) action now with
  | refuse result =>
    have read : (Thread.clocked action executor now).next s 0 = some (s, .finished) := by
      simp only [Thread.next, checked]
    simp only [executeApproved, checked, Option.toList_none, List.append_nil]
    exact .act 0 read (.finished s)
  | expire =>
    have read : (Thread.clocked action executor now).next s 0 = some (s, .expiring action) := by
      simp only [Thread.next, checked]
    simp only [executeApproved, checked, Option.toList_none, List.append_nil]
    exact .act 0 read (.act 0 rfl (.finished _))
  | mismatch =>
    have read : (Thread.clocked action executor now).next s 0 = some (s, .mismatching action) := by
      simp only [Thread.next, checked]
    simp only [executeApproved, checked, Option.toList_none, List.append_nil]
    exact .act 0 read (.act 0 rfl (.finished _))
  | start =>
    cases rendered : executor.render action with
    | error e =>
      have read : (Thread.clocked action executor now).next s 0 = some (s, .finished) := by
        simp only [Thread.next, checked, rendered]
      simp only [executeApproved, checked, rendered, Option.toList_none, List.append_nil]
      exact .act 0 read (.finished s)
    | ok preview =>
      have read : (Thread.clocked action executor now).next s 0 =
          some (s, .starting action executor now preview) := by
        simp only [Thread.next, checked, rendered]
      refine .act 0 read (.act 0 rfl ?_)
      cases executed : executor.execute action with
      | error e =>
        simp only [executeApproved, checked, rendered, executed]
        exact .act 0 (by simp only [Thread.next, executed]; rfl) (.finished _)
      | ok outcome =>
        simp only [executeApproved, checked, rendered, executed]
        exact .act 0 (by simp only [Thread.next, executed]; rfl) (.act 0 rfl (.finished _))

theorem alone_handleDecision (s : Shared) (actionId decision approver surface : String)
    (executor : Executor) (now : ℚ) :
    let run := handleDecision s.journal actionId decision approver surface executor now
    Alone s (.deciding actionId decision approver surface executor)
      ⟨run.journal, s.invocations ++ run.invocation.toList⟩ := by
  by_cases deny : decision = "deny"
  · have written : (Thread.deciding actionId decision approver surface executor).next s 0 =
        some (s.append ⟨actionId, .denied approver ""⟩, .finished) := by
      simp [Thread.next, deny]
    simpa [handleDecision, deny, Shared.append] using Alone.act 0 written (.finished _)
  · by_cases approve : decision = "approve"
    · subst approve
      cases known : stateOf s.journal actionId with
      | none =>
        have ignored : (Thread.deciding actionId "approve" approver surface executor).next s 0 =
            some (s, .finished) := by
          simp [Thread.next, known]
        simpa [handleDecision, known] using Alone.act 0 ignored (.finished s)
      | some st =>
        have read : (Thread.deciding actionId "approve" approver surface executor).next s 0 =
            some (s, .approving actionId approver surface st.action executor) := by
          simp [Thread.next, known]
        obtain ⟨journal, invocation⟩ := handleDecision_approve known approver surface executor now
        simp only [journal, invocation]
        exact .act 0 read (.act 0 rfl (.act now rfl (alone_executeApproved _ _ executor now)))
    · have ignored : (Thread.deciding actionId decision approver surface executor).next s 0 =
          some (s, .finished) := by
        simp [Thread.next, deny, approve]
      simpa [handleDecision, deny, approve] using Alone.act 0 ignored (.finished s)

/-- What one action does, seen from the approval of `id`. -/
inductive Progress (id : String) (s : Shared) (t : Thread) (s' : Shared) (t' : Thread) : Prop where
  /-- The gate lets the call through. -/
  | check : statusOf s.journal id = some .approved → s' = s → t.committed id = false →
      t'.committed id = true → t.executes id = false → t'.executes id = false →
      Progress id s t s' t'
  /-- The approval is consumed. -/
  | start (e : Event) : s' = s.append e → e.actionId = id → e.kind = .executeStarted →
      t.committed id = true → t'.committed id = false → t.executes id = false →
      t'.executes id = true → Progress id s t s' t'
  | invoke (i : Invocation) : s' = { s with invocations := s.invocations ++ [i] } →
      i.action.id = id → t.committed id = false → t'.committed id = false →
      t.executes id = true → t'.executes id = false → Progress id s t s' t'
  /-- Anything else: it may append, but neither a proposal nor a start of `id`. -/
  | other : (s'.journal = s.journal ∨ ∃ e, s'.journal = s.journal ++ [e] ∧ e.kind ≠ .proposed ∧
        (e.actionId = id → e.kind ≠ .executeStarted)) →
      invocationCount id s' = invocationCount id s →
      t.committed id = false → t'.committed id = false →
      t.executes id = false → t'.executes id = false → Progress id s t s' t'

theorem act_progress (id : String) {s s' : Shared} {t t' : Thread} {now : ℚ}
    (acted : Act s t now s' t') : Progress id s t s' t' := by
  have quiet : ∀ {e : Event}, e.kind ≠ .proposed → e.kind ≠ .executeStarted →
      ∃ x, s.journal ++ [e] = s.journal ++ [x] ∧ x.kind ≠ .proposed ∧
        (x.actionId = id → x.kind ≠ .executeStarted) :=
    fun {e} proposal start => ⟨e, rfl, proposal, fun _ => start⟩
  unfold Act at acted
  cases t with
  | deciding actionId decision approver surface executor =>
    simp only [Thread.next] at acted
    split at acted
    · cases acted
      exact .other (.inr (quiet (by rintro ⟨⟩) (by rintro ⟨⟩))) rfl rfl rfl rfl rfl
    · split at acted
      · cases acted
        exact .other (.inl rfl) rfl rfl rfl rfl rfl
      · split at acted <;> cases acted <;> exact .other (.inl rfl) rfl rfl rfl rfl rfl
  | approving actionId approver surface action executor =>
    cases acted
    exact .other (.inr (quiet (by rintro ⟨⟩) (by rintro ⟨⟩))) rfl rfl rfl rfl rfl
  | entered action executor =>
    cases acted
    exact .other (.inl rfl) rfl rfl rfl rfl rfl
  | clocked action executor called =>
    simp only [Thread.next] at acted
    split at acted
    · cases acted
      exact .other (.inl rfl) rfl rfl rfl rfl rfl
    · cases acted
      exact .other (.inl rfl) rfl rfl rfl rfl rfl
    · cases acted
      exact .other (.inl rfl) rfl rfl rfl rfl rfl
    · rename_i started
      split at acted
      · cases acted
        exact .other (.inl rfl) rfl rfl rfl rfl rfl
      · cases acted
        by_cases own : action.id = id
        · obtain ⟨st, current, admitted⟩ := gateCheck_start_iff.mp started
          refine .check ?_ rfl rfl (by simp [Thread.committed, own]) rfl rfl
          rw [statusOf, ← own, current, Option.map_some, admitted.approved]
        · exact .other (.inl rfl) rfl rfl (by simp [Thread.committed, own]) rfl rfl
  | expiring action =>
    cases acted
    exact .other (.inr (quiet (by rintro ⟨⟩) (by rintro ⟨⟩))) rfl rfl rfl rfl rfl
  | mismatching action =>
    cases acted
    exact .other (.inr (quiet (by rintro ⟨⟩) (by rintro ⟨⟩))) rfl rfl rfl rfl rfl
  | starting action executor called preview =>
    cases acted
    by_cases own : action.id = id
    · exact .start (startedEvent action executor.backend preview) rfl own rfl
        (by simp [Thread.committed, own]) rfl rfl (by simp [Thread.executes, own])
    · exact .other (.inr ⟨_, rfl, by rintro ⟨⟩, fun same => absurd same own⟩) rfl
        (by simp [Thread.committed, own]) rfl rfl (by simp [Thread.executes, own])
  | executing action executor called =>
    cases acted
    by_cases own : action.id = id
    · refine .invoke ⟨action, called, s.journal⟩ rfl own rfl ?_
        (by simp [Thread.executes, own]) ?_ <;> split <;> rfl
    · refine .other (.inl rfl) (by simp [invocationCount, own]) rfl ?_
        (by simp [Thread.executes, own]) ?_ <;> split <;> rfl
  | recording action outcome =>
    cases acted
    exact .other (.inr (quiet (by rintro ⟨⟩) (by rintro ⟨⟩))) rfl rfl rfl rfl rfl
  | finished => cases acted

end

/-- The approval of `id` was given; it may still be open or be used up. -/
def Given (id : String) (s : Shared) : Prop :=
  ∃ status, statusOf s.journal id = some status ∧ (status = .approved ∨ status.closed = true)

def Open (id : String) (s : Shared) : Prop := statusOf s.journal id = some .approved

theorem approved_target {body : EventBody} (other : body.kind ≠ .proposed)
    (taken : legal body.kind .approved = true) : body.target.closed = true := by
  cases body <;> first | rfl | contradiction

theorem Given.append {id : String} {s : Shared} {e : Event} (given : Given id s)
    (other : e.kind ≠ .proposed) :
    Given id (s.append e) ∧ (Open id (s.append e) → Open id s) := by
  obtain ⟨status, current, rfl | closed⟩ := given
  · refine ⟨?_, fun _ => current⟩
    simp only [Given, Shared.append_journal, statusOf_append_one, current, if_neg other,
      Option.map_some]
    split
    · split
      · exact ⟨_, rfl, .inr (approved_target other ‹_›)⟩
      · exact ⟨_, rfl, .inl rfl⟩
    · exact ⟨_, rfl, .inl rfl⟩
  · obtain ⟨status', current', closed'⟩ := statusOf_closed_step current closed fun _ => other
    refine ⟨⟨status', current', .inr closed'⟩, fun opened => ?_⟩
    rw [Open, Shared.append_journal, current'] at opened
    cases opened
    contradiction

theorem Given.start {id : String} {s : Shared} {e : Event} (given : Given id s)
    (own : e.actionId = id) (kind : e.kind = .executeStarted) : ¬ Open id (s.append e) := by
  have other : e.kind ≠ .proposed := by simp [kind]
  intro opened
  have before := (given.append other).2 opened
  rw [Open] at before
  have body : e.body.target = .executing := by
    obtain ⟨_, body⟩ := e
    cases body <;> first | rfl | contradiction
  simp [Open, statusOf_append_one, own, kind, before, legal, body] at opened

theorem startedCount_append (id : String) (s : Shared) (e : Event) :
    startedCount id (s.append e) =
      startedCount id s + if e.actionId = id ∧ e.kind = .executeStarted then 1 else 0 := by
  simp only [startedCount, Shared.append_journal, idsOf_append, List.count_append]
  by_cases kind : e.kind = .executeStarted <;> by_cases own : e.actionId = id <;>
    simp [idsOf, kind, own]

theorem startedCount_other {id : String} {s s' : Shared}
    (change : s'.journal = s.journal ∨ ∃ e, s'.journal = s.journal ++ [e] ∧ e.kind ≠ .proposed ∧
      (e.actionId = id → e.kind ≠ .executeStarted)) : startedCount id s' = startedCount id s := by
  rcases change with same | ⟨e, appended, -, other⟩
  · simp only [startedCount, same]
  · have counted := startedCount_append id s e
    rw [if_neg fun both => other both.1 both.2] at counted
    simpa only [startedCount, Shared.append_journal, appended, Nat.add_zero] using counted

section
variable [FloatRepr] [Hashlib]

theorem Given.act {id : String} {s s' : Shared} {t t' : Thread} {now : ℚ} (given : Given id s)
    (acted : Act s t now s' t') : Given id s' ∧ (Open id s' → Open id s) := by
  cases act_progress id acted with
  | check _ same =>
    subst same
    exact ⟨given, fun opened => opened⟩
  | start e same own kind => exact same ▸ given.append (by simp [kind])
  | invoke i same =>
    subst same
    exact ⟨given, fun opened => opened⟩
  | other change _ =>
    simp only [Given, Open]
    rcases change with same | ⟨e, appended, other, -⟩
    · rw [same]
      exact ⟨given, fun opened => opened⟩
    · rw [appended]
      exact given.append other

/-- The gate is a check-then-act protocol on the approval. -/
theorem act_checkThenAct {id : String} {s s' : Shared} {t t' : Thread} {now : ℚ}
    (given : Given id s) (acted : Act s t now s' t') :
    CheckThenAct (Open id) (Thread.committed id) (startedCount id) s t s' t' := by
  have reopens := (given.act acted).2
  cases act_progress id acted with
  | check opened same before after => exact .check opened before after (same ▸ rfl) reopens
  | start e same own kind before after =>
    refine .act before after ?_ (same ▸ given.start own kind)
    rw [same, startedCount_append, if_pos ⟨own, kind⟩]
  | invoke i same _ _ after => exact .other (by simp [after]) (same ▸ rfl) reopens
  | other change _ _ after => exact .other (by simp [after]) (startedCount_other change) reopens

/-- Every executor call follows a start of its own. -/
def Matched (id : String) (n : Nat) (s : System) : Prop :=
  n + invocationCount id s.shared + s.count (Thread.executes id) = startedCount id s.shared

theorem Matched.step {id : String} {n : Nat} {s s' : System} {l : Nat × ℚ}
    (matched : Matched id n s) (step : Threads.Step Act s l s') : Matched id n s' := by
  cases step with
  | @act i t now shared t' found acted =>
    have counted := Threads.count_set (Thread.executes id) t' found
    simp only [Matched, Threads.count] at matched ⊢
    cases act_progress id acted with
    | check _ same _ _ before after =>
      simp only [before, after] at counted
      subst same
      omega
    | start e same own kind _ _ before after =>
      simp only [before, after, if_true, Bool.false_eq_true, if_false] at counted
      rw [same, startedCount_append, if_pos ⟨own, kind⟩]
      simp only [invocationCount, Shared.append_invocations] at matched ⊢
      omega
    | invoke i same own _ _ before after =>
      simp only [before, after, if_true, Bool.false_eq_true, if_false] at counted
      subst same
      simp only [invocationCount, startedCount, List.countP_append, List.countP_singleton, own,
        decide_true, if_true] at matched ⊢
      omega
    | other change same _ _ before after =>
      simp only [before, after] at counted
      rw [startedCount_other change, same]
      omega

/-- As long as no read of the gate passes while another call stands between its
read and its start, an approval is used at most once. -/
theorem single_use (id : String) (journal : Journal) (calls : List Thread)
    (approved : statusOf journal id = some .approved) (called : ∀ t ∈ calls, t.called = true)
    (ls : List (Nat × ℚ)) (s : System)
    (run : Run (Guarded (CheckThenAct.Exclusive Act (Thread.committed id)) (Threads.Step Act))
      ⟨⟨journal, []⟩, calls⟩ ls s) :
    invocationCount id s.shared ≤ 1 ∧
      startedCount id s.shared ≤ startedCount id ⟨journal, []⟩ + 1 := by
  have idle : ∀ p : Thread → Bool, (∀ t, t.called = true → p t = false) →
      Threads.count p (⟨⟨journal, []⟩, calls⟩ : System) = 0 := by
    intro p fresh
    rw [Threads.count, List.countP_eq_zero]
    intro t member
    simp [fresh t (called t member)]
  have uncommitted := idle (Thread.committed id) fun t fresh => by
    cases t <;> first | rfl | contradiction
  have unexecuted := idle (Thread.executes id) fun t fresh => by
    cases t <;> first | rfl | contradiction
  have once : CheckThenAct.AtMostOne (Open id) (Thread.committed id) (startedCount id)
      (startedCount id ⟨journal, []⟩) s :=
    CheckThenAct.run_atMostOne (fun s t l s' t' given acted => act_checkThenAct given acted)
      (fun s t l s' t' given acted => (given.act acted).1) ⟨.approved, approved, .inl rfl⟩
      uncommitted run
  have matched : Matched id (startedCount id ⟨journal, []⟩) s := by
    apply run.unguarded.invariant (Matched id (startedCount id ⟨journal, []⟩))
      (fun s l s' matched step => matched.step step)
    simp [Matched, unexecuted, invocationCount]
  have upper := once.upper
  unfold Matched at matched
  exact ⟨by omega, by omega⟩

end

section Samples
attribute [local instance] fractionRepr pinnedHashlib

/-- Two triggers of one approval, before either took an action. -/
def doubleClick : System :=
  ⟨⟨approvedJournal (restartOrders "a1").withHash, []⟩,
    [.entered (restartOrders "a1").withHash (dryRunExecutor 0),
      .entered (restartOrders "a1").withHash (dryRunExecutor 0)]⟩

theorem single_use_doubleClick :
    ∃ s, Threads.schedule (CheckThenAct.exclusive (Thread.committed "a1")) Thread.next
        [(0, 0), (0, 0), (0, 0), (0, 0), (0, 0), (1, 0), (1, 0)] doubleClick = some s ∧
      invocationCount "a1" s.shared ≤ 1 ∧
      startedCount "a1" s.shared ≤ startedCount "a1" doubleClick.shared + 1 := by
  obtain ⟨s, scheduled⟩ : ∃ s, Threads.schedule (CheckThenAct.exclusive (Thread.committed "a1"))
      Thread.next [(0, 0), (0, 0), (0, 0), (0, 0), (0, 0), (1, 0), (1, 0)] doubleClick = some s :=
    ⟨_, rfl⟩
  exact ⟨s, scheduled, single_use "a1" _ doubleClick.threads rfl
    (by simp [doubleClick, Thread.called]) _ s
    (Threads.run_schedule _ CheckThenAct.exclusive_sound scheduled)⟩

/-- Both triggers read the approval before either consumes it. -/
theorem single_use_violated : ¬ ∀ (journal : Journal) (st : ApprovalState)
    (action : SuggestedAction) (calls : List Thread), stateOf journal action.id = some st →
      (∀ now, Admitted st action now) → (∀ t ∈ calls, t.called = true) →
      ∀ ls s, Run (Threads.Step Act) ⟨⟨journal, []⟩, calls⟩ ls s →
        invocationCount action.id s.shared ≤ 1 ∧ startedCount action.id s.shared ≤ 1 := by
  intro once
  obtain ⟨st, current, admitted⟩ := approvedJournal_admits "a1"
  have := once _ st (restartOrders "a1").withHash doubleClick.threads current admitted
    (by simp [doubleClick, Thread.called])
    [(0, 0), (0, 0), (1, 0), (1, 0), (0, 0), (0, 0), (1, 0), (1, 0)] _
    (Threads.run_schedule (fun _ _ => true) (fun _ _ _ => trivial) rfl).unguarded
  exact absurd this.1 (by decide)

end Samples

end Sentinel.Actions
