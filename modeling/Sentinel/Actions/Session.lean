import Sentinel.Actions.Binding
import Sentinel.Actions.Dispatch
import Sentinel.Actions.GateProofs
import Sentinel.Actions.History

/-! Sessions: any sequence of proposals, posts, decisions and direct gate calls,
one after another. As long as no id is proposed twice, every execution was
proposed with the same content, approved, not denied, in time, and the first. -/
namespace Sentinel.Actions
open Python

inductive Call where
  | propose (action : SuggestedAction) (expiresAt : Option ℚ)
  | post (actionId surface ref : String)
  | decide (actionId decision approver surface : String) (executor : Option Executor) (now : ℚ)
  | execute (action : SuggestedAction) (executor : Executor) (now : ℚ)

/-- The journal and the executor calls made so far. -/
structure World where
  journal : Journal
  executions : List Invocation := []

def Call.proposedId : Call → Option String
  | .propose action _ => some action.id
  | _ => none

section
variable [FloatRepr] [Hashlib]

def Call.run (w : World) : Call → World
  | .propose action expiresAt =>
    ⟨w.journal ++ [⟨action.id, .proposed action.withHash expiresAt⟩], w.executions⟩
  | .post actionId surface ref => ⟨w.journal ++ [⟨actionId, .posted surface ref⟩], w.executions⟩
  | .decide actionId decision approver surface executor now =>
    let run := handleDecision w.journal actionId decision approver surface executor now
    ⟨run.journal, w.executions ++ run.invocation.toList⟩
  | .execute action executor now =>
    let run := executeApproved w.journal action executor now
    ⟨run.journal, w.executions ++ run.invocation.toList⟩

def session (w : World) (calls : List Call) : World := calls.foldl Call.run w

/-- Every proposal carries the hash of its own content. -/
def Hashed (journal : Journal) : Prop :=
  ∀ e ∈ journal, ∀ action expiresAt, e.proposal? = some (action, expiresAt) →
    action.paramsHash = action.computeHash

/-- What must hold of one executor call, given the earlier ones. -/
structure Safe (earlier : List Invocation) (i : Invocation) : Prop where
  proposed : ∃ action expiresAt, proposalsOf i.journal i.action.id = [(action, expiresAt)] ∧
    SameContent action i.action ∧ ∀ t, expiresAt = some t → i.now ≤ t
  approved : Accepted i.journal i.action.id .approved
  undenied : ¬ Accepted i.journal i.action.id .denied
  unexpired : ¬ Accepted i.journal i.action.id .expired
  single : ∀ other ∈ earlier, other.action.id ≠ i.action.id

/-- What every call preserves: each execution was safe when it happened, and the
journal remembers it as started. -/
structure Kept (w : World) : Prop where
  hashed : Hashed w.journal
  started : ∀ i ∈ w.executions, Accepted w.journal i.action.id .executeStarted
  safe : ∀ earlier i later, w.executions = earlier ++ i :: later → Safe earlier i

theorem hashed_append {journal later : Journal} :
    Hashed (journal ++ later) ↔ Hashed journal ∧ Hashed later := by
  simp only [Hashed, List.mem_append, or_imp, forall_and]

theorem hashed_unproposed {later : Journal} (unproposed : ∀ e ∈ later, e.kind ≠ .proposed) :
    Hashed later := by
  intro e member action expiresAt proposal
  rw [proposal?_eq_none.mpr (unproposed e member)] at proposal
  contradiction

theorem Kept.append {w : World} (kept : Kept w) {later : Journal} (hashed : Hashed later) :
    Kept ⟨w.journal ++ later, w.executions⟩ :=
  ⟨hashed_append.mpr ⟨kept.hashed, hashed⟩, fun i member => (kept.started i member).append later,
    kept.safe⟩

theorem state_hashed {journal : Journal} {id : String} {st : ApprovalState}
    (hashed : Hashed journal) (current : stateOf journal id = some st) :
    st.action.paramsHash = st.action.computeHash := by
  have last := stateOf_proposal journal id
  rw [current] at last
  obtain ⟨e, member, proposal⟩ := List.mem_filterMap.mp (List.mem_of_getLast? last.symm)
  exact hashed e (List.mem_filter.mp member).1 _ _ proposal

theorem admitted_safe (collisionFree : CollisionFree) {w : World} (kept : Kept w)
    (unique : (idsOf w.journal .proposed).Nodup) {st : ApprovalState} {action : SuggestedAction}
    {now : ℚ} {backend preview : String} (current : stateOf w.journal action.id = some st)
    (admitted : Admitted st action now) :
    Safe w.executions ⟨action, now, w.journal ++ [startedEvent action backend preview]⟩ := by
  have approved : statusOf w.journal action.id = some .approved := by
    simp [statusOf, current, admitted.approved]
  have executing : statusOf (w.journal ++ [startedEvent action backend preview]) action.id =
      some .executing := statusOf_started approved
  have started : ∀ e ∈ [startedEvent action backend preview], e.kind ≠ .proposed := by
    simp [startedEvent, Event.kind, EventBody.kind]
  have once := proposed_once unique action.id
  have proposals : proposalsOf (w.journal ++ [startedEvent action backend preview]) action.id =
      [(st.action, st.expiresAt)] := by
    rw [proposalsOf_append, proposalsOf_unproposed started, List.append_nil]
    exact proposal_of_state current once
  have status_of : ∀ {kind},
      Accepted (w.journal ++ [startedEvent action backend preview]) action.id kind →
        reachable kind .executing = true := by
    intro kind accepted
    obtain ⟨s, status, reached⟩ := reachable_of_accepted accepted (by simp [proposals])
    rw [executing] at status
    cases status
    exact reached
  refine ⟨⟨st.action, st.expiresAt, proposals, ?_, admitted.unexpired⟩,
    accepted_approved executing rfl, fun denied => ?_, fun expired => ?_, fun other ran same => ?_⟩
  · apply computeHash_binds collisionFree
    rw [admitted.matching, approvedHash_of_hashed st (state_hashed kept.hashed current)]
  · exact absurd (status_of denied) (by decide)
  · exact absurd (status_of expired) (by decide)
  · obtain ⟨s, status, reached⟩ := reachable_of_accepted (kept.started other ran)
      (by rw [same]; exact once)
    rw [same, approved] at status
    cases status
    contradiction

theorem Kept.gate (collisionFree : CollisionFree) {w : World} (kept : Kept w)
    (unique : (idsOf w.journal .proposed).Nodup) (action : SuggestedAction) (executor : Executor)
    (now : ℚ) :
    Kept ⟨(executeApproved w.journal action executor now).journal,
      w.executions ++ (executeApproved w.journal action executor now).invocation.toList⟩ := by
  obtain ⟨later, journal, unproposed, called⟩ := executeApproved_appends w.journal action executor now
  have kept' := kept.append (hashed_unproposed unproposed)
  rw [journal]
  cases invoked : (executeApproved w.journal action executor now).invocation with
  | none => simpa using kept'
  | some i =>
    obtain ⟨st, preview, current, admitted, rfl⟩ := executeApproved_invocation invoked
    obtain ⟨rest, extends_⟩ := called _ invoked
    refine ⟨kept'.hashed, ?_, ?_⟩
    · intro other member
      rcases List.mem_append.mp member with earlier | new
      · exact kept'.started other earlier
      · obtain rfl : other = _ := by simpa using new
        have started : Accepted (w.journal ++ [startedEvent action executor.backend preview])
            action.id .executeStarted := by
          refine accepted_append_one.mpr (.inr ⟨rfl, rfl, ?_⟩)
          simp [accepts, startedEvent, statusOf, current, admitted.approved, Event.kind,
            EventBody.kind, legal]
        simp only at extends_ ⊢
        rw [← extends_]
        exact started.append rest
    · intro earlier other after split
      rcases append_one_split (by simpa using split) with ⟨-, rfl, rfl⟩ | ⟨middle, -, before⟩
      · exact admitted_safe collisionFree kept unique current admitted
      · exact kept.safe earlier other middle before

theorem session_cons (w : World) (call : Call) (calls : List Call) :
    session w (call :: calls) = session (call.run w) calls := rfl

/-- Only `propose` writes proposals. -/
theorem run_proposed (w : World) (call : Call) :
    idsOf (call.run w).journal .proposed =
      idsOf w.journal .proposed ++ call.proposedId.toList := by
  have gate : ∀ journal action executor now,
      idsOf (executeApproved journal action executor now).journal .proposed =
        idsOf journal .proposed := by
    intro journal action executor now
    obtain ⟨later, extended, unproposed, -⟩ := executeApproved_appends journal action executor now
    rw [extended, idsOf_append, idsOf_unproposed unproposed, List.append_nil]
  cases call with
  | propose action expiresAt =>
    simp [Call.run, Call.proposedId, idsOf, Event.kind, EventBody.kind]
  | post actionId surface ref =>
    simp [Call.run, Call.proposedId, idsOf, Event.kind, EventBody.kind]
  | execute action executor now => simp [Call.run, Call.proposedId, gate]
  | decide actionId decision approver surface executor now =>
    simp only [Call.run, Call.proposedId, Option.toList_none, List.append_nil]
    rcases handleDecision_cases w.journal actionId decision approver surface executor now with
      ⟨-, same | denied⟩ | ⟨st, -, same, -⟩
    · rw [same]
    · rw [denied]
      simp [idsOf, Event.kind, EventBody.kind]
    · rw [same, gate]
      simp [idsOf, Event.kind, EventBody.kind]

theorem Kept.run (collisionFree : CollisionFree) {w : World} (kept : Kept w) (call : Call)
    (unique : (idsOf w.journal .proposed).Nodup) : Kept (call.run w) := by
  cases call with
  | propose action expiresAt =>
    refine kept.append fun e member => ?_
    obtain rfl := List.mem_singleton.mp member
    rintro _ _ ⟨⟩
    rfl
  | post actionId surface ref => exact kept.append (hashed_unproposed (by simp [Event.kind, EventBody.kind]))
  | execute action executor now => exact kept.gate collisionFree unique action executor now
  | decide actionId decision approver surface executor now =>
    simp only [Call.run]
    rcases handleDecision_cases w.journal actionId decision approver surface executor now with
      ⟨none, same | denied⟩ | ⟨st, -, same, invoked⟩
    · simpa [none, same] using kept
    · simpa [none, denied] using kept.append (hashed_unproposed (by simp [Event.kind, EventBody.kind]))
    · rw [same, invoked]
      have approved : ∀ e ∈ [(⟨actionId, .approved approver surface⟩ : Event)],
          e.kind ≠ .proposed := by simp [Event.kind, EventBody.kind]
      refine (kept.append (hashed_unproposed approved)).gate collisionFree ?_ st.action _ now
      rwa [idsOf_append, idsOf_unproposed approved, List.append_nil]

theorem Kept.session (collisionFree : CollisionFree) {calls : List Call} : ∀ {w : World}, Kept w →
    (idsOf w.journal .proposed ++ calls.filterMap Call.proposedId).Nodup →
      Kept (session w calls) := by
  induction calls with
  | nil => exact fun kept _ => kept
  | cons call calls ih =>
    intro w kept unique
    rw [session_cons]
    refine ih (kept.run collisionFree call ?_) ?_
    · exact (List.nodup_append.mp unique).1
    · rw [run_proposed, List.append_assoc]
      cases proposal : call.proposedId <;> simpa [proposal] using unique

/-- Every executor call of a session was safe when it was made. -/
theorem session_safe (collisionFree : CollisionFree) (journal : Journal) (calls : List Call)
    (hashed : Hashed journal)
    (unique : (idsOf journal .proposed ++ calls.filterMap Call.proposedId).Nodup) :
    ∀ earlier i later, (session ⟨journal, []⟩ calls).executions = earlier ++ i :: later →
      Safe earlier i :=
  (Kept.session collisionFree ⟨hashed, by simp, by simp⟩ unique).safe

end

section Samples
attribute [local instance] fractionRepr pinnedHashlib

theorem session_safe_restart :
    Safe [] ⟨(restartOrders "a1").withHash, 5,
      [⟨"a1", .proposed (restartOrders "a1").withHash (some 10)⟩, ⟨"a1", .posted "slack" "dry-run"⟩,
        ⟨"a1", .approved "dana" "slack"⟩,
        ⟨"a1", .executeStarted "dry_run" "docker compose restart orders"⟩]⟩ :=
  session_safe pinnedHashlib_collisionFree []
    [.propose (restartOrders "a1") (some 10), .post "a1" "slack" "dry-run",
      .decide "a1" "approve" "dana" "slack" none 5]
    (by simp [Hashed]) (by decide) [] _ [] rfl

end Samples

end Sentinel.Actions
