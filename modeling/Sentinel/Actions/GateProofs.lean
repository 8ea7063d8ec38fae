import Sentinel.Actions.Gate
import Sentinel.Actions.Terminal

/-! What one call of the gate can do: which actions it admits, the executor call
it makes for them, and the events it appends. -/
namespace Sentinel.Actions
open Python

theorem statusOf_started {journal : Journal} {action : SuggestedAction} {backend preview : String}
    (current : statusOf journal action.id = some .approved) :
    statusOf (journal ++ [startedEvent action backend preview]) action.id = some .executing := by
  rw [statusOf_append_one]
  simp [startedEvent, Event.kind, EventBody.kind, EventBody.target, current, legal]

theorem statusOf_result {journal : Journal} {action : SuggestedAction} {outcome : Outcome}
    (current : statusOf journal action.id = some .executing) :
    statusOf (journal ++ [resultEvent action outcome]) action.id =
      some (if outcome.ok then .done else .failed) := by
  rw [statusOf_append_one]
  simp [resultEvent, Event.kind, EventBody.kind, EventBody.target, current, legal,
    Outcome.record]

theorem pastExpiry_false_iff {st : ApprovalState} {now : ℚ} :
    pastExpiry st now = false ↔ ∀ expiresAt, st.expiresAt = some expiresAt → now ≤ expiresAt := by
  unfold pastExpiry
  cases st.expiresAt with
  | none => simp
  | some expiresAt => simp only [decide_eq_false_iff_not, Rat.not_lt, Option.some.injEq, forall_eq']

section
variable [FloatRepr] [Hashlib]

/-- The gate lets `action` through at `now`. -/
structure Admitted (st : ApprovalState) (action : SuggestedAction) (now : ℚ) : Prop where
  approved : st.status = .approved
  unexpired : ∀ expiresAt, st.expiresAt = some expiresAt → now ≤ expiresAt
  matching : action.computeHash = approvedHash st

theorem gateCheck_start_iff {st : Option ApprovalState} {action : SuggestedAction} {now : ℚ} :
    gateCheck st action now = .start ↔ ∃ s, st = some s ∧ Admitted s action now := by
  cases st with
  | none => simp [gateCheck]
  | some s =>
    simp only [gateCheck, Option.some.injEq, exists_eq_left']
    constructor
    · intro started
      split_ifs at started with notApproved used expired mismatch
      exact ⟨not_not.mp notApproved, pastExpiry_false_iff.mp (by simpa using expired),
        not_not.mp mismatch⟩
    · rintro ⟨approved, unexpired, matching⟩
      simp [approved, pastExpiry_false_iff.mpr unexpired, matching]

theorem executeApproved_start {journal : Journal} {st : ApprovalState} {action : SuggestedAction}
    {executor : Executor} {now : ℚ} (current : stateOf journal action.id = some st)
    (admitted : Admitted st action now) :
    executeApproved journal action executor now =
      match executor.render action with
      | .error e => ⟨journal, none, .error e⟩
      | .ok preview =>
        match executor.execute action with
        | .error e =>
          ⟨journal ++ [startedEvent action executor.backend preview],
            some ⟨action, now, journal ++ [startedEvent action executor.backend preview]⟩, .error e⟩
        | .ok outcome =>
          ⟨journal ++ [startedEvent action executor.backend preview] ++ [resultEvent action outcome],
            some ⟨action, now, journal ++ [startedEvent action executor.backend preview]⟩,
            .ok ⟨outcome.ok, if outcome.ok then .done else .failed, preview⟩⟩ := by
  unfold executeApproved
  rw [gateCheck_start_iff.mpr ⟨st, current, admitted⟩]
  cases rendered : executor.render action <;> rfl

theorem approvedHash_of_hashed (st : ApprovalState)
    (hashed : st.action.paramsHash = st.action.computeHash) :
    approvedHash st = st.action.computeHash := by
  unfold approvedHash
  split
  · exact hashed
  · rfl

/-- The executor is called only for an admitted action, with its approval
already consumed. -/
theorem executeApproved_invocation {journal : Journal} {action : SuggestedAction}
    {executor : Executor} {now : ℚ} {invocation : Invocation}
    (called : (executeApproved journal action executor now).invocation = some invocation) :
    ∃ st preview, stateOf journal action.id = some st ∧ Admitted st action now ∧
      invocation = ⟨action, now, journal ++ [startedEvent action executor.backend preview]⟩ := by
  unfold executeApproved at called
  split at called <;> try contradiction
  rename_i started
  obtain ⟨st, current, admitted⟩ := gateCheck_start_iff.mp started
  split at called <;> try contradiction
  rename_i preview _
  refine ⟨st, preview, current, admitted, ?_⟩
  dsimp only at called
  split at called <;> exact (Option.some.inj called).symm

/-- The gate only appends, never a proposal, and the journal it leaves extends
the one the executor was called with. -/
theorem executeApproved_appends (journal : Journal) (action : SuggestedAction)
    (executor : Executor) (now : ℚ) :
    ∃ later, (executeApproved journal action executor now).journal = journal ++ later ∧
      (∀ e ∈ later, e.kind ≠ .proposed) ∧
      ∀ invocation, (executeApproved journal action executor now).invocation = some invocation →
        invocation.journal <+: journal ++ later := by
  unfold executeApproved
  split
  · exact ⟨[], by simp, by simp, by simp⟩
  · exact ⟨[expiredEvent action], rfl, by simp [expiredEvent, Event.kind, EventBody.kind], by simp⟩
  · exact ⟨[mismatchEvent action], rfl, by simp [mismatchEvent, Event.kind, EventBody.kind],
      by simp⟩
  · split
    · exact ⟨[], by simp, by simp, by simp⟩
    · rename_i preview _
      dsimp only
      split
      · refine ⟨[startedEvent action executor.backend preview], rfl,
          by simp [startedEvent, Event.kind, EventBody.kind], ?_⟩
        rintro invocation same
        cases same
        exact List.prefix_refl _
      · rename_i outcome _
        refine ⟨[startedEvent action executor.backend preview, resultEvent action outcome], by simp,
          by simp [startedEvent, resultEvent, Event.kind, EventBody.kind], ?_⟩
        rintro invocation same
        cases same
        exact ⟨[resultEvent action outcome], by simp⟩

end

/-- An action proposed with its hash and approved. -/
def approvedJournal (action : SuggestedAction) : Journal :=
  [⟨action.id, .proposed action none⟩, ⟨action.id, .approved "dana" "web"⟩]

theorem approvedJournal_admits [FloatRepr] [Hashlib] (id : String) :
    ∃ st, stateOf (approvedJournal (restartOrders id).withHash) id = some st ∧
      ∀ now, Admitted st (restartOrders id).withHash now := by
  refine ⟨⟨(restartOrders id).withHash, .approved, some "dana", some "web", none, none⟩, ?_, ?_⟩
  · simp [approvedJournal, stateOf, fold, applyEvent, restartOrders, transition,
      SuggestedAction.withHash]
  · exact fun now => ⟨rfl, by simp,
      (approvedHash_of_hashed ⟨(restartOrders id).withHash, _, _, _, _, _⟩ rfl).symm⟩

end Sentinel.Actions
