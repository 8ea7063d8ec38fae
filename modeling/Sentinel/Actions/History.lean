import Mathlib.Data.List.Nodup
import Sentinel.Actions.Lifecycle

/-! What the folded status of an action says about the events behind it. The
state is only ever refolded, so these facts are read off the event list: the
proposal it carries, and which events the fold must or cannot have accepted. -/
namespace Sentinel.Actions
open Python

/-- The ids of the events of one kind, in journal order. -/
def idsOf (journal : Journal) (kind : EventKind) : List String :=
  (journal.filter fun e => e.kind = kind).map Event.actionId

theorem mem_idsOf {journal : Journal} {kind : EventKind} {id : String} :
    id ∈ idsOf journal kind ↔ ∃ e ∈ journal, e.kind = kind ∧ e.actionId = id := by
  simp [idsOf, and_assoc]

def Event.proposal? (e : Event) : Option (SuggestedAction × Option ℚ) :=
  match e.body with
  | .proposed action expiresAt => some (action, expiresAt)
  | _ => none

/-- The proposals of an id, in journal order. -/
def proposalsOf (journal : Journal) (id : String) : List (SuggestedAction × Option ℚ) :=
  (journal.filter fun e => e.actionId = id).filterMap Event.proposal?

theorem proposal?_eq_none {e : Event} : e.proposal? = none ↔ e.kind ≠ .proposed := by
  obtain ⟨id, body⟩ := e
  cases body <;> simp [Event.proposal?, Event.kind, EventBody.kind]

theorem proposalsOf_append (journal later : Journal) (id : String) :
    proposalsOf (journal ++ later) id = proposalsOf journal id ++ proposalsOf later id := by
  simp [proposalsOf]

theorem proposalsOf_unproposed {later : Journal} (unproposed : ∀ e ∈ later, e.kind ≠ .proposed)
    (id : String) : proposalsOf later id = [] := by
  simp only [proposalsOf, List.filterMap_eq_nil_iff, List.mem_filter]
  exact fun e member => proposal?_eq_none.mpr (unproposed e member.1)

theorem idsOf_append (journal later : Journal) (kind : EventKind) :
    idsOf (journal ++ later) kind = idsOf journal kind ++ idsOf later kind := by
  simp [idsOf]

theorem idsOf_unproposed {later : Journal} (unproposed : ∀ e ∈ later, e.kind ≠ .proposed) :
    idsOf later .proposed = [] := by
  simpa [idsOf, List.filter_eq_nil_iff] using unproposed

theorem length_proposalsOf (journal : Journal) (id : String) :
    (proposalsOf journal id).length = (idsOf journal .proposed).count id := by
  induction journal with
  | nil => rfl
  | cons e journal ih =>
    simp only [proposalsOf, idsOf] at ih ⊢
    by_cases own : e.actionId = id
    · by_cases kind : e.kind = .proposed
      · obtain ⟨p, proposal⟩ := Option.ne_none_iff_exists'.mp
          (mt proposal?_eq_none.mp (not_not.mpr kind))
        simp [own, kind, proposal, ih]
      · simp [own, kind, proposal?_eq_none.mpr kind, ih]
    · by_cases kind : e.kind = .proposed <;> simp [own, kind, ih]

theorem proposed_once {journal : Journal} (unique : (idsOf journal .proposed).Nodup)
    (id : String) : (proposalsOf journal id).length ≤ 1 := by
  rw [length_proposalsOf]
  exact List.nodup_iff_count_le_one.mp unique id

/-- The state carries the last proposal of its id. -/
theorem stateOf_proposal (journal : Journal) (id : String) :
    (stateOf journal id).map (fun st => (st.action, st.expiresAt)) =
      (proposalsOf journal id).getLast? := by
  induction journal using List.reverseRecOn with
  | nil => rfl
  | append_singleton journal e ih =>
    rw [stateOf_append_one, proposalsOf_append]
    by_cases own : id = e.actionId
    · obtain ⟨actionId, body⟩ := e
      obtain rfl := own
      cases body <;>
        simp [proposalsOf, Event.proposal?, advance, Option.map_map, Function.comp_def] <;>
        simpa [proposalsOf] using ih
    · have other : e.actionId ≠ id := fun same => own same.symm
      simp only [own, if_false, proposalsOf, other, List.filter_cons, decide_false,
        List.filter_nil, List.filterMap_nil, List.append_nil, Bool.false_eq_true]
      exact ih

theorem proposal_of_state {journal : Journal} {id : String} {st : ApprovalState}
    (current : stateOf journal id = some st) (once : (proposalsOf journal id).length ≤ 1) :
    proposalsOf journal id = [(st.action, st.expiresAt)] := by
  have last := stateOf_proposal journal id
  rw [current] at last
  cases proposals : proposalsOf journal id with
  | nil => simp [proposals] at last
  | cons p rest =>
    cases rest with
    | nil => simpa [proposals] using last.symm
    | cons => simp [proposals] at once

theorem known_iff_proposed {journal : Journal} {id : String} :
    (∃ s, statusOf journal id = some s) ↔ proposalsOf journal id ≠ [] := by
  rw [← List.getLast?_isSome, ← stateOf_proposal, statusOf]
  cases stateOf journal id <;> simp

/-- The statuses an action can be in after an accepted event of kind `kind`, as
long as it is not proposed again. -/
def reachable : EventKind → Status → Bool
  | .denied, s => s = .denied
  | .expired, s => s = .expired
  | .executeStarted, s => s = .executing ∨ s = .done ∨ s = .failed
  | _, _ => true

theorem reachable_target (body : EventBody) : reachable body.kind body.target = true := by
  cases body with
  | executeResult result => rfl
  | _ => rfl

theorem reachable_step {kind : EventKind} {s : Status} {body : EventBody}
    (reached : reachable kind s = true) (taken : legal body.kind s = true)
    (other : body.kind ≠ .proposed) : reachable kind body.target = true := by
  cases kind <;> first | rfl | (cases s <;> cases body <;> simp_all [reachable, legal,
    EventBody.kind, EventBody.target])

theorem reachable_of_accepted {journal : Journal} {id : String} {kind : EventKind}
    (accepted : Accepted journal id kind) (once : (proposalsOf journal id).length ≤ 1) :
    ∃ s, statusOf journal id = some s ∧ reachable kind s = true := by
  induction journal using List.reverseRecOn with
  | nil =>
    obtain ⟨before, e, after, split, -⟩ := accepted
    simp at split
  | append_singleton journal e ih =>
    rw [proposalsOf_append, List.length_append] at once
    rw [statusOf_append_one]
    rcases accepted_append_one.mp accepted with earlier | ⟨rfl, rfl, taken⟩
    · obtain ⟨s, current, reached⟩ := ih earlier (by omega)
      by_cases own : id = e.actionId
      · have proposed : 0 < (proposalsOf journal id).length :=
          List.length_pos_iff.mpr (known_iff_proposed.mp ⟨s, current⟩)
        have other : e.kind ≠ .proposed := by
          intro again
          have : 0 < (proposalsOf [e] id).length := by
            rw [List.length_pos_iff, ← known_iff_proposed, own]
            exact ⟨.proposed, by simpa using statusOf_append_one [] e e.actionId |>.trans (by simp [again])⟩
          omega
        rw [if_pos own, if_neg other, current]
        simp only [Option.map_some, Option.some.injEq, exists_eq_left']
        split
        · exact reachable_step reached ‹_› other
        · exact reached
      · rw [if_neg own]
        exact ⟨s, current, reached⟩
    · rw [if_pos rfl]
      split
      · rename_i again
        exact ⟨_, rfl, by rw [again]; rfl⟩
      · rename_i other
        unfold accepts at taken
        cases current : statusOf journal e.actionId with
        | none => simp_all
        | some s =>
          simp only [current] at taken
          exact ⟨_, by simp [taken], reachable_target e.body⟩

/-- The statuses that only an approval leads to. -/
def Status.vetted : Status → Bool
  | .approved | .executing | .done | .failed => true
  | _ => false

theorem vetted_source {s : Status} {body : EventBody} (taken : legal body.kind s = true)
    (vetted : body.target.vetted = true) (other : body.kind ≠ .approved) : s.vetted = true := by
  cases s <;> cases body <;> simp_all [legal, EventBody.kind, EventBody.target, Status.vetted]

theorem accepted_approved {journal : Journal} {id : String} {s : Status}
    (current : statusOf journal id = some s) (vetted : s.vetted = true) :
    Accepted journal id .approved := by
  induction journal using List.reverseRecOn generalizing s with
  | nil => simp [statusOf] at current
  | append_singleton journal e ih =>
    rw [statusOf_append_one] at current
    split at current
    · rename_i own
      split at current
      · cases current
        contradiction
      · obtain ⟨s', before, rfl⟩ := Option.map_eq_some_iff.mp current
        split at vetted
        · rename_i taken
          by_cases approval : e.kind = .approved
          · refine accepted_append_one.mpr (.inr ⟨own.symm, approval, ?_⟩)
            simp only [accepts, ← own, before, taken]
          · exact (ih before (vetted_source taken vetted approval)).append _
        · exact (ih before vetted).append _
    · exact (ih current vetted).append _

end Sentinel.Actions
