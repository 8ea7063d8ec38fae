import Sentinel.Actions.History
import Sentinel.Actions.Terminal

/-! The considered-versus-executed report. Its verdict compares two sets of ids
and does not look at the order of the events or at what the fold ignored. It can be
trusted on the streams whose first approval of each executed action is in order. -/
namespace Sentinel.Actions
open Python

structure NearMiss where
  actionId : String
  attempted : String
  «by» : String
  why : String

structure Report where
  considered : ℕ
  approved : ℕ
  executed : ℕ
  nearMissCount : ℕ
  byStatus : Dict String ℕ
  unapprovedExecutions : List String
  safe : Bool
  nearMisses : List NearMiss

def Event.nearMiss? (e : Event) : Option NearMiss :=
  match e.body with
  | .nearMiss attempted «by» why => some ⟨e.actionId, attempted, «by», why⟩
  | _ => none

def countByStatus (states : List ApprovalState) : Dict String ℕ :=
  states.foldl (fun counts st =>
    counts.set st.status.text ((counts.get? st.status.text).getD 0 + 1)) Dict.empty

def buildReport (journal : Journal) : Report :=
  let states := (fold journal).values
  let nearMisses := journal.filterMap Event.nearMiss?
  let approvedIds := idsOf journal .approved
  let unapprovedExec := (idsOf journal .executeResult).filter fun id => id ∉ approvedIds
  { considered := states.length
    approved := states.countP fun st => st.status ∈ [.approved, .executing, .done, .failed]
    executed := states.countP fun st => st.status ∈ [.done, .failed]
    nearMissCount := nearMisses.length
    byStatus := countByStatus states
    unapprovedExecutions := unapprovedExec
    safe := unapprovedExec.length = 0
    nearMisses }

/-- Every execution follows an approval of its action that the fold accepted. -/
def Sound (journal : Journal) : Prop :=
  ∀ before e after, journal = before ++ e :: after → e.kind = .executeResult →
    Accepted before e.actionId .approved

/-- Before the first result of `id`, an approval of it arrives while the action
is proposed or posted. -/
def Vetted (journal : Journal) (id : String) : Prop :=
  ∃ before approval rest, journal = before ++ approval :: rest ∧
    approval.actionId = id ∧ approval.kind = .approved ∧
    (statusOf before id = some .proposed ∨ statusOf before id = some .posted) ∧
    ∀ e ∈ before, e.actionId = id → e.kind ≠ .executeResult

theorem safe_iff {journal : Journal} : (buildReport journal).safe = true ↔
    ∀ e ∈ journal, e.kind = .executeResult →
      ∃ a ∈ journal, a.kind = .approved ∧ a.actionId = e.actionId := by
  simp only [buildReport, decide_eq_true_eq, List.length_eq_zero_iff, List.filter_eq_nil_iff,
    not_not, mem_idsOf]
  constructor
  · exact fun safe e member result => safe e.actionId ⟨e, member, result, rfl⟩
  · rintro safe _ ⟨e, member, result, rfl⟩
    exact safe e member result

theorem accepts_approved_iff {journal : Journal} {e : Event} (kind : e.kind = .approved) :
    accepts journal e = true ↔
      statusOf journal e.actionId = some .proposed ∨ statusOf journal e.actionId = some .posted := by
  unfold accepts
  rcases statusOf journal e.actionId with _ | s
  · simp [kind]
  · cases s <;> simp [kind, legal]

theorem sound_of_vetted {journal : Journal}
    (vetted : ∀ e ∈ journal, e.kind = .executeResult → Vetted journal e.actionId) :
    Sound journal := by
  rintro before e after split result
  obtain ⟨earlier, approval, rest, again, own, approved, status, unexecuted⟩ :=
    vetted e (by simp [split]) result
  have shorter : earlier ++ [approval] <+: before := by
    have left : earlier ++ [approval] <+: journal := ⟨rest, by simp [again]⟩
    have right : before ++ [e] <+: journal := ⟨after, by simp [split]⟩
    have differ : earlier ++ [approval] ≠ before ++ [e] := by
      intro same
      have last := (List.append_inj' same rfl).2
      simp only [List.cons.injEq, and_true] at last
      rw [last, result] at approved
      contradiction
    rcases List.prefix_or_prefix_of_prefix left right with inside | inside
    · exact (List.prefix_concat_iff.mp inside).resolve_left differ
    · have member := (List.prefix_concat_iff.mp inside).resolve_left differ.symm
      exact absurd result (unexecuted e (member.subset (by simp)) rfl)
  obtain ⟨middle, rfl⟩ := shorter
  refine ⟨earlier, approval, middle, by simp, own, approved, ?_⟩
  rw [accepts_approved_iff approved, own]
  exact status

/-- The action was proposed, and not decided on since. -/
def Waits (journal : Journal) (id : String) : Prop :=
  ∃ before proposal after, journal = before ++ proposal :: after ∧ proposal.actionId = id ∧
    proposal.kind = .proposed ∧
    ∀ e ∈ after, e.actionId = id → e.kind ≠ .approved ∧ e.kind ≠ .denied ∧ e.kind ≠ .expired

theorem waiting_step {s : Status} {body : EventBody} (waiting : s = .proposed ∨ s = .posted)
    (undecided : body.kind ≠ .approved ∧ body.kind ≠ .denied ∧ body.kind ≠ .expired) :
    (if legal body.kind s then body.target else s) = .proposed ∨
      (if legal body.kind s then body.target else s) = .posted := by
  obtain ⟨unapproved, undenied, unexpired⟩ := undecided
  rcases waiting with rfl | rfl
  all_goals cases body
  all_goals first | contradiction | simp [legal, EventBody.kind, EventBody.target]

/-- An action that waits is proposed or posted. -/
theorem statusOf_waits {journal : Journal} {id : String} (waits : Waits journal id) :
    statusOf journal id = some .proposed ∨ statusOf journal id = some .posted := by
  obtain ⟨before, proposal, after, rfl, own, kind, undecided⟩ := waits
  induction after using List.reverseRecOn with
  | nil =>
    left
    rw [statusOf_append_one, if_pos own.symm, if_pos kind]
  | append_singleton after e ih =>
    have status := ih fun x member => undecided x (List.mem_append_left _ member)
    rw [← List.cons_append, ← List.append_assoc, statusOf_append_one]
    by_cases other : id = e.actionId
    · rw [if_pos other]
      split
      · exact .inl rfl
      · obtain ⟨s, current, waiting⟩ : ∃ s, statusOf (before ++ proposal :: after) id = some s ∧
            (s = .proposed ∨ s = .posted) := by
          rcases status with now | now
          · exact ⟨_, now, .inl rfl⟩
          · exact ⟨_, now, .inr rfl⟩
        rw [current, Option.map_some, Option.some.injEq, Option.some.injEq]
        exact waiting_step waiting (undecided e (List.mem_append_right _ (List.mem_singleton_self e)) other.symm)
    · rw [if_neg other]
      exact status

/-- The first approval of each executed action finds the action waiting, with no result of
it before. -/
def ApprovedFirst (journal : Journal) : Prop :=
  ∀ before approval after, journal = before ++ approval :: after → approval.kind = .approved →
    (∀ e ∈ before, e.actionId = approval.actionId → e.kind ≠ .approved) →
    (∃ e ∈ journal, e.actionId = approval.actionId ∧ e.kind = .executeResult) →
      Waits before approval.actionId ∧
        ∀ e ∈ before, e.actionId = approval.actionId → e.kind ≠ .executeResult

/-- Where approvals are in order, what the report finds safe is sound. -/
theorem safe_sound {journal : Journal} (ordered : ApprovedFirst journal)
    (safe : (buildReport journal).safe = true) : Sound journal := by
  refine sound_of_vetted fun e member result => ?_
  obtain ⟨a, present, kind, own⟩ := safe_iff.mp safe e member result
  have approved : (journal.find? fun x => x.actionId = e.actionId ∧ x.kind = .approved).isSome := by
    simp only [List.find?_isSome, decide_eq_true_eq]
    exact ⟨a, present, own, kind⟩
  obtain ⟨first, found⟩ := Option.isSome_iff_exists.mp approved
  obtain ⟨own, before, after, split, none_before⟩ := List.find?_eq_some_iff_append.mp found
  obtain ⟨own, kind⟩ : first.actionId = e.actionId ∧ first.kind = .approved := by simpa using own
  have earliest : ∀ x ∈ before, x.actionId = first.actionId → x.kind ≠ .approved := by
    intro x inside same kind
    have other := none_before x inside
    simp [same, own, kind] at other
  obtain ⟨waits, unexecuted⟩ := ordered before first after split kind earliest
    ⟨e, member, own.symm, result⟩
  rw [own] at waits unexecuted
  exact ⟨before, first, after, split, own, kind, statusOf_waits waits, unexecuted⟩

/-- A proposal, its approval and its execution. -/
def executedJournal : Journal :=
  [⟨"a1", .proposed (restartOrders "a1") none⟩, ⟨"a1", .approved "alice" "web"⟩,
    ⟨"a1", .executeStarted "dry_run" ""⟩, ⟨"a1", .executeResult ⟨true, .null, .null, 0, ""⟩⟩]

theorem executedJournal_sound : Sound executedJournal := by
  refine safe_sound ?_ (by decide)
  intro before approval after split kind _ _
  rcases before with _ | ⟨first, _ | ⟨second, _ | ⟨third, _ | ⟨fourth, later⟩⟩⟩⟩
  all_goals simp only [executedJournal, List.nil_append, List.cons_append, List.cons.injEq] at split
  · obtain ⟨rfl, -⟩ := split
    cases kind
  · obtain ⟨rfl, rfl, -⟩ := split
    refine ⟨⟨[], _, [], rfl, rfl, rfl, by simp⟩, ?_⟩
    intro e member _
    cases List.mem_singleton.mp member
    decide
  · obtain ⟨-, -, rfl, -⟩ := split
    cases kind
  · obtain ⟨-, -, -, rfl, -⟩ := split
    cases kind
  · obtain ⟨-, -, -, -, absent⟩ := split
    simp at absent

/-- An approval that arrives after the execution satisfies the report. -/
theorem safe_unsound : ¬ ∀ journal : Journal, (buildReport journal).safe = true → Sound journal := by
  intro honest
  have sound := honest
    [⟨"a1", .proposed (restartOrders "a1") none⟩, ⟨"a1", .executeStarted "dry_run" ""⟩,
      ⟨"a1", .executeResult ⟨true, .null, .null, 0, ""⟩⟩, ⟨"a1", .approved "mallory" "web"⟩] rfl
    [⟨"a1", .proposed (restartOrders "a1") none⟩, ⟨"a1", .executeStarted "dry_run" ""⟩]
    ⟨"a1", .executeResult ⟨true, .null, .null, 0, ""⟩⟩ [⟨"a1", .approved "mallory" "web"⟩] rfl rfl
  obtain ⟨before, e, after, split, -, approved, -⟩ := sound
  have member : e ∈ before ++ e :: after := by simp
  rw [← split] at member
  simp only [List.mem_cons, List.not_mem_nil, or_false] at member
  rcases member with rfl | rfl <;> contradiction

end Sentinel.Actions
