import Mathlib.Data.List.Induction
import Sentinel.Actions.Journal

/-! The life of one action, as the fold sees it. `legal` and `target` are the
transition table; each event of an id moves it along that table or is ignored,
and events of other ids do not touch it. -/
namespace Sentinel.Actions
open Python

/-- The statuses in which an event is accepted. A proposal always is. -/
def legal : EventKind → Status → Bool
  | .proposed, _ => true
  | .posted, .proposed => true
  | .approved, .proposed | .approved, .posted => true
  | .denied, .proposed | .denied, .posted => true
  | .expired, .proposed | .expired, .posted | .expired, .approved => true
  | .executeStarted, .approved => true
  | .executeResult, .executing => true
  | _, _ => false

/-- The status an accepted event leads to. -/
def EventBody.target : EventBody → Status
  | .proposed .. => .proposed
  | .posted .. => .posted
  | .approved .. => .approved
  | .denied .. => .denied
  | .expired => .expired
  | .executeStarted .. => .executing
  | .executeResult result => if result.ok then .done else .failed
  | .nearMiss .. => .proposed

/-- The state of an action after one more event of its own. -/
def advance (st : Option ApprovalState) : EventBody → Option ApprovalState
  | .proposed action expiresAt => some { action, status := .proposed, expiresAt }
  | body => st.map (transition · body)

def statusOf (journal : Journal) (actionId : String) : Option Status :=
  (stateOf journal actionId).map ApprovalState.status

theorem transition_status {st : ApprovalState} {body : EventBody} (kind : body.kind ≠ .proposed) :
    (transition st body).status = if legal body.kind st.status then body.target else st.status := by
  obtain ⟨action, status, approver, surface, expiresAt, outcome⟩ := st
  cases body <;> cases status <;> first | rfl | exact absurd rfl kind

@[simp] theorem transition_action (st : ApprovalState) (body : EventBody) :
    (transition st body).action = st.action := by
  cases body <;> simp only [transition] <;> split <;> rfl

@[simp] theorem transition_expiresAt (st : ApprovalState) (body : EventBody) :
    (transition st body).expiresAt = st.expiresAt := by
  cases body <;> simp only [transition] <;> split <;> rfl

theorem advance_of_ne {st : Option ApprovalState} {body : EventBody}
    (kind : body.kind ≠ .proposed) : advance st body = st.map (transition · body) := by
  cases body <;> first | rfl | exact absurd rfl kind

theorem get?_applyEvent (states : States) (e : Event) (id : String) :
    (applyEvent states e).get? id =
      if id = e.actionId then advance (states.get? id) e.body else states.get? id := by
  obtain ⟨actionId, body⟩ := e
  by_cases own : id = actionId
  · subst id
    cases body with
    | proposed => simp [applyEvent, advance]
    | _ => cases found : states.get? actionId <;> simp [applyEvent, advance, found]
  · cases body with
    | proposed => simp [applyEvent, own]
    | _ => cases found : states.get? actionId <;> simp [applyEvent, found, own]

@[simp] theorem stateOf_nil (id : String) : stateOf [] id = none := rfl

theorem stateOf_append_one (journal : Journal) (e : Event) (id : String) :
    stateOf (journal ++ [e]) id =
      if id = e.actionId then advance (stateOf journal id) e.body else stateOf journal id := by
  simp only [stateOf, fold, List.foldl_append, List.foldl_cons, List.foldl_nil, get?_applyEvent]

theorem stateOf_append_other {journal : Journal} {e : Event} {id : String}
    (other : id ≠ e.actionId) : stateOf (journal ++ [e]) id = stateOf journal id := by
  rw [stateOf_append_one, if_neg other]

/-- One event moves an action along the table, restarts it, or is ignored. -/
theorem statusOf_append_one (journal : Journal) (e : Event) (id : String) :
    statusOf (journal ++ [e]) id =
      if id = e.actionId then
        if e.kind = .proposed then some .proposed
        else (statusOf journal id).map fun s => if legal e.kind s then e.body.target else s
      else statusOf journal id := by
  by_cases own : id = e.actionId
  · by_cases proposal : e.kind = .proposed
    · obtain ⟨actionId, body⟩ := e
      cases body <;> simp_all [statusOf, stateOf_append_one, Event.kind, EventBody.kind, advance]
    · rw [statusOf, stateOf_append_one, if_pos own, if_pos own, if_neg proposal,
        advance_of_ne proposal, statusOf]
      cases stateOf journal id with
      | none => rfl
      | some st => simp [transition_status proposal]
  · simp only [statusOf, stateOf_append_other own, if_neg own]

/-- The fold takes the event as a legal transition. -/
def accepts (journal : Journal) (e : Event) : Bool :=
  match statusOf journal e.actionId with
  | none => e.kind = .proposed
  | some s => legal e.kind s

/-- An event of kind `kind` for `id` was accepted somewhere in the journal. -/
def Accepted (journal : Journal) (id : String) (kind : EventKind) : Prop :=
  ∃ before e after, journal = before ++ e :: after ∧ e.actionId = id ∧ e.kind = kind ∧
    accepts before e = true

theorem append_one_split {α : Type} {list before after : List α} {a x : α}
    (same : list ++ [x] = before ++ a :: after) :
    (after = [] ∧ a = x ∧ before = list) ∨
      ∃ middle, after = middle ++ [x] ∧ list = before ++ a :: middle := by
  rcases List.eq_nil_or_concat after with rfl | ⟨middle, last, rfl⟩
  · have := List.append_inj' same rfl
    exact .inl ⟨rfl, by simpa using this.2.symm, this.1.symm⟩
  · rw [List.concat_eq_append] at same ⊢
    rw [← List.cons_append, ← List.append_assoc] at same
    have := List.append_inj' same rfl
    exact .inr ⟨middle, by simpa using this.2.symm, this.1⟩

theorem accepted_append_one {journal : Journal} {x : Event} {id : String} {kind : EventKind} :
    Accepted (journal ++ [x]) id kind ↔
      Accepted journal id kind ∨ (x.actionId = id ∧ x.kind = kind ∧ accepts journal x = true) := by
  constructor
  · rintro ⟨before, e, after, split, own, kinds, taken⟩
    rcases append_one_split split with ⟨-, rfl, rfl⟩ | ⟨middle, -, rest⟩
    · exact .inr ⟨own, kinds, taken⟩
    · exact .inl ⟨before, e, middle, rest, own, kinds, taken⟩
  · rintro (⟨before, e, after, rfl, own, kinds, taken⟩ | ⟨own, kinds, taken⟩)
    · exact ⟨before, e, after ++ [x], by simp, own, kinds, taken⟩
    · exact ⟨journal, x, [], rfl, own, kinds, taken⟩

theorem Accepted.append {journal : Journal} {id : String} {kind : EventKind}
    (accepted : Accepted journal id kind) (later : Journal) :
    Accepted (journal ++ later) id kind := by
  obtain ⟨before, e, after, rfl, own, kinds, taken⟩ := accepted
  exact ⟨before, e, after ++ later, by simp, own, kinds, taken⟩

end Sentinel.Actions
