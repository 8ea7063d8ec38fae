import Sentinel.Actions.Lifecycle

/-! Which statuses an action never leaves. Apart from a fresh proposal of its
id, no event leads out of a terminal status, nor back to an approval that is
already used up. A second `proposed` event restarts any action. -/
namespace Sentinel.Actions
open Python

/-- Past the point where an approval could still be given or used. -/
def Status.closed : Status → Bool
  | .proposed | .posted | .approved => false
  | _ => true

theorem terminal_illegal {s : Status} {kind : EventKind} (terminal : s.terminal = true)
    (other : kind ≠ .proposed) : legal kind s = false := by
  cases s <;> cases kind <;> first | rfl | contradiction

theorem closed_target {s : Status} {body : EventBody} (closed : s.closed = true)
    (other : body.kind ≠ .proposed) (taken : legal body.kind s = true) :
    body.target.closed = true := by
  cases body with
  | executeResult result => simp only [EventBody.target]; split <;> rfl
  | proposed => exact absurd rfl other
  | _ => cases s <;> first | rfl | contradiction

/-- No event of the journal proposes `id`. -/
def Unproposed (id : String) (journal : Journal) : Prop :=
  ∀ e ∈ journal, e.actionId = id → e.kind ≠ .proposed

theorem statusOf_terminal_step {journal : Journal} {id : String} {s : Status} {e : Event}
    (current : statusOf journal id = some s) (terminal : s.terminal = true)
    (other : e.actionId = id → e.kind ≠ .proposed) :
    statusOf (journal ++ [e]) id = some s := by
  rw [statusOf_append_one]
  split
  · rename_i own
    have kind := other own.symm
    simp [kind, current, terminal_illegal terminal kind]
  · exact current

theorem statusOf_terminal_run {journal later : Journal} {id : String} {s : Status}
    (current : statusOf journal id = some s) (terminal : s.terminal = true)
    (unproposed : Unproposed id later) : statusOf (journal ++ later) id = some s := by
  induction later using List.reverseRecOn with
  | nil => simpa using current
  | append_singleton later e ih =>
    rw [← List.append_assoc]
    exact statusOf_terminal_step (ih fun x hx => unproposed x (by simp [hx])) terminal
      (unproposed e (by simp))

theorem statusOf_closed_step {journal : Journal} {id : String} {s : Status} {e : Event}
    (current : statusOf journal id = some s) (closed : s.closed = true)
    (other : e.actionId = id → e.kind ≠ .proposed) :
    ∃ s', statusOf (journal ++ [e]) id = some s' ∧ s'.closed = true := by
  rw [statusOf_append_one]
  split
  · rename_i own
    have kind := other own.symm
    simp only [if_neg kind, current, Option.map_some, Option.some.injEq, exists_eq_left']
    split
    · exact closed_target closed kind ‹_›
    · exact closed
  · exact ⟨s, current, closed⟩

theorem statusOf_proposal {journal : Journal} {e : Event} (kind : e.kind = .proposed) :
    statusOf (journal ++ [e]) e.actionId = some .proposed := by
  simp [statusOf_append_one, kind]

/-- A terminal status is kept throughout a continuation exactly when the
continuation does not propose the id again. -/
theorem terminal_kept_iff (journal later : Journal) (id : String) (s : Status)
    (current : statusOf journal id = some s) (terminal : s.terminal = true) :
    (∀ part, part <+: later → statusOf (journal ++ part) id = some s) ↔ Unproposed id later := by
  constructor
  · intro kept e member own proposal
    obtain ⟨before, after, rfl⟩ := List.append_of_mem member
    have := kept (before ++ [e]) ⟨after, by simp⟩
    rw [← List.append_assoc, ← own, statusOf_proposal proposal] at this
    cases Option.some.inj this
    contradiction
  · rintro unproposed part ⟨rest, rfl⟩
    exact statusOf_terminal_run current terminal fun e member => unproposed e (by simp [member])

/-- The action the tests of the gate use. -/
def restartOrders (id : String) : SuggestedAction :=
  { id, kind := .restart, effect := .mutate, targetService := "orders" }

def deniedJournal : Journal :=
  [⟨"a1", .proposed (restartOrders "a1") none⟩, ⟨"a1", .denied "bob" "too risky"⟩]

theorem terminal_kept_denied :
    statusOf (deniedJournal ++ [⟨"a1", .approved "mallory" "web"⟩]) "a1" = some .denied := by
  apply (terminal_kept_iff deniedJournal [⟨"a1", .approved "mallory" "web"⟩] "a1" .denied
    rfl rfl).mpr _ _ (List.prefix_refl _)
  intro e member _
  obtain rfl := List.mem_singleton.mp member
  decide

/-- Re-proposing a denied action revives it. -/
theorem terminal_revived : ¬ ∀ (journal later : Journal) (id : String) (s : Status),
    statusOf journal id = some s → s.terminal = true →
      statusOf (journal ++ later) id = some s := by
  intro absorbing
  have := absorbing deniedJournal [⟨"a1", .proposed (restartOrders "a1") none⟩] "a1" .denied
    rfl rfl
  exact absurd this (by decide)

end Sentinel.Actions
