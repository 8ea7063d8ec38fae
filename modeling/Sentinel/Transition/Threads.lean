import Mathlib.Data.List.Basic
import Sentinel.Transition.Run

/-! Threads over shared memory. Any thread may take its next atomic action at
any moment, so a run is an arbitrary interleaving. Invariants that count
threads in some part of their code are maintained one action at a time. -/
namespace Transition

variable {σ ℓ L : Type*}

structure Threads (σ ℓ : Type*) where
  shared : σ
  threads : List ℓ

namespace Threads

/-- One atomic action of one thread. -/
inductive Step (act : σ → ℓ → L → σ → ℓ → Prop) :
    Threads σ ℓ → Nat × L → Threads σ ℓ → Prop where
  | act {s : Threads σ ℓ} {i t l shared t'} : s.threads[i]? = some t → act s.shared t l shared t' →
      Step act s (i, l) ⟨shared, s.threads.set i t'⟩

/-- Runs a deterministic `next` along a schedule of thread numbers and labels, as
long as every action passes the check. -/
def schedule (check : Threads σ ℓ → Nat × L → Bool) (next : σ → L → ℓ → Option (σ × ℓ)) :
    List (Nat × L) → Threads σ ℓ → Option (Threads σ ℓ)
  | [], s => some s
  | l :: ls, s =>
    if check s l then
      match s.threads[l.1]? with
      | none => none
      | some t =>
        match next s.shared l.2 t with
        | none => none
        | some (shared, t') => schedule check next ls ⟨shared, s.threads.set l.1 t'⟩
    else none

theorem run_schedule (check : Threads σ ℓ → Nat × L → Bool) {guard : Threads σ ℓ → Nat × L → Prop}
    (sound : ∀ s l, check s l = true → guard s l) {next : σ → L → ℓ → Option (σ × ℓ)}
    {ls : List (Nat × L)} {s s' : Threads σ ℓ} (scheduled : schedule check next ls s = some s') :
    Run (Guarded guard (Step fun s t l s' t' => next s l t = some (s', t'))) s ls s' := by
  induction ls generalizing s with
  | nil =>
    cases scheduled
    exact .refl _
  | cons l ls ih =>
    simp only [schedule] at scheduled
    split at scheduled
    · split at scheduled
      · cases scheduled
      · split at scheduled
        · cases scheduled
        · exact .next ⟨sound _ _ ‹_›, .act ‹_› ‹_›⟩ (ih scheduled)
    · cases scheduled

def count (p : ℓ → Bool) (s : Threads σ ℓ) : Nat := s.threads.countP p

/-- The count after one thread moved, whatever the others do. -/
theorem count_set (p : ℓ → Bool) {threads : List ℓ} {i : Nat} {t : ℓ} (t' : ℓ)
    (found : threads[i]? = some t) :
    (threads.set i t').countP p + (if p t then 1 else 0) =
      threads.countP p + (if p t' then 1 else 0) := by
  induction threads generalizing i with
  | nil => simp at found
  | cons head rest ih =>
    cases i with
    | zero =>
      obtain rfl : head = t := by simpa using found
      simp only [List.set_cons_zero, List.countP_cons]
      omega
    | succ i =>
      have moved := ih (by simpa using found : rest[i]? = some t)
      simp only [List.set_cons_succ, List.countP_cons]
      omega

end Threads

/-! ### Check, then act

A thread that finds the shared state open commits itself to an act, and the act
closes the state. Nothing keeps another thread from checking in between, so at
most one act is guaranteed only when no check passes while a thread is
committed. -/

/-- What one action of one thread may do in a check-then-act protocol. -/
inductive CheckThenAct (isOpen : σ → Prop) (committed : ℓ → Bool) (acts : σ → Nat)
    (s : σ) (t : ℓ) (s' : σ) (t' : ℓ) : Prop where
  | check : isOpen s → committed t = false → committed t' = true → acts s' = acts s →
      (isOpen s' → isOpen s) → CheckThenAct isOpen committed acts s t s' t'
  | act : committed t = true → committed t' = false → acts s' = acts s + 1 → ¬ isOpen s' →
      CheckThenAct isOpen committed acts s t s' t'
  | other : (committed t' = true → committed t = true) → acts s' = acts s →
      (isOpen s' → isOpen s) → CheckThenAct isOpen committed acts s t s' t'

namespace CheckThenAct
variable {isOpen : σ → Prop} {committed : ℓ → Bool} {acts : σ → Nat}
  {act : σ → ℓ → L → σ → ℓ → Prop}

/-- The acts since the count stood at `n`, and those already committed to. -/
structure AtMostOne (isOpen : σ → Prop) (committed : ℓ → Bool) (acts : σ → Nat) (n : Nat)
    (s : Threads σ ℓ) : Prop where
  lower : n ≤ acts s.shared
  upper : acts s.shared + s.count committed ≤ n + 1
  closed : n < acts s.shared → ¬ isOpen s.shared

/-- The next action of the thread does not commit it while another is committed. -/
def Exclusive (act : σ → ℓ → L → σ → ℓ → Prop) (committed : ℓ → Bool) (s : Threads σ ℓ)
    (l : Nat × L) : Prop :=
  ∀ t shared t', s.threads[l.1]? = some t → act s.shared t l.2 shared t' →
    committed t = false → committed t' = true → s.count committed = 0

def exclusive (committed : ℓ → Bool) (s : Threads σ ℓ) (l : Nat × L) : Bool :=
  s.count committed = 0 || s.threads[l.1]?.any committed

theorem exclusive_sound (s : Threads σ ℓ) (l : Nat × L)
    (checked : exclusive committed s l = true) : Exclusive act committed s l := by
  intro t shared t' found _ before _
  simpa [exclusive, found, before] using checked

theorem step_atMostOne {n : Nat} {s s' : Threads σ ℓ} {l : Nat × L}
    (protocol : ∀ t l s' t', act s.shared t l s' t' →
      CheckThenAct isOpen committed acts s.shared t s' t')
    (inv : AtMostOne isOpen committed acts n s)
    (step : Guarded (Exclusive act committed) (Threads.Step act) s l s') :
    AtMostOne isOpen committed acts n s' := by
  obtain ⟨exclusive, taken⟩ := step
  obtain ⟨lower, upper, closed⟩ := inv
  cases taken with
  | @act i t l shared t' found moved =>
    have counted := Threads.count_set committed t' found
    simp only [Threads.count] at upper
    cases protocol _ _ _ _ moved with
    | check opened before after same reopens =>
      have alone := exclusive t shared t' found moved before after
      have fresh : ¬ n < acts s.shared := fun h => closed h opened
      simp only [before, after, Threads.count, if_true, Bool.false_eq_true, if_false] at counted alone
      exact ⟨by simp only [same]; omega, by simp only [same, Threads.count]; omega,
        fun h => absurd (same ▸ h) fresh⟩
    | act before after more shut =>
      simp only [before, after, if_true, Bool.false_eq_true, if_false] at counted
      exact ⟨by simp only [more]; omega, by simp only [more, Threads.count]; omega, fun _ => shut⟩
    | other keeps same reopens =>
      have kept : (if committed t' then 1 else 0) ≤ if committed t then 1 else 0 := by
        split
        · rename_i after
          simp [keeps after]
        · exact Nat.zero_le _
      exact ⟨by simp only [same]; omega, by simp only [same, Threads.count]; omega,
        fun h h' => closed (same ▸ h) (reopens h')⟩

/-- Run rule: as long as checks are exclusive, at most one act happens. The
protocol need only hold of the shared states that are `good`. -/
theorem run_atMostOne {good : σ → Prop}
    (protocol : ∀ s t l s' t', good s → act s t l s' t' →
      CheckThenAct isOpen committed acts s t s' t')
    (preserves : ∀ s t l s' t', good s → act s t l s' t' → good s')
    {s₀ s' : Threads σ ℓ} {ls : List (Nat × L)} (initial : good s₀.shared)
    (idle : s₀.count committed = 0)
    (run : Run (Guarded (Exclusive act committed) (Threads.Step act)) s₀ ls s') :
    AtMostOne isOpen committed acts (acts s₀.shared) s' := by
  have both := run.invariant
    (fun s => good s.shared ∧ AtMostOne isOpen committed acts (acts s₀.shared) s)
    (fun s l s' inv step => by
      refine ⟨?_, step_atMostOne (fun t l s' t' => protocol _ t l s' t' inv.1) inv.2 step⟩
      cases step.2 with
      | act _ moved => exact preserves _ _ _ _ _ inv.1 moved)
    ⟨initial, Nat.le_refl _, by omega, fun h => absurd h (Nat.lt_irrefl _)⟩
  exact both.2

end CheckThenAct
end Transition
