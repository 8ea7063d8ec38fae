import Mathlib.Logic.Basic

/-! Finite runs of a labelled step relation, and runs every step of which meets
a condition on the state before it. -/
namespace Transition

variable {S L : Type*}

inductive Run (step : S → L → S → Prop) : S → List L → S → Prop where
  | refl (s) : Run step s [] s
  | next {s l t ls u} : step s l t → Run step t ls u → Run step s (l :: ls) u

/-- The steps taken where `guard` allows them. -/
def Guarded (guard : S → L → Prop) (step : S → L → S → Prop) (s : S) (l : L) (t : S) : Prop :=
  guard s l ∧ step s l t

namespace Run
variable {step : S → L → S → Prop}

theorem single {s : S} {l : L} {t : S} (taken : step s l t) : Run step s [l] t :=
  .next taken (.refl t)

theorem trans {s t u : S} {ls ms : List L} (first : Run step s ls t) (second : Run step t ms u) :
    Run step s (ls ++ ms) u := by
  induction first with
  | refl => exact second
  | next head _ ih => exact .next head (ih second)

theorem split {s u : S} {ls ms : List L} (run : Run step s (ls ++ ms) u) :
    ∃ t, Run step s ls t ∧ Run step t ms u := by
  induction ls generalizing s with
  | nil => exact ⟨s, .refl s, run⟩
  | cons l ls ih =>
    cases run with
    | next head rest =>
      obtain ⟨t, first, second⟩ := ih rest
      exact ⟨t, .next head first, second⟩

theorem invariant (P : S → Prop) (preserves : ∀ s l t, P s → step s l t → P t)
    {s t : S} {ls : List L} (run : Run step s ls t) (initial : P s) : P t := by
  induction run with
  | refl => exact initial
  | next head _ ih => exact ih (preserves _ _ _ initial head)

theorem unguarded {guard : S → L → Prop} {s t : S} {ls : List L}
    (run : Run (Guarded guard step) s ls t) : Run step s ls t := by
  induction run with
  | refl => exact .refl _
  | next head _ ih => exact .next head.2 ih

end Run

/-- Takes the steps of a deterministic `next`, as long as each passes the check. -/
def play (next : S → L → Option S) (check : S → L → Bool) : List L → S → Option S
  | [], s => some s
  | l :: ls, s =>
    if check s l then
      match next s l with
      | none => none
      | some t => play next check ls t
    else none

theorem run_play {next : S → L → Option S} {check : S → L → Bool} {guard : S → L → Prop}
    (sound : ∀ s l, check s l = true → guard s l) {ls : List L} {s t : S}
    (played : play next check ls s = some t) :
    Run (Guarded guard fun s l t => next s l = some t) s ls t := by
  induction ls generalizing s with
  | nil =>
    cases played
    exact .refl _
  | cons l ls ih =>
    simp only [play] at played
    split at played
    · split at played
      · cases played
      · exact .next ⟨sound _ _ ‹_›, ‹_›⟩ (ih played)
    · cases played

/-- A run that `play` finds, and what it decides of its last state. -/
theorem exists_run {next : S → L → Option S} {check : S → L → Bool} {guard : S → L → Prop}
    (sound : ∀ s l, check s l = true → guard s l) {ls : List L} {s : S} {goal : S → Bool}
    (played : (play next check ls s).any goal = true) :
    ∃ t, Run (Guarded guard fun s l t => next s l = some t) s ls t ∧ goal t = true := by
  rw [Option.any_eq_true] at played
  obtain ⟨t, found, reached⟩ := played
  exact ⟨t, run_play sound found, reached⟩

end Transition
