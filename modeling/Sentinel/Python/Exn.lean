import Mathlib.Data.List.Forall2

/-! Raised exceptions. `except Exception` lets through those of the
`BaseException` branch only (`KeyboardInterrupt`, `SystemExit`). -/
namespace Python

structure Exn where
  type : String
  message : String
  base : Bool := false
  deriving DecidableEq, Repr

/-- The result of a call that may raise. -/
abbrev Py (α : Type) := Except Exn α

def Returns {α : Type} (result : Py α) : Prop := ∃ a, result = .ok a

theorem returns_ok {α : Type} (a : α) : Returns (.ok a) := ⟨a, rfl⟩

theorem not_returns_error {α : Type} (e : Exn) : ¬ Returns (.error e : Py α) := by
  rintro ⟨a, same⟩
  cases same

instance {α : Type} (result : Py α) : Decidable (Returns result) :=
  match result with
  | .ok a => isTrue (returns_ok a)
  | .error e => isFalse (not_returns_error e)

theorem bind_ok_iff {α β : Type} {result : Py α} {next : α → Py β} {b : β} :
    (result >>= next) = .ok b ↔ ∃ a, result = .ok a ∧ next a = .ok b := by
  cases result <;> simp [bind, Except.bind]

/-- Mapping returns, element by element, what each call returns. -/
theorem mapM_ok_iff {α β : Type} {f : α → Py β} {xs : List α} {ys : List β} :
    xs.mapM f = .ok ys ↔ List.Forall₂ (fun a b => f a = .ok b) xs ys := by
  induction xs generalizing ys with
  | nil => cases ys <;> simp [pure, Except.pure]
  | cons a rest ih =>
    simp only [List.mapM_cons, bind_ok_iff, pure, Except.pure, Except.ok.injEq,
      List.forall₂_cons_left_iff]
    constructor
    · rintro ⟨b, first, bs, later, rfl⟩
      exact ⟨b, bs, first, ih.mp later, rfl⟩
    · rintro ⟨b, bs, first, later, rfl⟩
      exact ⟨b, first, bs, ih.mpr later, rfl⟩

theorem mem_of_mapM {α β : Type} {f : α → Py β} {xs : List α} {ys : List β}
    (mapped : xs.mapM f = .ok ys) (b : β) : b ∈ ys ↔ ∃ a ∈ xs, f a = .ok b := by
  have related := mapM_ok_iff.mp mapped
  clear mapped
  induction related with
  | nil => simp
  | cons first _ ih => simp [ih, first, eq_comm]

/-- Mapping returns exactly when every call returns. -/
theorem mapM_returns_iff {α β : Type} {f : α → Py β} {xs : List α} :
    Returns (xs.mapM f) ↔ ∀ a ∈ xs, Returns (f a) := by
  induction xs with
  | nil => simp [Returns, pure, Except.pure]
  | cons a rest ih =>
    rw [List.forall_mem_cons, ← ih]
    simp only [Returns, List.mapM_cons, bind_ok_iff, pure, Except.pure, Except.ok.injEq]
    constructor
    · rintro ⟨_, b, first, bs, later, _⟩
      exact ⟨⟨b, first⟩, bs, later⟩
    · rintro ⟨⟨b, first⟩, bs, later⟩
      exact ⟨b :: bs, b, first, bs, later, rfl⟩

theorem mapM_eq_map {α β : Type} {f : α → Py β} {g : α → β} {xs : List α}
    (each : ∀ a ∈ xs, f a = .ok (g a)) : xs.mapM f = .ok (xs.map g) :=
  mapM_ok_iff.mpr (List.forall₂_map_right_iff.mpr (List.forall₂_same.mpr each))

theorem mapM_congr {α β : Type} {f g : α → Py β} {xs : List α} (same : ∀ a ∈ xs, f a = g a) :
    xs.mapM f = xs.mapM g := by
  induction xs with
  | nil => rfl
  | cons a rest ih =>
    rw [List.forall_mem_cons] at same
    rw [List.mapM_cons, List.mapM_cons, same.1, ih same.2]

/-- Mapping calls that all return collects what they return. -/
theorem mapM_eq_filterMap {α β : Type} {f : α → Py β} {xs : List α}
    (each : ∀ a ∈ xs, Returns (f a)) :
    xs.mapM f = .ok (xs.filterMap fun a => (f a).toOption) := by
  induction xs with
  | nil => rfl
  | cons a rest ih =>
    rw [List.forall_mem_cons] at each
    obtain ⟨b, first⟩ := each.1
    rw [List.mapM_cons, first, ih each.2]
    simp [first, Except.toOption, bind, Except.bind, pure, Except.pure]

/-- The call raises nothing that `except Exception` lets through. -/
def Ordinary {α : Type} (result : Py α) : Prop := ∀ e, result = .error e → e.base = false

theorem ordinary_ok {α : Type} (a : α) : Ordinary (.ok a) := by
  rintro e ⟨⟩

theorem ordinary_error {α : Type} {e : Exn} (caught : e.base = false) :
    Ordinary (.error e : Py α) := by
  rintro _ ⟨⟩
  exact caught

theorem Ordinary.bind {α β : Type} {result : Py α} {next : α → Py β} (first : Ordinary result)
    (later : ∀ a, result = .ok a → Ordinary (next a)) : Ordinary (result >>= next) := by
  cases result with
  | ok a => exact later a rfl
  | error e =>
    rintro _ ⟨⟩
    exact first e rfl

theorem ordinary_mapM {α β : Type} {f : α → Py β} {xs : List α} (each : ∀ a ∈ xs, Ordinary (f a)) :
    Ordinary (xs.mapM f) := by
  induction xs with
  | nil => exact ordinary_ok []
  | cons a rest ih =>
    rw [List.mapM_cons]
    refine (each a (by simp)).bind fun b _ => ?_
    refine (ih fun a member => each a (by simp [member])).bind fun bs _ => ?_
    exact ordinary_ok _

end Python
