import Mathlib.Data.List.Forall2

/-! Selecting the wanted elements of a list, each mapped to one result, in order. -/
namespace Sequences

variable {α β : Type*}

/-- One related result, in order, for each wanted element, and none for the others. -/
inductive Selects (wanted : α → Prop) (related : α → β → Prop) : List α → List β → Prop where
  | nil : Selects wanted related [] []
  | keep {a : α} {b : β} {rest : List α} {results : List β} : wanted a → related a b →
      Selects wanted related rest results → Selects wanted related (a :: rest) (b :: results)
  | drop {a : α} {rest : List α} {results : List β} : ¬ wanted a →
      Selects wanted related rest results → Selects wanted related (a :: rest) results

theorem selects_cons_iff {wanted : α → Prop} {related : α → β → Prop} {a : α} {rest : List α}
    {results : List β} : Selects wanted related (a :: rest) results ↔
      (wanted a ∧ ∃ b later, related a b ∧ results = b :: later ∧ Selects wanted related rest later) ∨
        (¬ wanted a ∧ Selects wanted related rest results) := by
  constructor
  · intro selects
    cases selects with
    | keep wants relates later => exact .inl ⟨wants, _, _, relates, rfl, later⟩
    | drop unwanted later => exact .inr ⟨unwanted, later⟩
  · rintro (⟨wants, b, later, relates, rfl, selects⟩ | ⟨unwanted, selects⟩)
    · exact .keep wants relates selects
    · exact .drop unwanted selects

/-- Where a map has a result for all that is wanted, no selection has more results. -/
theorem Selects.length_le {wanted : α → Prop} {related : α → β → Prop} {f : α → Option β}
    {xs : List α} {results : List β} (selects : Selects wanted related xs results)
    (defined : ∀ a ∈ xs, wanted a → (f a).isSome) : results.length ≤ (xs.filterMap f).length := by
  induction selects with
  | nil => exact Nat.zero_le _
  | @keep a b rest results wants _ _ ih =>
    rw [List.forall_mem_cons] at defined
    obtain ⟨c, found⟩ := Option.isSome_iff_exists.mp (defined.1 wants)
    rw [List.filterMap_cons_some found]
    exact Nat.succ_le_succ (ih defined.2)
  | @drop a rest results _ _ ih =>
    rw [List.forall_mem_cons] at defined
    exact Nat.le_trans (ih defined.2) ((List.sublist_cons_self a rest).filterMap f).length_le

/-- A map selects what is wanted where it has results for nothing else. -/
theorem selects_filterMap_iff {wanted : α → Prop} {f : α → Option β} {xs : List α}
    (defined : ∀ a ∈ xs, wanted a → (f a).isSome) :
    Selects wanted (fun a b => f a = some b) xs (xs.filterMap f) ↔
      ∀ a ∈ xs, (f a).isSome → wanted a := by
  induction xs with
  | nil => simp [Selects.nil]
  | cons a rest ih =>
    rw [List.forall_mem_cons] at defined
    rw [List.forall_mem_cons, ← ih defined.2, selects_cons_iff]
    cases found : f a with
    | none =>
      have unwanted : ¬ wanted a := fun wants => by simpa [found] using defined.1 wants
      simp [unwanted, List.filterMap_cons_none found]
    | some b =>
      have excess : ¬ Selects wanted (fun a b => f a = some b) rest (b :: rest.filterMap f) :=
        fun selects => Nat.not_succ_le_self _ (selects.length_le defined.2)
      simp [List.filterMap_cons_some found, excess]

end Sequences
