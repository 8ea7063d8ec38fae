import Mathlib.Data.List.Sort

/-! Order statistics: the entry at a place of the sorted list bounds how many entries lie above
and how many at or below a value. -/
namespace Sequences
variable {α : Type} [LinearOrder α] {l : List α} {k : ℕ} {v c : α}

/-- The entry of rank `k`, counted from the smallest. -/
def ranked (l : List α) (k : ℕ) : Option α := (l.insertionSort (· ≤ ·))[k]?

theorem ranked_isSome (inside : k < l.length) : ∃ v, ranked l k = some v := by
  rw [← List.length_insertionSort (· ≤ ·) l] at inside
  exact ⟨_, List.getElem?_eq_getElem inside⟩

theorem countP_insertionSort (p : α → Bool) :
    (l.insertionSort (· ≤ ·)).countP p = l.countP p :=
  (List.perm_insertionSort _ l).countP_eq p

/-- Ranks are in order. -/
theorem ranked_le {i j : ℕ} {w : α} (first : ranked l i = some v) (second : ranked l j = some w)
    (le : i ≤ j) : v ≤ w := by
  obtain ⟨inside, rfl⟩ := List.getElem?_eq_some_iff.mp first
  obtain ⟨inside', rfl⟩ := List.getElem?_eq_some_iff.mp second
  rcases eq_or_lt_of_le le with rfl | lt
  · exact le_rfl
  · exact List.pairwise_iff_getElem.mp (List.pairwise_insertionSort (· ≤ ·) l) i j inside inside' lt

theorem le_countP_lt (found : ranked l k = some v) (above : c < v) :
    l.length - k ≤ l.countP (c < ·) := by
  rw [← countP_insertionSort (l := l), ← List.length_insertionSort (· ≤ ·) l, ← List.length_drop]
  have all : ((l.insertionSort (· ≤ ·)).drop k).countP (c < ·) =
      ((l.insertionSort (· ≤ ·)).drop k).length := by
    rw [List.countP_eq_length]
    intro w member
    obtain ⟨j, inside, rfl⟩ := List.mem_iff_getElem.mp member
    rw [List.getElem_drop, decide_eq_true_eq]
    exact above.trans_le (ranked_le found (List.getElem?_eq_getElem _) (Nat.le_add_right k j))
  rw [← all]
  exact (List.drop_sublist _ _).countP_le

theorem lt_countP_le (found : ranked l k = some v) (below : v ≤ c) :
    k < l.countP (· ≤ c) := by
  obtain ⟨inside, -⟩ := List.getElem?_eq_some_iff.mp found
  have all : ((l.insertionSort (· ≤ ·)).take (k + 1)).countP (· ≤ c) = k + 1 := by
    rw [List.countP_eq_length.mpr, List.length_take, Nat.min_eq_left inside]
    intro w member
    obtain ⟨j, bound, rfl⟩ := List.mem_iff_getElem.mp member
    rw [List.getElem_take, decide_eq_true_eq]
    rw [List.length_take] at bound
    exact (ranked_le (List.getElem?_eq_getElem _) found (by omega)).trans below
  rw [← countP_insertionSort (l := l), ← Nat.succ_le_iff, Nat.succ_eq_add_one, ← all]
  exact (List.take_sublist _ _).countP_le

/-- A level that at least half of the baseline keeps to and at least half of the values exceed. -/
def Separated (baseline values : List α) : Prop :=
  ∃ level, baseline.length ≤ 2 * baseline.countP (· ≤ level) ∧
    values.length ≤ 2 * values.countP (level < ·)

end Sequences
