import Mathlib.Algebra.Order.Field.Basic
import Mathlib.Data.List.Forall2
import Sentinel.Python.Ordering

/-! Elements asked for window by window. Each window is answered with its first elements
in the order of a key, up to a limit, and an interval is cut into equal windows that share
their ends. -/
namespace Sequences
open Python

section
variable {α κ : Type*} [LinearOrder κ]

/-- The first `n` elements in the order of their keys, themselves in any order. Where the
limit falls among elements of one key, it is open which of them are found. -/
structure FirstBy (key : α → κ) (n : ℕ) (xs found : List α) : Prop where
  least : ∃ rest, xs.Perm (found ++ rest) ∧ ∀ a ∈ found, ∀ b ∈ rest, key a ≤ key b
  length_eq : found.length = min n xs.length

theorem firstBy_take_sortedBy (key : α → κ) (n : ℕ) (xs : List α) :
    FirstBy key n xs ((sortedBy key xs).take n) where
  least := by
    refine ⟨(sortedBy key xs).drop n, ?_, fun a kept b cut => take_sortedBy_le kept cut⟩
    rw [List.take_append_drop]
    exact (sortedBy_perm key xs).symm
  length_eq := by rw [List.length_take, (sortedBy_perm key xs).length_eq]

theorem FirstBy.subset {key : α → κ} {n : ℕ} {xs found : List α} (first : FirstBy key n xs found) :
    found ⊆ xs := by
  obtain ⟨rest, split, _⟩ := first.least
  exact fun a member => split.mem_iff.mpr (List.mem_append_left rest member)

theorem FirstBy.length_le {key : α → κ} {n : ℕ} {xs found : List α}
    (first : FirstBy key n xs found) : found.length ≤ n :=
  first.length_eq.trans_le (min_le_left n xs.length)

/-- Below the limit nothing is left out. -/
theorem FirstBy.perm_of_length_le {key : α → κ} {n : ℕ} {xs found : List α}
    (first : FirstBy key n xs found) (fits : xs.length ≤ n) : found.Perm xs := by
  obtain ⟨rest, split, _⟩ := first.least
  have whole := split.length_eq
  have count := first.length_eq
  rw [min_eq_right fits] at count
  rw [List.length_append] at whole
  have none_left : rest = [] := List.eq_nil_of_length_eq_zero (by omega)
  rw [none_left, List.append_nil] at split
  exact split.symm

/-- An element of the least key is found. -/
theorem FirstBy.exists_least {key : α → κ} {n : ℕ} {xs found : List α}
    (first : FirstBy key n xs found) (positive : 0 < n) (nonempty : xs ≠ []) :
    ∃ a ∈ found, ∀ b ∈ xs, key a ≤ key b := by
  have some_found : minBy key found ≠ none := by
    rw [Ne, minBy_eq_none, ← List.length_eq_zero_iff, first.length_eq]
    have := List.length_pos_iff.mpr nonempty
    omega
  obtain ⟨a, minimal⟩ := Option.ne_none_iff_exists'.mp some_found
  obtain ⟨rest, split, least⟩ := first.least
  have member : a ∈ found := List.argmin_mem minimal
  refine ⟨a, member, fun b inXs => ?_⟩
  rcases List.mem_append.mp (split.mem_iff.mp inXs) with here | left
  · exact List.le_of_mem_argmin here minimal
  · exact least a member b left

/-- The elements with their keys in a window, both ends included. -/
def inWindow (key : α → κ) (window : κ × κ) (xs : List α) : List α :=
  xs.filter fun a => window.1 ≤ key a ∧ key a ≤ window.2

theorem mem_inWindow {key : α → κ} {window : κ × κ} {xs : List α} {a : α} :
    a ∈ inWindow key window xs ↔ a ∈ xs ∧ window.1 ≤ key a ∧ key a ≤ window.2 := by
  simp [inWindow]

/-- One answer for each window, in their order. -/
def Answered (key : α → κ) (n : ℕ) (xs : List α) (windows : List (κ × κ))
    (answers : List (List α)) : Prop :=
  List.Forall₂ (fun window found => FirstBy key n (inWindow key window xs) found) windows answers

variable {key : α → κ} {n : ℕ} {xs : List α} {windows : List (κ × κ)} {answers : List (List α)}

theorem Answered.concat {window : κ × κ} {found : List α} (answered : Answered key n xs windows answers)
    (first : FirstBy key n (inWindow key window xs) found) :
    Answered key n xs (windows ++ [window]) (answers ++ [found]) :=
  List.rel_append answered (.cons first .nil)

theorem Answered.length_flatten_le (answered : Answered key n xs windows answers) :
    answers.flatten.length ≤ windows.length * n := by
  induction answered with
  | nil => exact Nat.zero_le _
  | cons first _ ih =>
    have bound := first.length_le
    rw [List.flatten_cons, List.length_append, List.length_cons, Nat.succ_mul]
    omega

theorem Answered.of_mem_flatten (answered : Answered key n xs windows answers) {a : α}
    (member : a ∈ answers.flatten) : ∃ window ∈ windows, a ∈ inWindow key window xs := by
  induction answered with
  | nil => cases member
  | cons first _ ih =>
    rcases List.mem_append.mp (List.flatten_cons ▸ member) with here | later
    · exact ⟨_, List.mem_cons_self, first.subset here⟩
    · obtain ⟨window, asked, inside⟩ := ih later
      exact ⟨window, List.mem_cons_of_mem _ asked, inside⟩

theorem Answered.exists_answer (answered : Answered key n xs windows answers) {window : κ × κ}
    (asked : window ∈ windows) :
    ∃ found, FirstBy key n (inWindow key window xs) found ∧ found ⊆ answers.flatten := by
  induction answered with
  | nil => cases asked
  | cons first _ ih =>
    rw [List.flatten_cons]
    rcases List.mem_cons.mp asked with rfl | later
    · exact ⟨_, first, List.subset_append_left _ _⟩
    · obtain ⟨found, answer, within⟩ := ih later
      exact ⟨found, answer, List.Subset.trans within (List.subset_append_right _ _)⟩

/-- The windows together are the interval. -/
def Tiles (a b : κ) (windows : List (κ × κ)) : Prop :=
  ∀ x, (∃ window ∈ windows, window.1 ≤ x ∧ x ≤ window.2) ↔ a ≤ x ∧ x ≤ b

/-- What the first of several starts does not exceed lies between one of them and the next,
in whatever order they come. -/
theorem exists_between {starts : ℕ → κ} {x : κ} (low : starts 0 ≤ x) {parts : ℕ} (some_ : parts ≠ 0) :
    ∃ k < parts, starts k ≤ x ∧ (k + 1 = parts ∨ x ≤ starts (k + 1)) := by
  induction parts with
  | zero => exact absurd rfl some_
  | succ m ih =>
    by_cases first : m = 0
    · exact ⟨0, Nat.succ_pos m, low, .inl (by rw [first])⟩
    · obtain ⟨k, below, from_, last | upto⟩ := ih first
      · rcases le_total (starts m) x with after | before
        · exact ⟨m, Nat.lt_succ_self m, after, .inl rfl⟩
        · exact ⟨k, below.trans (Nat.lt_succ_self m), from_, .inr (last ▸ before)⟩
      · exact ⟨k, below.trans (Nat.lt_succ_self m), from_, .inr upto⟩

end

section
variable {K : Type*} [Field K] [LinearOrder K] [IsStrictOrderedRing K] {a b x : K} {n k : ℕ}

/-- The `k`th of the cuts that divide an interval into `n` equal parts. -/
def cut (a b : K) (n k : ℕ) : K := a + (b - a) / n * k

omit [LinearOrder K] [IsStrictOrderedRing K] in
@[simp] theorem cut_zero (a b : K) (n : ℕ) : cut a b n 0 = a := by simp [cut]

@[simp] theorem cut_self (a b : K) (parts : n ≠ 0) : cut a b n n = b := by
  have nonzero : (n : K) ≠ 0 := Nat.cast_ne_zero.mpr parts
  rw [cut, div_mul_cancel₀ _ nonzero, add_sub_cancel]

theorem cut_monotone (n : ℕ) (le : a ≤ b) : Monotone (cut a b n) := by
  intro j k order
  have width : 0 ≤ (b - a) / n := div_nonneg (sub_nonneg.mpr le) n.cast_nonneg
  exact add_le_add_right (mul_le_mul_of_nonneg_left (Nat.cast_le.mpr order) width) a

theorem cut_strictAnti (parts : n ≠ 0) (lt : b < a) : StrictAnti (cut a b n) := by
  intro j k order
  have width : (b - a) / n < 0 :=
    div_neg_of_neg_of_pos (sub_neg.mpr lt) (Nat.cast_pos.mpr (Nat.pos_of_ne_zero parts))
  exact add_lt_add_right (mul_lt_mul_of_neg_left (Nat.cast_lt.mpr order) width) a

/-- The window between a cut and the next one. -/
def part (a b : K) (n k : ℕ) : K × K := (cut a b n k, cut a b n (k + 1))

/-- Every part lies in the interval; the parts of an empty one are empty. -/
theorem bounds_of_part (below : k < n) (low : (part a b n k).1 ≤ x) (high : x ≤ (part a b n k).2) :
    a ≤ x ∧ x ≤ b := by
  have parts : n ≠ 0 := Nat.ne_zero_of_lt below
  rcases le_or_gt a b with le | lt
  · have first := cut_monotone n le k.zero_le
    have last := cut_monotone n le (Nat.succ_le_of_lt below)
    rw [cut_zero] at first
    rw [cut_self a b parts] at last
    exact ⟨first.trans low, high.trans last⟩
  · exact absurd (low.trans high) (not_le.mpr (cut_strictAnti parts lt k.lt_succ_self))

theorem tiles_parts (a b : K) (parts : n ≠ 0) : Tiles a b ((List.range n).map (part a b n)) := by
  intro x
  constructor
  · rintro ⟨window, listed, low, high⟩
    obtain ⟨k, below, rfl⟩ := List.mem_map.mp listed
    exact bounds_of_part (List.mem_range.mp below) low high
  · rintro ⟨low, high⟩
    have first : cut a b n 0 ≤ x := (cut_zero a b n).trans_le low
    obtain ⟨k, below, from_, upto⟩ := exists_between first parts
    refine ⟨part a b n k, List.mem_map_of_mem (List.mem_range.mpr below), from_, ?_⟩
    rcases upto with rfl | before
    · exact high.trans_eq (cut_self a b parts).symm
    · exact before

end

end Sequences
