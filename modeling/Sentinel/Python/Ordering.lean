import Mathlib.Data.List.MinMax
import Mathlib.Data.List.Sort

/-! `sorted(xs, key=key)`, `xs[:stop]` and `max(xs, key=f)`. The sort is stable, and
Mathlib's `argmax` keeps the first of several greatest elements, as `max` does. -/
namespace Python

variable {α β κ : Type*} [LinearOrder κ]

def sortedBy (key : α → κ) (xs : List α) : List α := xs.insertionSort fun a b => key a ≤ key b

/-- `min` with a key, which keeps the first of several least elements. -/
def minBy (key : α → κ) (xs : List α) : Option α := xs.argmin key

/-- `max` with a key, which keeps the first of several greatest elements. -/
def maxBy (key : α → κ) (xs : List α) : Option α := xs.argmax key

theorem maxBy_spec {key : α → κ} {xs : List α} {a : α} (greatest : maxBy key xs = some a) :
    a ∈ xs ∧ ∀ b ∈ xs, key b ≤ key a :=
  ⟨List.argmax_mem greatest, fun _ member => List.le_of_mem_argmax member greatest⟩

theorem maxBy_eq_none (key : α → κ) {xs : List α} : maxBy key xs = none ↔ xs = [] :=
  List.argmax_eq_none

theorem minBy_eq_none {key : α → κ} {xs : List α} : minBy key xs = none ↔ xs = [] :=
  List.argmin_eq_none

theorem sortedBy_perm (key : α → κ) (xs : List α) : (sortedBy key xs).Perm xs :=
  List.perm_insertionSort _ xs

@[simp] theorem mem_sortedBy {key : α → κ} {xs : List α} {a : α} :
    a ∈ sortedBy key xs ↔ a ∈ xs :=
  (sortedBy_perm key xs).mem_iff

theorem sortedBy_pairwise (key : α → κ) (xs : List α) :
    (sortedBy key xs).Pairwise fun a b => key a ≤ key b := by
  have : Std.Total fun a b : α => key a ≤ key b := ⟨fun a b => le_total (key a) (key b)⟩
  have : IsTrans α fun a b => key a ≤ key b := ⟨fun _ _ _ => le_trans⟩
  exact List.pairwise_insertionSort _ xs

theorem le_of_getElem? {key : α → κ} {xs : List α} (sorted : xs.Pairwise fun a b => key a ≤ key b)
    {i j : ℕ} (le : i ≤ j) {a b : α} (at_a : xs[i]? = some a) (at_b : xs[j]? = some b) :
    key a ≤ key b := by
  obtain ⟨insideA, rfl⟩ := List.getElem?_eq_some_iff.mp at_a
  obtain ⟨insideB, rfl⟩ := List.getElem?_eq_some_iff.mp at_b
  rcases eq_or_lt_of_le le with rfl | less
  · exact le_rfl
  · exact List.pairwise_iff_getElem.mp sorted i j insideA insideB less

/-- Of two elements with keys in order, the sort keeps the order. -/
theorem sortedBy_stable {key : α → κ} {xs : List α} {a b : α} (le : key a ≤ key b)
    (before : [a, b].Sublist xs) : [a, b].Sublist (sortedBy key xs) := by
  have : Std.Total fun a b : α => key a ≤ key b := ⟨fun a b => le_total (key a) (key b)⟩
  have : IsTrans α fun a b => key a ≤ key b := ⟨fun _ _ _ => le_trans⟩
  exact List.pair_sublist_insertionSort le before

/-- In a list in order, what has the smaller key stands before. -/
theorem sublist_of_key_lt {key : α → κ} {xs : List α} {a b : α}
    (sorted : xs.Pairwise fun a b => key a ≤ key b) (inA : a ∈ xs) (inB : b ∈ xs)
    (less : key a < key b) : [a, b].Sublist xs := by
  obtain ⟨first, later, rfl⟩ := List.append_of_mem inA
  rw [List.pairwise_append] at sorted
  have after : b ∈ later := by
    rcases List.mem_append.mp inB with earlier | rest
    · exact absurd (sorted.2.2 b earlier a List.mem_cons_self) (not_le.mpr less)
    · refine (List.mem_cons.mp rest).resolve_left fun same => ?_
      exact absurd less (same ▸ lt_irrefl _)
  exact (List.Sublist.cons_cons a (List.singleton_sublist.mpr after)).trans (List.sublist_append_right _ _)

/-- The first element has the least key. -/
theorem head_sortedBy_le {key : α → κ} {xs : List α} {first a : α}
    (head : (sortedBy key xs).head? = some first) (member : a ∈ xs) : key first ≤ key a := by
  obtain ⟨rest, sorted⟩ : ∃ rest, sortedBy key xs = first :: rest := List.head?_eq_some_iff.mp head
  have ordered := sortedBy_pairwise key xs
  rw [sorted, List.pairwise_cons] at ordered
  rcases List.mem_cons.mp (sorted ▸ mem_sortedBy.mpr member) with rfl | later
  · exact le_rfl
  · exact ordered.1 a later

theorem mem_of_head_sortedBy {key : α → κ} {xs : List α} {first : α}
    (head : (sortedBy key xs).head? = some first) : first ∈ xs :=
  mem_sortedBy.mp (List.mem_of_head? head)

theorem sortedBy_head_of_mem {xs : List α} {a : α} (key : α → κ) (member : a ∈ xs) :
    ∃ first, (sortedBy key xs).head? = some first := by
  cases sorted : sortedBy key xs with
  | nil => exact absurd (sorted ▸ mem_sortedBy.mpr member) List.not_mem_nil
  | cons first rest => exact ⟨first, rfl⟩

/-- `xs[:stop]`. -/
def sliceTo (stop : ℤ) (xs : List β) : List β :=
  xs.take (if 0 ≤ stop then stop.toNat else xs.length - stop.natAbs)

/-- What is cut off does not sort before what is kept. -/
theorem take_sortedBy_le {key : α → κ} {xs : List α} {n : ℕ} {a b : α}
    (kept : a ∈ (sortedBy key xs).take n) (cut : b ∈ (sortedBy key xs).drop n) : key a ≤ key b := by
  have ordered := sortedBy_pairwise key xs
  rw [← List.take_append_drop n (sortedBy key xs), List.pairwise_append] at ordered
  exact ordered.2.2 a kept b cut

/-- Elements that sort before all others are the ones kept. -/
theorem take_sortedBy_perm {key : α → κ} {xs first later : List α}
    (split : xs.Perm (first ++ later))
    (before : ∀ a ∈ first, ∀ b ∈ later, key a < key b ∨ a = b) :
    ((sortedBy key xs).take first.length).Perm first := by
  classical
  have whole : ((sortedBy key xs).take first.length ++ (sortedBy key xs).drop first.length).Perm
      (first ++ later) := by
    rw [List.take_append_drop]
    exact (sortedBy_perm key xs).trans split
  have counts := fun a => whole.count_eq a
  simp only [List.count_append] at counts
  have length : ((sortedBy key xs).take first.length).length = first.length := by
    have := split.length_eq
    rw [List.length_append] at this
    rw [List.length_take, (sortedBy_perm key xs).length_eq]
    omega
  -- a kept element beyond those of `first` stands for one of `first` that was cut
  have covers : first.Subperm ((sortedBy key xs).take first.length) := by
    rw [List.subperm_ext_iff]
    intro a wanted
    by_contra missing
    have cut : a ∈ (sortedBy key xs).drop first.length := by
      have := counts a
      exact List.count_pos_iff.mp (by omega)
    obtain ⟨b, more⟩ : ∃ b, first.count b < ((sortedBy key xs).take first.length).count b := by
      by_contra none
      push Not at none
      have fewer : ((sortedBy key xs).take first.length).Subperm first :=
        List.subperm_ext_iff.mpr fun a _ => none a
      have same := fewer.perm_of_length_le length.ge
      have := same.count_eq a
      omega
    have kept : b ∈ (sortedBy key xs).take first.length := List.count_pos_iff.mp (by omega)
    have other : b ∈ later := by
      have := counts b
      exact List.count_pos_iff.mp (by omega)
    rcases before a wanted b other with less | rfl
    · exact absurd (take_sortedBy_le kept cut) (not_le.mpr less)
    · omega
  exact (covers.perm_of_length_le length.le).symm

/-- Sorting by a key that tells the elements apart depends on neither the order they
come in nor how the key is computed. -/
theorem sortedBy_congr {key key' : α → κ} {xs ys : List α} (same : xs.Perm ys)
    (keys : ∀ a ∈ xs, key a = key' a) (distinct : Function.Injective key) :
    sortedBy key xs = sortedBy key' ys := by
  have sorted : (sortedBy key' ys).Pairwise fun a b => key a ≤ key b := by
    refine (sortedBy_pairwise key' ys).imp_of_mem fun {a b} inA inB le => ?_
    rwa [keys a (same.mem_iff.mpr (mem_sortedBy.mp inA)), keys b (same.mem_iff.mpr (mem_sortedBy.mp inB))]
  have perm : (sortedBy key xs).Perm (sortedBy key' ys) :=
    (sortedBy_perm key xs).trans (same.trans (sortedBy_perm key' ys).symm)
  exact perm.eq_of_pairwise (fun a b _ _ le ge => distinct (le_antisymm le ge))
    (sortedBy_pairwise key xs) sorted

/-- The maximum depends on the elements only. -/
theorem max?_congr {xs ys : List κ} (same : ∀ a, a ∈ xs ↔ a ∈ ys) : xs.max? = ys.max? := by
  cases largest : xs.max? with
  | none =>
    have empty : ys = [] := List.eq_nil_iff_forall_not_mem.mpr fun a member => by
      rw [List.max?_eq_none_iff.mp largest] at same
      exact absurd ((same a).mpr member) List.not_mem_nil
    rw [empty, List.max?_nil]
  | some m =>
    obtain ⟨member, bound⟩ := List.max?_eq_some_iff.mp largest
    exact (List.max?_eq_some_iff.mpr ⟨(same m).mp member, fun a inYs => bound a ((same a).mpr inYs)⟩).symm

/-- `max` keeps the first of the greatest elements. -/
theorem argmax_cons_of_le {f : α → κ} {a : α} {xs : List α} [DecidableEq α]
    (greatest : ∀ b ∈ xs, f b ≤ f a) : (a :: xs).argmax f = some a := by
  refine List.argmax_eq_some_iff.mpr ⟨List.mem_cons_self, ?_, fun b _ _ => ?_⟩
  · simpa using greatest
  · simp

/-- `max` of an association by its values is found at the key whose own value is
the greatest. -/
theorem argmax_map (g : β → α) (f : α → κ) (xs : List β) :
    (xs.map g).argmax f = (xs.argmax (f ∘ g)).map g := by
  induction xs using List.reverseRecOn with
  | nil => rfl
  | append_singleton xs b ih =>
    rw [List.map_append, List.map_singleton, List.argmax_concat, List.argmax_concat, ih]
    cases xs.argmax (f ∘ g) with
    | none => rfl
    | some c =>
      simp only [Option.map_some, Function.comp_apply]
      split <;> rfl

theorem argmax_congr {f g : α → κ} {xs : List α} (same : ∀ a ∈ xs, f a = g a) :
    xs.argmax f = xs.argmax g := by
  induction xs using List.reverseRecOn with
  | nil => rfl
  | append_singleton xs b ih =>
    have before := ih fun a member => same a (List.mem_append_left _ member)
    rw [List.argmax_concat, List.argmax_concat, before]
    cases best : xs.argmax g with
    | none => rfl
    | some c =>
      have atB := same b (by simp)
      have atC := same c (List.mem_append_left _ (List.argmax_mem best))
      simp only [atB, atC]

end Python
