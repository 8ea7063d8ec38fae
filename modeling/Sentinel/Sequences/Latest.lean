import Sentinel.Python.Ordering

/-! The latest of a list of stamped values at a given time: a scan of the sorted list that
stops at the first later value. Of two values with one stamp the one that came last is the
latest, and before the first value there is only the first. -/
namespace Sequences
open Python

variable {α κ : Type*} [LinearOrder κ]

/-- `for a in xs: if key(a) <= limit: chosen = a else: break`. -/
def latestUpTo (key : α → κ) (limit : κ) (chosen : α) : List α → α
  | [] => chosen
  | a :: rest => if key a ≤ limit then latestUpTo key limit a rest else chosen

/-- The value that holds at the limit, of values in the order they came. -/
inductive Holds (key : α → κ) (limit : κ) : List α → α → Prop where
  | reached (earlier a later) : key a ≤ limit →
      (∀ b ∈ earlier, key b ≤ limit → key b ≤ key a) →
      (∀ b ∈ later, key b ≤ limit → key b < key a) → Holds key limit (earlier ++ a :: later) a
  | early (earlier a later) : limit < key a → (∀ b ∈ earlier, key a < key b) →
      (∀ b ∈ later, key a ≤ key b) → Holds key limit (earlier ++ a :: later) a

variable {key : α → κ} {limit : κ}

theorem filter_orderedInsert (a : α) (xs : List α) (k : κ) :
    (xs.orderedInsert (fun a b => key a ≤ key b) a).filter (fun b => key b = k) =
      (a :: xs).filter fun b => key b = k := by
  induction xs with
  | nil => rfl
  | cons b rest ih =>
    rw [List.orderedInsert_cons]
    split_ifs with le
    · rfl
    · rw [List.filter_cons, ih]
      have lt := lt_of_not_ge le
      by_cases atB : key b = k
      · have notA : key a ≠ k := by
          rintro rfl
          exact absurd atB lt.ne
        simp [atB, notA]
      · simp [List.filter_cons, atB]

/-- Sorting keeps the order of the values of one key. -/
theorem filter_key_sortedBy (key : α → κ) (xs : List α) (k : κ) :
    (sortedBy key xs).filter (fun b => key b = k) = xs.filter fun b => key b = k := by
  induction xs with
  | nil => rfl
  | cons a rest ih =>
    rw [sortedBy, List.insertionSort_cons, filter_orderedInsert, List.filter_cons, List.filter_cons]
    change (if _ then a :: (sortedBy key rest).filter _ else (sortedBy key rest).filter _) = _
    rw [ih]

/-- The scan ends at the last value that is not later than the limit. -/
theorem latestUpTo_split {xs : List α} (sorted : xs.Pairwise fun a b => key a ≤ key b) {chosen : α}
    (within : key chosen ≤ limit) (least : ∀ a ∈ xs, key chosen ≤ key a) :
    ∃ before after, chosen :: xs = before ++ latestUpTo key limit chosen xs :: after ∧
      key (latestUpTo key limit chosen xs) ≤ limit ∧
      (∀ b ∈ before, key b ≤ key (latestUpTo key limit chosen xs)) ∧ ∀ b ∈ after, limit < key b := by
  induction xs generalizing chosen with
  | nil => exact ⟨[], [], rfl, within, by simp, by simp⟩
  | cons a rest ih =>
    rw [List.pairwise_cons] at sorted
    rw [latestUpTo]
    split_ifs with le
    · obtain ⟨before, after, split, reached, below, above⟩ := ih sorted.2 le sorted.1
      refine ⟨chosen :: before, after, by rw [split]; rfl, reached, ?_, above⟩
      rw [List.forall_mem_cons]
      refine ⟨?_, below⟩
      have member : latestUpTo key limit a rest ∈ a :: rest := by simp [split]
      exact least _ member
    · refine ⟨[], a :: rest, rfl, within, by simp, ?_⟩
      rw [List.forall_mem_cons]
      exact ⟨lt_of_not_ge le, fun b member => (lt_of_not_ge le).trans_le (sorted.1 b member)⟩

/-- The last value of its key in the sorted list is the last one that came. -/
theorem last_of_key {xs before after : List α} {a : α}
    (split : sortedBy key xs = before ++ a :: after) (last : ∀ b ∈ after, key b ≠ key a) :
    ∃ earlier later, xs = earlier ++ a :: later ∧ ∀ b ∈ later, key b ≠ key a := by
  have none : after.filter (fun b => key b = key a) = [] := by simpa using last
  have kept := filter_key_sortedBy key xs (key a)
  rw [split, List.filter_append, List.filter_cons_of_pos (by simp), none] at kept
  obtain ⟨earlier, rest, rfl, -, ends⟩ := List.filter_eq_append_iff.mp kept.symm
  obtain ⟨skipped, later, rfl, -, -, nothing⟩ := List.filter_eq_cons_iff.mp ends
  refine ⟨earlier ++ skipped, later, by rw [List.append_assoc], ?_⟩
  simpa using nothing

theorem first_of_key {xs rest : List α} {a : α} (sorted : sortedBy key xs = a :: rest) :
    ∃ earlier later, xs = earlier ++ a :: later ∧ ∀ b ∈ earlier, key b ≠ key a := by
  have kept := filter_key_sortedBy key xs (key a)
  rw [sorted, List.filter_cons_of_pos (by simp)] at kept
  obtain ⟨earlier, later, rfl, others, -, -⟩ := List.filter_eq_cons_iff.mp kept.symm
  refine ⟨earlier, later, rfl, fun b member => ?_⟩
  simpa using others b member

/-- The scan over the sorted values, started at their first, finds the one that holds. -/
theorem holds_latestUpTo {xs rest : List α} {first : α} (sorted : sortedBy key xs = first :: rest) :
    Holds key limit xs (latestUpTo key limit first (first :: rest)) := by
  have ordered := sortedBy_pairwise key xs
  rw [sorted, List.pairwise_cons] at ordered
  by_cases within : key first ≤ limit
  · rw [latestUpTo, if_pos within]
    obtain ⟨before, after, split, reached, below, above⟩ :=
      latestUpTo_split ordered.2 within ordered.1
    generalize latestUpTo key limit first rest = a at *
    have last : ∀ b ∈ after, key b ≠ key a := fun b member same =>
      absurd (same ▸ reached) (above b member).not_ge
    obtain ⟨earlier, later, rfl, after'⟩ := last_of_key (sorted.trans split) last
    have le : ∀ b ∈ earlier ++ a :: later, key b ≤ limit → key b ≤ key a := by
      intro b member le
      rw [← (sortedBy_perm key _).mem_iff, sorted, split, List.mem_append, List.mem_cons] at member
      rcases member with member | rfl | member
      · exact below b member
      · exact le_refl _
      · exact absurd le (above b member).not_ge
    refine .reached earlier a later reached (fun b member => le b (by simp [member])) ?_
    intro b member within
    exact lt_of_le_of_ne (le b (by simp [member]) within) (after' b member)
  · rw [latestUpTo, if_neg within]
    obtain ⟨earlier, later, rfl, others⟩ := first_of_key sorted
    have le : ∀ b ∈ earlier ++ first :: later, key first ≤ key b := by
      intro b member
      rw [← (sortedBy_perm key _).mem_iff, sorted, List.mem_cons] at member
      rcases member with rfl | member
      · exact le_refl _
      · exact ordered.1 b member
    refine .early earlier first later (lt_of_not_ge within) ?_ fun b member => le b (by simp [member])
    exact fun b member => lt_of_le_of_ne (le b (by simp [member])) (others b member).symm

end Sequences
