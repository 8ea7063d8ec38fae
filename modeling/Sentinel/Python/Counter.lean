import Mathlib.Data.List.Count
import Sentinel.Python.Grouping
import Sentinel.Python.Ordering

/-! Counting in a dict, and the most frequent of several values: of equally frequent
ones, `max` and `Counter.most_common(1)` both give the one that was met first. -/
namespace Python

section Count
variable {α : Type*} [DecidableEq α]

/-- `for a in xs: d[a] += 1`, over a `Counter` or a `defaultdict(int)`. -/
def tally (xs : List α) : Dict α ℕ := xs.foldl (fun d a => d.set a ((d.get? a).getD 0 + 1)) .empty

theorem tally_concat (xs : List α) (a : α) :
    tally (xs ++ [a]) = (tally xs).set a (((tally xs).get? a).getD 0 + 1) := by
  simp [tally]

theorem get?_tally (xs : List α) (a : α) :
    (tally xs).get? a = if a ∈ xs then some (xs.count a) else none := by
  induction xs using List.reverseRecOn with
  | nil => simp [tally]
  | append_singleton xs b ih =>
    rw [tally_concat, Dict.get?_set]
    by_cases same : a = b
    · subst same
      rw [ih]
      by_cases known : a ∈ xs
      · simp [known]
      · simp [known, List.count_eq_zero_of_not_mem known]
    · have other : b ≠ a := fun h => same h.symm
      simp [ih, same, List.count_append, other]

theorem keepFirst_concat (seen xs : List α) (a : α) :
    keepFirst id seen (xs ++ [a]) =
      if a ∈ seen ∨ a ∈ xs then keepFirst id seen xs else keepFirst id seen xs ++ [a] := by
  rw [keepFirst_append_singleton, List.map_id, id]

/-- The counts stand in the order in which their keys were met first. -/
theorem keys_tally (xs : List α) : (tally xs).keys = keepFirst id [] xs := by
  induction xs using List.reverseRecOn with
  | nil => rfl
  | append_singleton xs a ih =>
    have known : a ∈ (tally xs).items.map Prod.fst ↔ a ∈ xs := by
      rw [← Dict.keys, ih, mem_keepFirst_id]
    rw [tally_concat, Dict.keys, Dict.set, assign_keys, keepFirst_concat]
    simp only [known, List.not_mem_nil, false_or]
    rw [← Dict.keys, ih]

theorem items_tally (xs : List α) :
    (tally xs).items = (keepFirst id [] xs).map fun a => (a, xs.count a) := by
  have entry : ∀ p ∈ (tally xs).items, p = (p.1, xs.count p.1) := by
    rintro ⟨a, n⟩ member
    have found := (Dict.mem_items_iff _).mp member
    rw [get?_tally] at found
    split at found
    · rw [Option.some.inj found]
    · cases found
  rw [← keys_tally, Dict.keys, List.map_map]
  conv_lhs => rw [← List.map_id (tally xs).items]
  exact List.map_congr_left entry

theorem getD_tally (xs : List α) (a : α) : ((tally xs).get? a).getD 0 = xs.count a := by
  rw [get?_tally]
  split
  · rfl
  · rename_i absent
    rw [List.count_eq_zero_of_not_mem absent, Option.getD_none]

theorem tally_positive {xs : List α} {a : α} (met : a ∈ xs) : 0 < ((tally xs).get? a).getD 0 := by
  rw [getD_tally]
  exact List.count_pos_iff.mpr met

/-- Where the keys that `p` picks are made from `names`, they are counted as often. -/
theorem getD_tally_of_filter {β : Type*} [DecidableEq β] {xs : List α} {p : α → Bool}
    {names : List β} {key : β → α} (distinct : Function.Injective key)
    (keys : xs.filter p = names.map key) {b : β} (picked : p (key b) = true) :
    ((tally xs).get? (key b)).getD 0 = names.count b := by
  rw [getD_tally, ← List.count_filter picked, keys]
  exact List.count_map_of_injective names key distinct b

/-- The most frequent element, the one met first of several. -/
def mode (xs : List α) : Option α := xs.argmax xs.count

/-- An element that is met most often, and before the others that are. -/
structure Leads (xs : List α) (a : α) : Prop where
  met : a ∈ xs
  most : ∀ b ∈ xs, xs.count b ≤ xs.count a
  first : ∀ b ∈ xs, xs.count a ≤ xs.count b → xs.idxOf a ≤ xs.idxOf b

theorem mode_eq_some_iff {xs : List α} {a : α} : mode xs = some a ↔ Leads xs a := by
  rw [mode, List.argmax_eq_some_iff]
  constructor
  · rintro ⟨met, most, first⟩
    exact ⟨met, most, first⟩
  · intro leads
    exact ⟨leads.met, leads.most, leads.first⟩

theorem Leads.unique {xs : List α} {a b : α} (one : Leads xs a) (other : Leads xs b) : a = b := by
  rw [← mode_eq_some_iff] at one other
  exact Option.some.inj (one.symm.trans other)

theorem Leads.count_le {xs : List α} {a : α} (leads : Leads xs a) (b : α) :
    xs.count b ≤ xs.count a := by
  by_cases met : b ∈ xs
  · exact leads.most b met
  · rw [List.count_eq_zero_of_not_mem met]
    exact Nat.zero_le _

theorem leads_of_count {xs : List α} {a : α} (met : a ∈ xs)
    (most : ∀ b, b ≠ a → (xs.countP fun c => c = b) < xs.countP fun c => c = a) : Leads xs a := by
  have counts (b : α) : xs.count b = xs.countP fun c => c = b :=
    List.countP_congr fun c _ => by simp
  refine ⟨met, fun b _ => ?_, fun b _ often => ?_⟩
  · by_cases same : b = a
    · rw [same]
    · rw [counts, counts]
      exact (most b same).le
  · by_cases same : b = a
    · rw [same]
    · rw [counts, counts] at often
      exact absurd (most b same) (Nat.not_lt_of_le often)

/-- What is counted more often than another one has been met. -/
theorem leads_of_most {xs : List α} {a other : α} (ne : other ≠ a)
    (most : ∀ b, b ≠ a → (xs.countP fun c => c = b) < xs.countP fun c => c = a) : Leads xs a := by
  have positive := Nat.zero_lt_of_lt (most other ne)
  obtain ⟨found, member, same⟩ := List.countP_pos_iff.mp positive
  exact leads_of_count (of_decide_eq_true same ▸ member) most

theorem leads_of_forall {xs : List α} {a : α} (met : a ∈ xs) (all : ∀ b ∈ xs, b = a) : Leads xs a := by
  refine leads_of_count met fun b other => ?_
  have none : (xs.countP fun c => c = b) = 0 :=
    List.countP_eq_zero.mpr fun c member same => other ((of_decide_eq_true same).symm.trans (all c member))
  rw [none]
  exact List.countP_pos_iff.mpr ⟨a, met, decide_eq_true rfl⟩

theorem exists_leads {xs : List α} (nonempty : xs ≠ []) : ∃ a, Leads xs a := by
  have found : mode xs ≠ none := fun none => nonempty (List.argmax_eq_none.mp none)
  obtain ⟨a, best⟩ := Option.ne_none_iff_exists'.mp found
  exact ⟨a, mode_eq_some_iff.mp best⟩

theorem keepFirst_filter (p : α → Bool) (seen xs : List α) :
    (keepFirst id seen xs).filter p = keepFirst id (seen.filter p) (xs.filter p) := by
  induction xs generalizing seen with
  | nil => rfl
  | cons a rest ih =>
    by_cases kept : p a
    · have known : a ∈ seen.filter p ↔ a ∈ seen := by simp [kept]
      simp only [keepFirst, id, List.filter_cons, kept, if_true, known]
      split
      · exact ih seen
      · simp [ih, kept]
    · simp only [keepFirst, id, List.filter_cons, kept, Bool.false_eq_true, if_false]
      split
      · exact ih seen
      · simp [ih, kept]

/-- `Counter(xs).most_common(1)[0][0]`. -/
def mostCommon (d : Dict α ℕ) : Option α := (d.items.argmax Prod.snd).map Prod.fst

end Count

section Ordered
variable {α κ : Type*} [LinearOrder κ]

/-- Only first occurrences matter for the first greatest element. -/
theorem argmax_keepFirst [DecidableEq α] (f : α → κ) (xs : List α) :
    (keepFirst id [] xs).argmax f = xs.argmax f := by
  induction xs using List.reverseRecOn with
  | nil => rfl
  | append_singleton xs a ih =>
    rw [keepFirst_concat, List.argmax_concat]
    split
    · rename_i known
      have member : a ∈ xs := known.resolve_left List.not_mem_nil
      rw [ih]
      cases best : xs.argmax f with
      | none => rw [List.argmax_eq_none.mp best] at member; cases member
      | some b => simp [not_lt.mpr (List.le_of_mem_argmax member best)]
    · rw [List.argmax_concat, ih]

theorem mostCommon_tally [DecidableEq α] (xs : List α) : mostCommon (tally xs) = mode xs := by
  have values : (Prod.snd ∘ fun a => (a, xs.count a)) = xs.count := rfl
  have names : (Prod.fst ∘ fun a => (a, xs.count a)) = id := rfl
  rw [mostCommon, items_tally, argmax_map, Option.map_map, values, names, Option.map_id, id,
    argmax_keepFirst, mode]

theorem orderedInsert_first {key : α → κ} {a : α} {ys : List α} (least : ∀ b ∈ ys, key a ≤ key b) :
    ys.orderedInsert (fun b c => key b ≤ key c) a = a :: ys := by
  cases ys with
  | nil => rfl
  | cons b ys => rw [List.orderedInsert_cons, if_pos (least b List.mem_cons_self)]

theorem filter_orderedInsert {key : α → κ} (p : α → Bool) (a : α) {ys : List α}
    (ordered : ys.Pairwise fun b c => key b ≤ key c) :
    (ys.orderedInsert (fun b c => key b ≤ key c) a).filter p =
      if p a then (ys.filter p).orderedInsert (fun b c => key b ≤ key c) a else ys.filter p := by
  induction ys with
  | nil => simp [List.filter_singleton]
  | cons b ys ih =>
    rw [List.pairwise_cons] at ordered
    by_cases before : key a ≤ key b
    · have least : ∀ c ∈ b :: ys, key a ≤ key c := by
        intro c member
        rcases List.mem_cons.mp member with rfl | later
        · exact before
        · exact before.trans (ordered.1 c later)
      rw [orderedInsert_first least, List.filter_cons,
        orderedInsert_first fun c kept => least c (List.mem_of_mem_filter kept)]
    · rw [List.orderedInsert_cons, if_neg before, List.filter_cons, List.filter_cons, ih ordered.2]
      by_cases kept : p b
      · simp only [kept, if_true, List.orderedInsert_cons, if_neg before]
        split <;> rfl
      · simp only [kept, Bool.false_eq_true, if_false]

/-- A stable sort can be filtered before. -/
theorem filter_sortedBy (key : α → κ) (p : α → Bool) (xs : List α) :
    (sortedBy key xs).filter p = sortedBy key (xs.filter p) := by
  induction xs with
  | nil => rfl
  | cons a rest ih =>
    have insert := filter_orderedInsert p a (sortedBy_pairwise key rest)
    rw [ih] at insert
    rw [sortedBy, List.insertionSort_cons, ← sortedBy, insert, List.filter_cons]
    split
    · rw [sortedBy, sortedBy, List.insertionSort_cons]
    · rfl

/-- Of two elements of a sorted list the first has the lesser key, or the same key and
stood first before. -/
theorem sublist_of_sortedBy {key : α → κ} {xs : List α} {a b : α}
    (before : [a, b].Sublist (sortedBy key xs)) :
    key a < key b ∨ key a = key b ∧ [a, b].Sublist xs := by
  have le : key a ≤ key b :=
    List.pairwise_iff_forall_sublist.mp (sortedBy_pairwise key xs) before
  refine (lt_or_eq_of_le le).imp id fun same => ⟨same, ?_⟩
  -- among equal keys sorting moves nothing
  have unmoved : sortedBy key (xs.filter fun c => key c = key a) = xs.filter fun c => key c = key a := by
    refine List.Pairwise.insertionSort_eq (List.pairwise_of_forall_mem_list fun c inC d inD => ?_)
    have keyC : key c = key a := of_decide_eq_true (List.mem_filter.mp inC).2
    have keyD : key d = key a := of_decide_eq_true (List.mem_filter.mp inD).2
    exact (keyC.trans keyD.symm).le
  have kept := before.filter fun c => key c = key a
  rw [filter_sortedBy, unmoved] at kept
  simp only [List.filter_cons, decide_true, same.symm, if_true, List.filter_nil] at kept
  exact kept.trans List.filter_sublist

/-- The first of a stable sort, the greatest first, is what `max` finds. -/
theorem argmax_sortedBy [DecidableEq α] (f : α → κ) (xs : List α) :
    (sortedBy (fun a => OrderDual.toDual (f a)) xs).argmax f = xs.argmax f := by
  induction xs with
  | nil => rfl
  | cons a rest ih =>
    have sorted := sortedBy_pairwise (fun a => OrderDual.toDual (f a)) rest
    rw [List.argmax_cons, ← ih, sortedBy, List.insertionSort_cons, ← sortedBy]
    cases front : sortedBy (fun a => OrderDual.toDual (f a)) rest with
    | nil => rfl
    | cons b ys =>
      rw [front, List.pairwise_cons] at sorted
      have first : (b :: ys).argmax f = some b := argmax_cons_of_le sorted.1
      by_cases before : f b ≤ f a
      · have least : OrderDual.toDual (f a) ≤ OrderDual.toDual (f b) := before
        rw [List.orderedInsert_cons, if_pos least, List.argmax_cons]
      · have later : ¬ OrderDual.toDual (f a) ≤ OrderDual.toDual (f b) := before
        rw [List.orderedInsert_cons, if_neg later, first, argmax_cons_of_le]
        · simp [not_le.mp before]
        · intro c member
          rcases List.mem_cons.mp ((List.perm_orderedInsert _ a ys).mem_iff.mp member) with rfl | inYs
          · exact (not_le.mp before).le
          · exact sorted.1 c inYs

end Ordered

end Python
