import Mathlib.Data.List.Basic
import Mathlib.Data.List.Nodup

/-! Insertion-ordered dicts. Assigning to a present key keeps its place, a new
key goes to the end, so iteration order is a function of the assignments.
Raw entry lists carry the operations; `Dict` adds the uniqueness of keys. -/
namespace Python

variable {κ ν α : Type*} [DecidableEq κ]

/-- `d[k] = v` on the raw entries. -/
def assign (k : κ) (v : ν) : List (κ × ν) → List (κ × ν)
  | [] => [(k, v)]
  | (j, w) :: rest => if j = k then (j, v) :: rest else (j, w) :: assign k v rest

theorem assign_keys (k : κ) (v : ν) (entries : List (κ × ν)) :
    (assign k v entries).map Prod.fst =
      if k ∈ entries.map Prod.fst then entries.map Prod.fst else entries.map Prod.fst ++ [k] := by
  induction entries with
  | nil => simp [assign]
  | cons entry rest ih =>
    obtain ⟨j, w⟩ := entry
    by_cases same : j = k
    · simp [assign, same]
    · have other : k ≠ j := fun h => same h.symm
      simp only [assign, if_neg same, List.map_cons, ih, List.mem_cons, other, false_or]
      split <;> simp

theorem assign_fresh {k : κ} {v : ν} {entries : List (κ × ν)} (fresh : k ∉ entries.map Prod.fst) :
    assign k v entries = entries ++ [(k, v)] := by
  induction entries with
  | nil => rfl
  | cons entry rest ih =>
    obtain ⟨j, w⟩ := entry
    simp only [List.map_cons, List.mem_cons, not_or] at fresh
    have other : j ≠ k := fun same => fresh.1 same.symm
    simp only [assign, if_neg other, ih fresh.2, List.cons_append]

/-- Assigning keys that are all new appends the entries. -/
theorem foldl_assign {earlier pairs : List (κ × ν)}
    (distinct : ((earlier ++ pairs).map Prod.fst).Nodup) :
    pairs.foldl (fun entries pair => assign pair.1 pair.2 entries) earlier = earlier ++ pairs := by
  induction pairs generalizing earlier with
  | nil => simp
  | cons pair rest ih =>
    have fresh : pair.1 ∉ earlier.map Prod.fst := by
      simp only [List.map_append, List.map_cons, List.nodup_append] at distinct
      intro member
      exact distinct.2.2 _ member _ List.mem_cons_self rfl
    have split : earlier ++ pair :: rest = (earlier ++ [pair]) ++ rest := by simp
    rw [List.foldl_cons, assign_fresh fresh, ih (split ▸ distinct), split]

theorem lookup_assign (k k' : κ) (v : ν) (entries : List (κ × ν)) :
    (assign k v entries).lookup k' = if k' = k then some v else entries.lookup k' := by
  induction entries with
  | nil =>
    by_cases same : k' = k
    · simp [assign, same]
    · simp [assign, List.lookup_cons, same, beq_false_of_ne same]
  | cons entry rest ih =>
    obtain ⟨j, w⟩ := entry
    by_cases same : j = k
    · subst j
      by_cases here : k' = k
      · simp [assign, here]
      · simp [assign, List.lookup_cons, here, beq_false_of_ne here]
    · simp only [assign, if_neg same, List.lookup_cons, ih]
      by_cases here : k' = j
      · subst k'
        simp [same]
      · simp [beq_false_of_ne here]

theorem mem_keys_of_lookup {k : κ} {v : ν} {entries : List (κ × ν)}
    (found : entries.lookup k = some v) : (k, v) ∈ entries := by
  obtain ⟨before, after, rfl, _⟩ := List.lookup_eq_some_iff.mp found
  simp

theorem lookup_of_mem {k : κ} {v : ν} {entries : List (κ × ν)}
    (unique : (entries.map Prod.fst).Nodup) (member : (k, v) ∈ entries) :
    entries.lookup k = some v := by
  induction entries with
  | nil => cases member
  | cons entry rest ih =>
    obtain ⟨j, w⟩ := entry
    simp only [List.map_cons, List.nodup_cons] at unique
    rcases List.mem_cons.mp member with same | later
    · cases same
      simp
    · have different : k ≠ j := by
        rintro rfl
        exact unique.1 (List.mem_map.mpr ⟨_, later, rfl⟩)
      simpa [List.lookup_cons, beq_false_of_ne different] using ih unique.2 later

structure Dict (κ ν : Type*) where
  items : List (κ × ν)
  unique : (items.map Prod.fst).Nodup

namespace Dict

def empty : Dict κ ν := ⟨[], by simp⟩

def get? (d : Dict κ ν) (k : κ) : Option ν := d.items.lookup k

def set (d : Dict κ ν) (k : κ) (v : ν) : Dict κ ν where
  items := assign k v d.items
  unique := by
    rw [assign_keys]
    split
    · exact d.unique
    · rename_i fresh
      rw [List.nodup_append]
      refine ⟨d.unique, by simp, ?_⟩
      rintro a ha b hb rfl
      exact fresh (List.mem_singleton.mp hb ▸ ha)

def keys (d : Dict κ ν) : List κ := d.items.map Prod.fst

def values (d : Dict κ ν) : List ν := d.items.map Prod.snd

def size (d : Dict κ ν) : Nat := d.items.length

omit [DecidableEq κ] in
@[ext] theorem ext {d e : Dict κ ν} (same : d.items = e.items) : d = e := by
  cases d; cases e; cases same; rfl

@[simp] theorem get?_empty (k : κ) : (empty : Dict κ ν).get? k = none := rfl

@[simp] theorem get?_set (d : Dict κ ν) (k k' : κ) (v : ν) :
    (d.set k v).get? k' = if k' = k then some v else d.get? k' :=
  lookup_assign k k' v d.items

theorem mem_keys_set (d : Dict κ ν) (k k' : κ) (v : ν) :
    k' ∈ (d.set k v).keys ↔ k' = k ∨ k' ∈ d.keys := by
  have keys : (d.set k v).keys = if k ∈ d.keys then d.keys else d.keys ++ [k] := assign_keys k v d.items
  rw [keys]
  split_ifs with known
  · exact ⟨.inr, fun either => either.elim (fun same => same ▸ known) id⟩
  · rw [List.mem_append, List.mem_singleton, or_comm]

/-- `{k: v for k, v in pairs}` over distinct keys. -/
theorem items_foldl_set (pairs : List (κ × ν)) (distinct : (pairs.map Prod.fst).Nodup) :
    (pairs.foldl (fun d pair => d.set pair.1 pair.2) (empty : Dict κ ν)).items = pairs := by
  have raw : ∀ (d : Dict κ ν), (pairs.foldl (fun d pair => d.set pair.1 pair.2) d).items =
      pairs.foldl (fun entries pair => assign pair.1 pair.2 entries) d.items := by
    induction pairs with
    | nil => exact fun _ => rfl
    | cons pair rest ih => exact fun d => ih (List.nodup_cons.mp distinct).2 (d.set pair.1 pair.2)
  rw [raw]
  exact foldl_assign distinct

omit [DecidableEq κ] in
theorem keys_mapValues {μ : Type*} (f : ν → μ) (entries : List (κ × ν)) :
    (entries.map fun entry => (entry.1, f entry.2)).map Prod.fst = entries.map Prod.fst := by
  rw [List.map_map]
  rfl

/-- `{k: f(v) for k, v in d.items()}`. -/
def mapValues {μ : Type*} (f : ν → μ) (d : Dict κ ν) : Dict κ μ where
  items := d.items.map fun entry => (entry.1, f entry.2)
  unique := by
    rw [keys_mapValues]
    exact d.unique

theorem get?_mapValues {μ : Type*} (f : ν → μ) (d : Dict κ ν) (k : κ) :
    (d.mapValues f).get? k = (d.get? k).map f := by
  change (d.items.map fun entry => (entry.1, f entry.2)).lookup k = (d.items.lookup k).map f
  induction d.items with
  | nil => rfl
  | cons entry rest ih =>
    rw [List.map_cons, List.lookup_cons, List.lookup_cons, ih]
    cases k == entry.1 <;> rfl

theorem mapValues_set {μ : Type*} (f : ν → μ) (d : Dict κ ν) (k : κ) (v : ν) :
    (d.set k v).mapValues f = (d.mapValues f).set k (f v) := by
  apply ext
  change (assign k v d.items).map _ = assign k (f v) (d.items.map _)
  induction d.items with
  | nil => rfl
  | cons entry rest ih =>
    rw [assign, List.map_cons, assign]
    split_ifs
    · rfl
    · rw [List.map_cons, ih]

/-- `{k: f(k) for k in keys}` over distinct keys. -/
def ofKeys (keys : List κ) (distinct : keys.Nodup) (f : κ → ν) : Dict κ ν where
  items := keys.map fun k => (k, f k)
  unique := by simpa [Function.comp_def] using distinct

theorem mem_items_iff (d : Dict κ ν) {k : κ} {v : ν} : (k, v) ∈ d.items ↔ d.get? k = some v :=
  ⟨lookup_of_mem d.unique, mem_keys_of_lookup⟩

theorem get?_ofKeys (keys : List κ) (distinct : keys.Nodup) (f : κ → ν) (k : κ) :
    (ofKeys keys distinct f).get? k = if k ∈ keys then some (f k) else none := by
  split
  · rename_i member
    exact (mem_items_iff _).mp (List.mem_map.mpr ⟨k, member, rfl⟩)
  · rename_i absent
    rw [Option.eq_none_iff_forall_not_mem]
    intro v found
    obtain ⟨k', member, same⟩ := List.mem_map.mp ((mem_items_iff _).mpr found)
    cases same
    exact absent member

end Dict
end Python
