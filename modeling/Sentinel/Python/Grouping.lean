import Sentinel.Python.Dict

/-! Loops over rows: keeping the first row of each key, with a set of the keys seen,
collecting the rows of each key in a dict of lists, and taking rows in batches. -/
namespace Python

variable {α κ : Type*} [DecidableEq κ]

/-- The rows whose key is neither seen nor that of an earlier row. -/
def keepFirst (key : α → κ) : List κ → List α → List α
  | _, [] => []
  | seen, a :: rest =>
    if key a ∈ seen then keepFirst key seen rest else a :: keepFirst key (key a :: seen) rest

theorem mem_keepFirst {key : α → κ} {seen : List κ} {rows : List α} {a : α}
    (member : a ∈ keepFirst key seen rows) : a ∈ rows ∧ key a ∉ seen := by
  induction rows generalizing seen with
  | nil => cases member
  | cons b rest ih =>
    rw [keepFirst] at member
    split at member
    · exact ⟨List.mem_cons_of_mem b (ih member).1, (ih member).2⟩
    · rename_i fresh
      rcases List.mem_cons.mp member with rfl | later
      · exact ⟨List.mem_cons_self, fresh⟩
      · exact ⟨List.mem_cons_of_mem b (ih later).1,
          fun known => (ih later).2 (List.mem_cons_of_mem _ known)⟩

theorem keepFirst_nodup (key : α → κ) (seen : List κ) (rows : List α) :
    ((keepFirst key seen rows).map key).Nodup := by
  induction rows generalizing seen with
  | nil => exact List.nodup_nil
  | cons b rest ih =>
    rw [keepFirst]
    split
    · exact ih seen
    · rw [List.map_cons, List.nodup_cons]
      refine ⟨fun again => ?_, ih _⟩
      obtain ⟨c, member, same⟩ := List.mem_map.mp again
      exact (mem_keepFirst member).2 (same ▸ List.mem_cons_self)

/-- A last row is kept where its key is new. -/
theorem keepFirst_append_singleton (key : α → κ) (seen : List κ) (rows : List α) (a : α) :
    keepFirst key seen (rows ++ [a]) =
      if key a ∈ seen ∨ key a ∈ rows.map key then keepFirst key seen rows
      else keepFirst key seen rows ++ [a] := by
  induction rows generalizing seen with
  | nil => simp [keepFirst]
  | cons b rest ih =>
    simp only [List.cons_append, keepFirst, ih, List.map_cons, List.mem_cons]
    by_cases known : key b ∈ seen
    · have absorbed : (key a ∈ seen ∨ key a = key b ∨ key a ∈ rest.map key) ↔
          (key a ∈ seen ∨ key a ∈ rest.map key) := by
        refine ⟨?_, by tauto⟩
        rintro (h | same | h)
        exacts [.inl h, .inl (same ▸ known), .inr h]
      simp only [known, if_true, absorbed]
    · simp only [known, if_false]
      split_ifs <;> first | rfl | tauto

theorem keepFirst_sublist (key : α → κ) (seen : List κ) (rows : List α) :
    (keepFirst key seen rows).Sublist rows := by
  induction rows generalizing seen with
  | nil => exact .slnil
  | cons b rest ih =>
    rw [keepFirst]
    split
    · exact (ih seen).cons b
    · exact (ih _).cons_cons b

/-- What is kept stands before the other rows of its key. -/
theorem keepFirst_first {key : α → κ} {seen : List κ} {rows : List α} {a b : α}
    (kept : b ∈ keepFirst key seen rows) (member : a ∈ rows) (same : key a = key b) :
    a = b ∨ [b, a].Sublist rows := by
  induction rows generalizing seen with
  | nil => cases member
  | cons c rest ih =>
    rw [keepFirst] at kept
    split at kept
    · rename_i known
      rcases List.mem_cons.mp member with rfl | later
      · exact absurd (same ▸ known) (mem_keepFirst kept).2
      · exact (ih kept later).imp id fun before => before.cons c
    · rcases List.mem_cons.mp kept with rfl | later
      · rcases List.mem_cons.mp member with rfl | after
        · exact .inl rfl
        · exact .inr ((List.singleton_sublist.mpr after).cons_cons b)
      · rcases List.mem_cons.mp member with rfl | after
        · exact absurd (same ▸ List.mem_cons_self) (mem_keepFirst later).2
        · exact (ih later after).imp id fun before => before.cons c

/-- No key is lost. -/
theorem keepFirst_covers {key : α → κ} {seen : List κ} {rows : List α} {a : α}
    (member : a ∈ rows) (fresh : key a ∉ seen) :
    ∃ b ∈ keepFirst key seen rows, key b = key a := by
  induction rows generalizing seen with
  | nil => cases member
  | cons b rest ih =>
    rw [keepFirst]
    split
    · rename_i known
      rcases List.mem_cons.mp member with rfl | later
      · exact absurd known fresh
      · exact ih later fresh
    · by_cases same : key b = key a
      · exact ⟨b, List.mem_cons_self, same⟩
      · have later : a ∈ rest := by
          rcases List.mem_cons.mp member with rfl | later
          · exact absurd rfl same
          · exact later
        have unseen : key a ∉ key b :: seen := by
          rw [List.mem_cons, not_or]
          exact ⟨fun h => same h.symm, fresh⟩
        obtain ⟨c, kept, at_a⟩ := ih later unseen
        exact ⟨c, List.mem_cons_of_mem b kept, at_a⟩

theorem keepFirst_eq_self {key : α → κ} {seen : List κ} {rows : List α}
    (unique : (rows.map key).Nodup) (fresh : ∀ a ∈ rows, key a ∉ seen) :
    keepFirst key seen rows = rows := by
  induction rows generalizing seen with
  | nil => rfl
  | cons b rest ih =>
    rw [List.map_cons, List.nodup_cons] at unique
    rw [List.forall_mem_cons] at fresh
    have later : ∀ a ∈ rest, key a ∉ key b :: seen := by
      intro a member
      rw [List.mem_cons, not_or]
      exact ⟨fun same => unique.1 (same ▸ List.mem_map_of_mem member), fresh.2 a member⟩
    rw [keepFirst, if_neg fresh.1, ih unique.2 later]

/-- Where rows of one key are the same, exactly the rows are kept. -/
theorem mem_keepFirst_iff {key : α → κ} {rows : List α}
    (consistent : ∀ a ∈ rows, ∀ b ∈ rows, key a = key b → a = b) {a : α} :
    a ∈ keepFirst key [] rows ↔ a ∈ rows := by
  refine ⟨fun kept => (mem_keepFirst kept).1, fun member => ?_⟩
  have fresh : key a ∉ ([] : List κ) := List.not_mem_nil
  obtain ⟨b, kept, same⟩ := keepFirst_covers member fresh
  rw [← consistent b (mem_keepFirst kept).1 a member same]
  exact kept

@[simp] theorem mem_keepFirst_id {rows : List κ} {a : κ} : a ∈ keepFirst id [] rows ↔ a ∈ rows :=
  mem_keepFirst_iff fun _ _ _ _ same => same

/-- `d.setdefault(key(a), []).append(a)` for each row that has a key. -/
def collect (key : α → Option κ) (d : Dict κ (List α)) : List α → Dict κ (List α)
  | [] => d
  | a :: rest =>
    match key a with
    | some k => collect key (d.set k ((d.get? k).getD [] ++ [a])) rest
    | none => collect key d rest

theorem get?_collect (key : α → Option κ) (d : Dict κ (List α)) (rows : List α) (k : κ) :
    ((collect key d rows).get? k).getD [] =
      (d.get? k).getD [] ++ rows.filter fun a => key a = some k := by
  induction rows generalizing d with
  | nil => simp [collect]
  | cons a rest ih =>
    cases found : key a with
    | none => simp [collect, found, ih]
    | some j =>
      simp only [collect, found, ih, Dict.get?_set, List.filter_cons, Option.some.injEq]
      by_cases same : k = j
      · simp [same]
      · have other : j ≠ k := fun h => same h.symm
        simp [same, other]

theorem mem_keys_collect (key : α → Option κ) (d : Dict κ (List α)) (rows : List α) (k : κ) :
    k ∈ (collect key d rows).keys ↔ k ∈ d.keys ∨ ∃ a ∈ rows, key a = some k := by
  induction rows generalizing d with
  | nil => simp [collect]
  | cons a rest ih =>
    cases found : key a with
    | none => simp [collect, found, ih]
    | some j =>
      simp only [collect, found, ih, Dict.mem_keys_set, List.mem_cons, exists_eq_or_imp, Option.some.injEq,
        eq_comm (a := j), or_assoc, or_left_comm]

theorem items_collect (key : α → Option κ) (rows : List α) :
    (collect key .empty rows).items =
      (collect key .empty rows).keys.map fun k => (k, rows.filter fun a => key a = some k) := by
  rw [Dict.keys, List.map_map]
  refine (List.map_id _).symm.trans (List.map_congr_left fun (k, found) member => ?_)
  have kept := get?_collect key .empty rows k
  rw [(Dict.mem_items_iff _).mp member] at kept
  simpa using kept

/-- The pairs of a dict of lists. -/
def pairs (items : List (κ × List α)) : List (κ × α) :=
  items.flatMap fun (k, rows) => rows.map fun a => (k, a)

theorem assign_pairs (k : κ) (a : α) (items : List (κ × List α)) :
    (pairs (assign k ((items.lookup k).getD [] ++ [a]) items)).Perm (pairs items ++ [(k, a)]) := by
  induction items with
  | nil => simp [assign, pairs]
  | cons entry rest ih =>
    obtain ⟨j, rows⟩ := entry
    by_cases same : j = k
    · subst j
      simp only [pairs, assign, if_true, List.lookup_cons_self, Option.getD_some, List.flatMap_cons,
        List.map_append, List.map_singleton, List.append_assoc]
      exact (List.perm_append_comm).append_left _
    · have other : k ≠ j := fun h => same h.symm
      simp only [pairs, assign, if_neg same, List.lookup_cons, beq_false_of_ne other,
        List.flatMap_cons, List.append_assoc] at ih ⊢
      exact ih.append_left _

/-- Each row is collected once, under its key. -/
theorem collect_pairs (key : α → κ) (d : Dict κ (List α)) (rows : List α) :
    (pairs (collect (fun a => some (key a)) d rows).items).Perm
      (pairs d.items ++ rows.map fun a => (key a, a)) := by
  induction rows generalizing d with
  | nil => simp [collect]
  | cons a rest ih =>
    rw [collect, List.map_cons]
    have added := (assign_pairs (key a) a d.items).append_right (rest.map fun a => (key a, a))
    rw [List.append_assoc, List.singleton_append] at added
    exact (ih _).trans added

/-- `rows[i:i + size]` for `i` in `range(0, len(rows), size)`. -/
def inBatches (size : ℕ) (rows : List α) : List (List α) :=
  (List.range ((rows.length + size - 1) / size)).map fun i => (rows.drop (i * size)).take size

omit [DecidableEq κ] in
theorem inBatches_flatten {size : ℕ} (positive : 0 < size) (rows : List α) :
    (inBatches size rows).flatten = rows := by
  have first : ∀ n, ((List.range n).map fun i => (rows.drop (i * size)).take size).flatten =
      rows.take (n * size) := by
    intro n
    induction n with
    | zero => simp
    | succ n ih => simp [List.range_succ, ih, Nat.succ_mul, List.take_add]
  rw [inBatches, first, List.take_of_length_le]
  have := Nat.lt_div_mul_add positive (a := rows.length + size - 1)
  omega

end Python
