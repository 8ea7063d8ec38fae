import Sentinel.Python.JsonRoundtrip
import Sentinel.Python.Values

/-! Merging of nested dicts: two dicts are merged key by key, and any other value is
replaced by the later one. What the later value does not reach stays as it was. -/
namespace Python

mutual
def deepMerge : Json → Json → Json
  | .dict base, .dict entries => .dict (mergeEntries base entries)
  | _, override => override

def mergeEntries : List (String × Json) → List (String × Json) → List (String × Json)
  | out, [] => out
  | out, (key, v) :: rest =>
    mergeEntries (assign key ((out.lookup key).elim v fun w => deepMerge w v) out) rest
end

theorem lookup_mergeEntries {entries : List (String × Json)} (unique : (entries.map Prod.fst).Nodup)
    (out : List (String × Json)) (k : String) :
    (mergeEntries out entries).lookup k = (entries.lookup k).elim (out.lookup k) fun v =>
      some ((out.lookup k).elim v fun w => deepMerge w v) := by
  induction entries generalizing out with
  | nil => rw [mergeEntries]; rfl
  | cons entry rest ih =>
    obtain ⟨key, v⟩ := entry
    rw [List.map_cons, List.nodup_cons] at unique
    rw [mergeEntries, ih unique.2, lookup_assign, List.lookup_cons]
    by_cases same : k = key
    · subst same
      have absent : rest.lookup k = none := by
        rw [Option.eq_none_iff_forall_ne_some]
        intro w found
        exact unique.1 (List.mem_map.mpr ⟨_, mem_keys_of_lookup found, rfl⟩)
      simp [absent]
    · simp [same, beq_false_of_ne same]

theorem assign_lookup {k : String} {v : Json} {entries : List (String × Json)}
    (found : entries.lookup k = some v) : assign k v entries = entries := by
  induction entries with
  | nil => cases found
  | cons entry rest ih =>
    obtain ⟨j, w⟩ := entry
    rw [List.lookup_cons] at found
    by_cases same : k = j
    · subst same
      rw [beq_self_eq_true] at found
      obtain rfl := Option.some.inj found
      rw [assign, if_pos rfl]
    · rw [beq_false_of_ne same] at found
      rw [assign, if_neg (Ne.symm same), ih found]

mutual
/-- A value that Python can hold is merged with itself to itself. -/
theorem deepMerge_self (v : Json) (keyed : v.keyed = true) : deepMerge v v = v := by
  match v with
  | .null | .bool _ | .int _ | .float _ | .str _ | .list _ => rw [deepMerge]; rintro _ _ ⟨⟩
  | .dict entries =>
    simp only [Json.keyed, Bool.and_eq_true, decide_eq_true_eq] at keyed
    rw [deepMerge, mergeEntries_known entries entries keyed.2 fun entry member =>
      lookup_of_mem keyed.1 member]

theorem mergeEntries_known (out entries : List (String × Json)) (keyed : entriesKeyed entries = true)
    (known : ∀ entry ∈ entries, out.lookup entry.1 = some entry.2) : mergeEntries out entries = out := by
  match entries with
  | [] => rw [mergeEntries]
  | (key, v) :: rest =>
    simp only [entriesKeyed, Bool.and_eq_true] at keyed
    rw [List.forall_mem_cons] at known
    rw [mergeEntries, known.1, Option.elim_some, deepMerge_self v keyed.1, assign_lookup known.1,
      mergeEntries_known out rest keyed.2 known.2]
end

/-! ### Paths -/

namespace Json

/-- The value at a path of keys. -/
def dig : Json → List String → Option Json
  | v, [] => some v
  | v, key :: rest => (v.lookup key).bind fun w => w.dig rest

/-- At the path, the override says what the base says, or nothing. -/
inductive Agrees : List String → Json → Json → Prop where
  | same (path v) : v.keyed = true → Agrees path v v
  | absent {key rest base entries} : entries.lookup key = none → Agrees (key :: rest) base (.dict entries)
  | inside {key rest base entries v w} : entries.lookup key = some v → base.lookup key = some w →
      Agrees rest w v → Agrees (key :: rest) base (.dict entries)
  | fresh {key rest base entries v} : entries.lookup key = some v → base.lookup key = none →
      v.dig rest = none → Agrees (key :: rest) base (.dict entries)

/-- Elsewhere below a key, as far as the override says something there. -/
theorem Agrees.deeper {key : String} {rest : List String} {base v : Json}
    {entries : List (String × Json)} (found : entries.lookup key = some v)
    (there : ∀ w, base.lookup key = some w → Agrees rest w v)
    (nothing : base.lookup key = none → v.dig rest = none) :
    Agrees (key :: rest) base (.dict entries) := by
  cases known : base.lookup key with
  | none => exact .fresh found known (nothing known)
  | some w => exact .inside found known (there w known)

end Json

theorem lookup_deepMerge (base : Json) {entries : List (String × Json)}
    (unique : (entries.map Prod.fst).Nodup) (k : String) :
    (deepMerge base (.dict entries)).lookup k = (entries.lookup k).elim (base.lookup k) fun v =>
      some ((base.lookup k).elim v fun w => deepMerge w v) := by
  cases base with
  | dict out =>
    rw [deepMerge]
    exact lookup_mergeEntries unique out k
  | _ =>
    rw [deepMerge]
    · change entries.lookup k = (entries.lookup k).elim none fun v => some v
      cases entries.lookup k <;> rfl
    · rintro _ _ ⟨⟩

theorem keyed_of_lookup {entries : List (String × Json)} {k : String} {v : Json}
    (keyed : entriesKeyed entries = true) (found : entries.lookup k = some v) : v.keyed = true := by
  induction entries with
  | nil => cases found
  | cons entry rest ih =>
    obtain ⟨j, w⟩ := entry
    simp only [entriesKeyed, Bool.and_eq_true] at keyed
    rw [List.lookup_cons] at found
    cases same : k == j with
    | true =>
      rw [same] at found
      obtain rfl := Option.some.inj found
      exact keyed.1
    | false =>
      rw [same] at found
      exact ih keyed.2 found

/-- Where the override agrees with the base, the base is kept. -/
theorem dig_deepMerge {path : List String} {base override : Json} (keyed : override.keyed = true)
    (agrees : Json.Agrees path base override) : (deepMerge base override).dig path = base.dig path := by
  induction agrees with
  | same path v keyed => rw [deepMerge_self v keyed]
  | @absent key rest base entries none =>
    simp only [Json.keyed, Bool.and_eq_true, decide_eq_true_eq] at keyed
    rw [Json.dig, lookup_deepMerge base keyed.1, none]
    rfl
  | @inside key rest base entries v w here there agrees ih =>
    simp only [Json.keyed, Bool.and_eq_true, decide_eq_true_eq] at keyed
    rw [Json.dig, lookup_deepMerge base keyed.1, here, there, Json.dig, there]
    exact ih (keyed_of_lookup keyed.2 here)
  | @fresh key rest base entries v here none missing =>
    simp only [Json.keyed, Bool.and_eq_true, decide_eq_true_eq] at keyed
    rw [Json.dig, lookup_deepMerge base keyed.1, here, none, Json.dig, none]
    exact missing

/-- What agrees with every value agrees below a key, whether the base has it or not. -/
theorem Json.Agrees.always {key : String} {rest : List String} {base v : Json}
    {entries : List (String × Json)} (found : entries.lookup key = some v) (keyed : v.keyed = true)
    (nonempty : rest ≠ []) (each : ∀ w, Json.Agrees rest w v) :
    Json.Agrees (key :: rest) base (.dict entries) := by
  refine .deeper found (fun w _ => each w) fun _ => ?_
  have nothing := dig_deepMerge keyed (each .null)
  rw [deepMerge] at nothing
  · rw [nothing]
    cases rest with
    | nil => exact absurd rfl nonempty
    | cons _ _ => rfl
  · rintro _ _ ⟨⟩

/-- What the override says at a path, unless it is a dict, is what the merge says there. -/
theorem dig_override {path : List String} {base override v : Json} (keyed : override.keyed = true)
    (told : override.dig path = some v) (leaf : v.isDict = false) :
    (deepMerge base override).dig path = some v := by
  induction path generalizing base override with
  | nil =>
    obtain rfl := Option.some.inj told
    rw [deepMerge, Json.dig]
    rintro _ entries - rfl
    cases leaf
  | cons key rest ih =>
    rw [Json.dig, Option.bind_eq_some_iff] at told
    obtain ⟨w, found, below⟩ := told
    cases override with
    | dict entries =>
      simp only [Json.keyed, Bool.and_eq_true, decide_eq_true_eq] at keyed
      change entries.lookup key = some w at found
      rw [Json.dig, lookup_deepMerge base keyed.1, found]
      cases base.lookup key with
      | none => exact below
      | some u => exact ih (keyed_of_lookup keyed.2 found) below
    | _ => cases found

theorem isSome_dig_override {path : List String} {base override : Json} (keyed : override.keyed = true)
    (told : (override.dig path).isSome = true) : ((deepMerge base override).dig path).isSome = true := by
  induction path generalizing base override with
  | nil => rfl
  | cons key rest ih =>
    rw [Json.dig, Option.isSome_bind, Option.any_eq_true] at told
    obtain ⟨w, found, below⟩ := told
    cases override with
    | dict entries =>
      simp only [Json.keyed, Bool.and_eq_true, decide_eq_true_eq] at keyed
      change entries.lookup key = some w at found
      rw [Json.dig, lookup_deepMerge base keyed.1, found]
      cases base.lookup key with
      | none => exact below
      | some u => exact ih (keyed_of_lookup keyed.2 found) below
    | _ => cases found

/-! ### Keys stay unique -/

theorem entriesKeyed_assign {entries : List (String × Json)} (keyed : entriesKeyed entries = true)
    (k : String) {v : Json} (held : v.keyed = true) : entriesKeyed (assign k v entries) = true := by
  induction entries with
  | nil => simp [assign, entriesKeyed, held]
  | cons entry rest ih =>
    obtain ⟨j, w⟩ := entry
    simp only [entriesKeyed, Bool.and_eq_true] at keyed
    rw [assign]
    split_ifs with same
    · simp [entriesKeyed, held, keyed.2]
    · simp [entriesKeyed, keyed.1, ih keyed.2]

theorem nodup_assign {entries : List (String × Json)} (unique : (entries.map Prod.fst).Nodup)
    (k : String) (v : Json) : ((assign k v entries).map Prod.fst).Nodup := by
  rw [assign_keys]
  split_ifs with known
  · exact unique
  · rw [← List.concat_eq_append]
    exact unique.concat known

theorem keyed_assign {entries : List (String × Json)} (keyed : (Json.dict entries).keyed = true)
    (k : String) {v : Json} (held : v.keyed = true) : (Json.dict (assign k v entries)).keyed = true := by
  simp only [Json.keyed, Bool.and_eq_true, decide_eq_true_eq] at keyed ⊢
  exact ⟨nodup_assign keyed.1 k v, entriesKeyed_assign keyed.2 k held⟩

mutual
theorem keyed_deepMerge (base override : Json) (keyed : base.keyed = true)
    (overKeyed : override.keyed = true) : (deepMerge base override).keyed = true := by
  match override with
  | .null | .bool _ | .int _ | .float _ | .str _ | .list _ =>
    rw [deepMerge]
    · exact overKeyed
    · rintro _ _ - ⟨⟩
  | .dict entries =>
    simp only [Json.keyed, Bool.and_eq_true] at overKeyed
    cases base with
    | dict out =>
      rw [deepMerge]
      exact keyed_mergeEntries out entries keyed overKeyed.2
    | _ =>
      rw [deepMerge]
      · simp only [Json.keyed, Bool.and_eq_true]
        exact overKeyed
      · rintro _ _ ⟨⟩

theorem keyed_mergeEntries (out entries : List (String × Json)) (keyed : (Json.dict out).keyed = true)
    (overKeyed : entriesKeyed entries = true) : (Json.dict (mergeEntries out entries)).keyed = true := by
  match entries with
  | [] => rw [mergeEntries]; exact keyed
  | (key, v) :: rest =>
    simp only [entriesKeyed, Bool.and_eq_true] at overKeyed
    rw [mergeEntries]
    refine keyed_mergeEntries _ rest (keyed_assign keyed key ?_) overKeyed.2
    cases found : out.lookup key with
    | none => exact overKeyed.1
    | some w =>
      simp only [Json.keyed, Bool.and_eq_true] at keyed
      exact keyed_deepMerge w v (keyed_of_lookup keyed.2 found) overKeyed.1
end

end Python
