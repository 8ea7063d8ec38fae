import Sentinel.Python.JsonReaderProofs

/-! The round trip of a value that Python can hold: a dict has each key once, so
writing and reading it gives it back as it is. -/
namespace Python

mutual
/-- No dict in the value repeats a key. -/
def Json.keyed : Json → Bool
  | .list items => itemsKeyed items
  | .dict entries => decide (entries.map Prod.fst).Nodup && entriesKeyed entries
  | _ => true

def itemsKeyed : List Json → Bool
  | [] => true
  | v :: rest => v.keyed && itemsKeyed rest

def entriesKeyed : List (String × Json) → Bool
  | [] => true
  | (_, v) :: rest => v.keyed && entriesKeyed rest
end

theorem ofPairs_nodup {pairs : List (String × Json)} (unique : (pairs.map Prod.fst).Nodup) :
    ofPairs pairs = pairs :=
  foldl_assign unique

mutual
theorem mapStrings_keyed (v : Json) (keyed : v.keyed = true) : v.mapStrings id = v := by
  match v with
  | .null | .bool _ | .int _ | .float _ | .str _ => rfl
  | .list items =>
    rw [Json.mapStrings, mapItems_keyed items keyed]
  | .dict entries =>
    simp only [Json.keyed, Bool.and_eq_true, decide_eq_true_eq] at keyed
    rw [Json.mapStrings, mapEntries_keyed entries keyed.2, ofPairs_nodup keyed.1]

theorem mapItems_keyed (items : List Json) (keyed : itemsKeyed items = true) :
    mapItems id items = items := by
  match items with
  | [] => rfl
  | v :: rest =>
    simp only [itemsKeyed, Bool.and_eq_true] at keyed
    rw [mapItems, mapStrings_keyed v keyed.1, mapItems_keyed rest keyed.2]

theorem mapEntries_keyed (entries : List (String × Json)) (keyed : entriesKeyed entries = true) :
    mapEntries id entries = entries := by
  match entries with
  | [] => rfl
  | (k, v) :: rest =>
    simp only [entriesKeyed, Bool.and_eq_true] at keyed
    rw [mapEntries, mapStrings_keyed v keyed.1, mapEntries_keyed rest keyed.2]
    rfl
end

theorem loads_dumps_keyed [FloatRepr] [FloatReader] {v : Json} (keyed : v.keyed = true) :
    loads (dumps v) = .ok v := by
  rw [loads_dumps, mapStrings_keyed v keyed]

end Python
