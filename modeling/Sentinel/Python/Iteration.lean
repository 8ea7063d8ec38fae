import Sentinel.Python.DeepMerge

/-! What is taken out of a value that may be of the wrong type: its elements, the pairs of
a dict, and a key's value or a default. -/
namespace Python
namespace Json

/-- `list(v)`. -/
def elements : Json → Py (List Json)
  | list items => .ok items
  | dict entries => .ok (entries.map fun entry => str entry.1)
  | str text => .ok (text.toList.map fun c => str (String.singleton c))
  | v => .error ⟨"TypeError", s!"'{v.typeName}' object is not iterable", false⟩

/-- `v.items()`. -/
def pairs (v : Json) : Py (List (String × Json)) :=
  match v with
  | dict entries => .ok entries
  | _ => .error ⟨"AttributeError", s!"'{v.typeName}' object has no attribute 'items'", false⟩

/-- `v.get(key, default)`. -/
def getElse (v : Json) (key : String) (default : Json) : Py Json :=
  match v with
  | dict entries => .ok ((entries.lookup key).getD default)
  | _ => .error ⟨"AttributeError", s!"'{v.typeName}' object has no attribute 'get'", false⟩

theorem item_ok {v w : Json} {key : String} (ok : v.item key = .ok w) : v.lookup key = some w := by
  cases v with
  | dict entries =>
    rw [item] at ok
    split at ok
    · cases ok
      assumption
    · cases ok
  | _ => cases ok

theorem keyed_lookup {v w : Json} {key : String} (keyed : v.keyed = true)
    (found : v.lookup key = some w) : w.keyed = true := by
  cases v with
  | dict entries =>
    simp only [Json.keyed, Bool.and_eq_true] at keyed
    exact keyed_of_lookup keyed.2 found
  | _ => cases found

end Json

theorem itemsKeyed_append {xs ys : List Json} (left : itemsKeyed xs = true)
    (right : itemsKeyed ys = true) : itemsKeyed (xs ++ ys) = true := by
  induction xs with
  | nil => exact right
  | cons x rest ih =>
    simp only [itemsKeyed, Bool.and_eq_true] at left
    simp [itemsKeyed, left.1, ih left.2]

theorem itemsKeyed_strings (texts : List String) : itemsKeyed (texts.map .str) = true := by
  induction texts with
  | nil => rfl
  | cons text rest ih => simp [itemsKeyed, Json.keyed, ih]

theorem keyed_elements {v : Json} {xs : List Json} (keyed : v.keyed = true)
    (ok : v.elements = .ok xs) : itemsKeyed xs = true := by
  cases v with
  | list items =>
    cases ok
    exact keyed
  | dict entries =>
    cases ok
    simpa [Function.comp_def] using itemsKeyed_strings (entries.map Prod.fst)
  | str text =>
    cases ok
    simpa [Function.comp_def] using itemsKeyed_strings (text.toList.map String.singleton)
  | _ => cases ok

end Python
