import Sentinel.Python.EscapedReplace

/-! `json.dumps` with `separators` or `indent`. However it lays a value out, and whether
it sorts the keys or not, the literal of every string and of every key stands in the text. -/
namespace Python

structure Layout where
  itemSeparator : List Char
  keySeparator : List Char
  indent : Option ℕ := none

namespace Layout

/-- `separators=(",", ":")`. -/
def compact : Layout := { itemSeparator := [','], keySeparator := [':'] }

/-- `indent=n`. -/
def indented (n : ℕ) : Layout :=
  { itemSeparator := [','], keySeparator := [':', ' '], indent := some n }

/-- What stands before an element at this depth, and before the bracket that closes it. -/
def newline (layout : Layout) (depth : ℕ) : List Char :=
  match layout.indent with
  | none => []
  | some n => '\n' :: List.replicate (n * depth) ' '

section Dumps
variable [FloatRepr] (layout : Layout)

mutual
def dumps (depth : ℕ) : Json → List Char
  | .list [] => ['[', ']']
  | .list (v :: rest) =>
    '[' :: (layout.newline (depth + 1) ++ (dumps (depth + 1) v ++ dumpsItems depth rest))
  | .dict [] => ['{', '}']
  | .dict ((k, v) :: rest) =>
    '{' :: (layout.newline (depth + 1) ++ (quote k ++ (layout.keySeparator ++
      (dumps (depth + 1) v ++ dumpsEntries depth rest))))
  | v => Python.dumps v

def dumpsItems (depth : ℕ) : List Json → List Char
  | [] => layout.newline depth ++ [']']
  | v :: rest =>
    layout.itemSeparator ++ (layout.newline (depth + 1) ++
      (dumps (depth + 1) v ++ dumpsItems depth rest))

def dumpsEntries (depth : ℕ) : List (String × Json) → List Char
  | [] => layout.newline depth ++ ['}']
  | (k, v) :: rest =>
    layout.itemSeparator ++ (layout.newline (depth + 1) ++ (quote k ++ (layout.keySeparator ++
      (dumps (depth + 1) v ++ dumpsEntries depth rest))))
end

variable {layout}

mutual
theorem infix_dumps (depth : ℕ) (v : Json) :
    ∀ s ∈ v.strings, quote s <:+: layout.dumps depth v := by
  match v with
  | .null | .bool _ | .int _ | .float _ | .list [] | .dict [] =>
    simp [Json.strings, itemStrings, entryStrings]
  | .str s =>
    simp only [Json.strings, List.mem_singleton, forall_eq]
    exact List.infix_refl _
  | .list (v :: rest) =>
    simp only [Json.strings, itemStrings, List.mem_append, dumps]
    rintro s (first | later)
    all_goals
      apply List.infix_cons
      apply List.infix_append_of_infix_right
    · exact List.infix_append_of_infix_left (infix_dumps _ v s first)
    · exact List.infix_append_of_infix_right (infix_dumpsItems _ rest s later)
  | .dict ((k, v) :: rest) =>
    simp only [Json.strings, entryStrings, List.mem_cons, List.mem_append, dumps]
    rintro s (rfl | first | later)
    all_goals
      apply List.infix_cons
      apply List.infix_append_of_infix_right
    · exact List.infix_append_left
    all_goals
      apply List.infix_append_of_infix_right
      apply List.infix_append_of_infix_right
    · exact List.infix_append_of_infix_left (infix_dumps _ v s first)
    · exact List.infix_append_of_infix_right (infix_dumpsEntries _ rest s later)

theorem infix_dumpsItems (depth : ℕ) (items : List Json) :
    ∀ s ∈ itemStrings items, quote s <:+: layout.dumpsItems depth items := by
  match items with
  | [] => simp [itemStrings]
  | v :: rest =>
    simp only [itemStrings, List.mem_append, dumpsItems]
    rintro s (first | later)
    all_goals
      apply List.infix_append_of_infix_right
      apply List.infix_append_of_infix_right
    · exact List.infix_append_of_infix_left (infix_dumps _ v s first)
    · exact List.infix_append_of_infix_right (infix_dumpsItems _ rest s later)

theorem infix_dumpsEntries (depth : ℕ) (entries : List (String × Json)) :
    ∀ s ∈ entryStrings entries, quote s <:+: layout.dumpsEntries depth entries := by
  match entries with
  | [] => simp [entryStrings]
  | (k, v) :: rest =>
    simp only [entryStrings, List.mem_cons, List.mem_append, dumpsEntries]
    rintro s (rfl | first | later)
    all_goals
      apply List.infix_append_of_infix_right
      apply List.infix_append_of_infix_right
    · exact List.infix_append_left
    all_goals
      apply List.infix_append_of_infix_right
      apply List.infix_append_of_infix_right
    · exact List.infix_append_of_infix_left (infix_dumps _ v s first)
    · exact List.infix_append_of_infix_right (infix_dumpsEntries _ rest s later)
end

end Dumps
end Layout

/-! ### Sorted keys -/

theorem mem_entryStrings {entries : List (String × Json)} {s : String} :
    s ∈ entryStrings entries ↔ ∃ entry ∈ entries, s = entry.1 ∨ s ∈ entry.2.strings := by
  induction entries with
  | nil => simp [entryStrings]
  | cons entry rest ih => simp [entryStrings, ih, or_assoc]

theorem mem_entryStrings_sortEntries {entries : List (String × Json)} {s : String} :
    s ∈ entryStrings (sortEntries entries) ↔ s ∈ entryStrings entries := by
  simp only [mem_entryStrings, (sortEntries_perm entries).mem_iff]

mutual
theorem mem_strings_sortKeys (v : Json) (s : String) :
    s ∈ (sortKeys v).strings ↔ s ∈ v.strings := by
  match v with
  | .null | .bool _ | .int _ | .float _ | .str _ => rfl
  | .list items =>
    rw [sortKeys, Json.strings, Json.strings]
    exact mem_itemStrings_sortItems items s
  | .dict entries =>
    rw [sortKeys, Json.strings, Json.strings, mem_entryStrings_sortEntries]
    exact mem_entryStrings_sortValues entries s

theorem mem_itemStrings_sortItems (items : List Json) (s : String) :
    s ∈ itemStrings (sortItems items) ↔ s ∈ itemStrings items := by
  match items with
  | [] => rfl
  | v :: rest =>
    rw [sortItems, itemStrings, itemStrings, List.mem_append, List.mem_append,
      mem_strings_sortKeys v, mem_itemStrings_sortItems rest]

theorem mem_entryStrings_sortValues (entries : List (String × Json)) (s : String) :
    s ∈ entryStrings (sortValues entries) ↔ s ∈ entryStrings entries := by
  match entries with
  | [] => rfl
  | (k, v) :: rest =>
    rw [sortValues, entryStrings, entryStrings, List.mem_cons, List.mem_cons, List.mem_append,
      List.mem_append, mem_strings_sortKeys v, mem_entryStrings_sortValues rest]
end

/-- A text without escapes that stands in a string stands in what is written of the value,
with its keys sorted. -/
theorem infix_dumps_sortKeys [FloatRepr] (layout : Layout) {v : Json} {s : String} {t : List Char}
    (unescaped : ∀ c ∈ t, escape c = [c]) (member : s ∈ v.strings) (found : t <:+: s.toList) :
    t <:+: layout.dumps 0 (sortKeys v) := by
  obtain ⟨before, after, whole⟩ := found
  have quoted : t <:+: quote s := by
    rw [quote, ← whole, List.flatMap_append, List.flatMap_append,
      flatMap_escape_of_unescaped unescaped]
    apply List.infix_cons
    apply List.infix_append_of_infix_left
    exact List.infix_append _ _ _
  exact quoted.trans (layout.infix_dumps 0 _ s ((mem_strings_sortKeys v s).mpr member))

end Python
