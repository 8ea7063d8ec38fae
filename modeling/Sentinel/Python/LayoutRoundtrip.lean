import Sentinel.Python.JsonLayout
import Sentinel.Python.JsonLines
import Sentinel.Python.JsonPrefix
import Sentinel.Python.JsonRoundtrip

/-! `json.loads` reads back what `json.dumps` writes with any separators and any
indentation: a layout only adds blanks between the tokens. -/
namespace Python

theorem stops_of_cons {c : Char} {rest : List Char}
    (other : c.isDigit = false ∧ c ≠ '.' ∧ c ≠ 'e' ∧ c ≠ 'E') : Stops (c :: rest) := by
  intro d opens
  obtain rfl := Option.some.inj opens
  exact other

theorem scanNumber_int (n : Int) {rest : List Char} (stop : Stops rest) :
    scanNumber (intRepr n ++ rest) = some (intRepr n, false, rest) := by
  have alone := scanNumber_intRepr n (show Ends [] by simp [Ends])
  exact (scanNumber_takes alone).2.2 rest stop

theorem scanNumber_float [FloatRepr] [FloatReader] (x : ℚ) {rest : List Char} (stop : Stops rest) :
    scanNumber (FloatRepr.repr x ++ rest) = some (FloatRepr.repr x, true, rest) := by
  have alone := FloatReader.scan_repr x [] (by simp [Ends])
  exact (scanNumber_takes alone).2.2 rest stop

namespace Layout

/-- The separators are a comma and a colon, with blanks after them. -/
structure Spaced (layout : Layout) : Prop where
  items : ∃ blanks, layout.itemSeparator = ',' :: blanks ∧ ∀ c ∈ blanks, isJsonSpace c = true
  keys : ∃ blanks, layout.keySeparator = ':' :: blanks ∧ ∀ c ∈ blanks, isJsonSpace c = true

theorem spaced_compact : compact.Spaced := ⟨⟨[], rfl, by simp⟩, ⟨[], rfl, by simp⟩⟩

theorem spaced_indented (n : ℕ) : (indented n).Spaced := by
  constructor
  · exact ⟨[], rfl, by simp⟩
  · exact ⟨[' '], rfl, by simp [isJsonSpace]⟩

variable {layout : Layout}

theorem newline_spaces (depth : ℕ) : ∀ c ∈ layout.newline depth, isJsonSpace c = true := by
  intro c member
  unfold newline at member
  split at member
  · cases member
  · rcases List.mem_cons.mp member with rfl | blank
    · rfl
    · rw [List.eq_of_mem_replicate blank]
      rfl

section Scan
variable [FloatRepr]

/-- What opens a value is neither a blank nor a closing bracket. -/
theorem dumps_head (depth : ℕ) (v : Json) (rest : List Char) :
    ∀ c ∈ (layout.dumps depth v ++ rest).head?, isJsonSpace c = false ∧ c ≠ ']' := by
  have plain (v : Json) : ∀ c ∈ (Python.dumps v ++ rest).head?, isJsonSpace c = false ∧ c ≠ ']' := by
    rw [dumps_eq_encode]
    exact encode_head v rest
  cases v with
  | null => exact plain .null
  | bool b => exact plain (.bool b)
  | int n => exact plain (.int n)
  | float x => exact plain (.float x)
  | str s => exact plain (.str s)
  | list items => cases items <;> simp [dumps, isJsonSpace]
  | dict entries => rcases entries with _ | ⟨⟨k, v⟩, rest⟩ <;> simp [dumps, isJsonSpace]

theorem skipSpace_dumps {blanks : List Char} (spaces : ∀ c ∈ blanks, isJsonSpace c = true)
    (depth : ℕ) (v : Json) (rest : List Char) :
    skipSpace (blanks ++ (layout.dumps depth v ++ rest)) = layout.dumps depth v ++ rest :=
  skipSpace_append spaces fun c opens => (dumps_head depth v rest c opens).1

theorem dumpsItems_stops (spaced : layout.Spaced) (depth : ℕ) (items : List Json)
    (rest : List Char) : Stops (layout.dumpsItems depth items ++ rest) := by
  cases items with
  | nil =>
    rw [dumpsItems, List.append_assoc]
    exact stops_spaces (newline_spaces depth) (stops_of_cons (by decide))
  | cons v items =>
    obtain ⟨blanks, separator, -⟩ := spaced.items
    rw [dumpsItems, separator]
    exact stops_of_cons (by decide)

theorem dumpsEntries_stops (spaced : layout.Spaced) (depth : ℕ) (entries : List (String × Json))
    (rest : List Char) : Stops (layout.dumpsEntries depth entries ++ rest) := by
  rcases entries with _ | ⟨⟨k, v⟩, entries⟩
  · rw [dumpsEntries, List.append_assoc]
    exact stops_spaces (newline_spaces depth) (stops_of_cons (by decide))
  · obtain ⟨blanks, separator, -⟩ := spaced.items
    rw [dumpsEntries, separator]
    exact stops_of_cons (by decide)

variable (layout) in
theorem dumps_length_pos (depth : ℕ) (v : Json) : 0 < (layout.dumps depth v).length := by
  cases text : layout.dumps depth v with
  | cons c cs => simp
  | nil =>
    cases v with
    | int n => exact absurd text (intRepr_ne_nil n)
    | float x => exact absurd text (FloatRepr.repr_ne_nil x)
    | bool b => cases b <;> cases text
    | null | str s => cases text
    | list items => cases items <;> cases text
    | dict entries => rcases entries with _ | ⟨⟨k, v⟩, rest⟩ <;> cases text

mutual
theorem weight_le_dumps (spaced : layout.Spaced) (depth : ℕ) (v : Json) :
    v.weight ≤ 2 * (layout.dumps depth v).length := by
  have light (v : Json) (one : v.weight = 1) : v.weight ≤ 2 * (layout.dumps depth v).length := by
    have := dumps_length_pos layout depth v
    omega
  match v with
  | .list (v :: rest) =>
    have first := weight_le_dumps spaced (depth + 1) v
    have later := itemsWeight_le_dumps spaced depth rest
    simp only [Json.weight, itemsWeight, dumps, List.length_cons, List.length_append]
    omega
  | .dict ((k, v) :: rest) =>
    have first := weight_le_dumps spaced (depth + 1) v
    have later := entriesWeight_le_dumps spaced depth rest
    simp only [Json.weight, entriesWeight, dumps, List.length_cons, List.length_append]
    omega
  | .null | .bool _ | .int _ | .float _ | .str _ | .list [] | .dict [] =>
    exact light _ rfl

theorem itemsWeight_le_dumps (spaced : layout.Spaced) (depth : ℕ) (items : List Json) :
    itemsWeight items ≤ 2 * (layout.dumpsItems depth items).length := by
  match items with
  | [] => simp [itemsWeight]
  | v :: rest =>
    have first := weight_le_dumps spaced (depth + 1) v
    have later := itemsWeight_le_dumps spaced depth rest
    obtain ⟨blanks, separator, -⟩ := spaced.items
    simp only [itemsWeight, dumpsItems, separator, List.length_cons, List.length_append]
    omega

theorem entriesWeight_le_dumps (spaced : layout.Spaced) (depth : ℕ)
    (entries : List (String × Json)) :
    entriesWeight entries ≤ 2 * (layout.dumpsEntries depth entries).length := by
  match entries with
  | [] => simp [entriesWeight]
  | (k, v) :: rest =>
    have first := weight_le_dumps spaced (depth + 1) v
    have later := entriesWeight_le_dumps spaced depth rest
    obtain ⟨blanks, separator, -⟩ := spaced.items
    simp only [entriesWeight, dumpsEntries, separator, List.length_cons, List.length_append]
    omega
end

variable [FloatReader]

theorem scanOnce_opened_list (fuel : ℕ) {blanks cs : List Char}
    (spaces : ∀ c ∈ blanks, isJsonSpace c = true)
    (shown : ∀ c ∈ cs.head?, isJsonSpace c = false ∧ c ≠ ']') :
    scanOnce (fuel + 1) ('[' :: (blanks ++ cs)) =
      (scanItems fuel cs >>= fun read => pure (Json.list read.1, read.2)) := by
  rw [← scanOnce_list fuel shown, scanOnce, scanOnce,
    skipSpace_append spaces fun c opens => (shown c opens).1,
    skipSpace_of_head fun c opens => (shown c opens).1]

theorem scanOnce_opened_dict (fuel : ℕ) {blanks : List Char} (cs : List Char)
    (spaces : ∀ c ∈ blanks, isJsonSpace c = true) :
    scanOnce (fuel + 1) ('{' :: (blanks ++ '"' :: cs)) =
      (scanPairs fuel ('"' :: cs) >>= fun read => pure (Json.dict (ofPairs read.1), read.2)) := by
  rw [scanOnce, skipSpace_append spaces (by simp [isJsonSpace])]
  rfl

/-- The member of a dict up to the end of its value. -/
theorem scanMember_layout (spaced : layout.Spaced) (depth : ℕ) (k : String) (v : Json) {fuel : ℕ}
    {rest : List Char} (value : scanOnce fuel (layout.dumps depth v ++ rest) = .ok (v.mapStrings id, rest)) :
    scanMember fuel (k.toList.flatMap escape ++ '"' :: (layout.keySeparator ++
      (layout.dumps depth v ++ rest))) = .ok ((k, v.mapStrings id), rest) := by
  obtain ⟨blanks, separator, spaces⟩ := spaced.keys
  rw [scanMember, scanString_body, separator]
  change (scanOnce fuel (skipSpace (blanks ++ (layout.dumps depth v ++ rest))) >>= _) = _
  rw [skipSpace_dumps spaces, value]
  change Except.ok ((String.ofList k.toList, v.mapStrings id), rest) = _
  rw [String.ofList_toList]

mutual
/-- A value is read up to its end, whatever follows that does not carry a number on. -/
theorem scanOnce_layout (spaced : layout.Spaced) (depth : ℕ) (v : Json) (fuel : ℕ)
    (enough : v.weight ≤ fuel) {rest : List Char} (stop : Stops rest) :
    scanOnce fuel (layout.dumps depth v ++ rest) = .ok (v.mapStrings id, rest) := by
  match v, fuel, enough with
  | .null, fuel + 1, _ | .bool true, fuel + 1, _ | .bool false, fuel + 1, _ => rfl
  | .int n, fuel + 1, _ =>
    change scanOnce (fuel + 1) (intRepr n ++ rest) = _
    rw [scanOnce_number fuel (intRepr_ne_nil n) (intRepr_token n) (scanNumber_int n stop),
      readInt_intRepr]
    rfl
  | .float x, fuel + 1, _ =>
    change scanOnce (fuel + 1) (FloatRepr.repr x ++ rest) = _
    rw [scanOnce_number fuel (FloatRepr.repr_ne_nil x) (FloatRepr.repr_token x)
      (scanNumber_float x stop), FloatReader.read_repr]
    rfl
  | .str s, fuel + 1, _ =>
    change scanOnce (fuel + 1) (quote s ++ rest) = _
    simp only [quote, List.cons_append, List.append_assoc, List.nil_append, scanOnce, scanString_body]
    change Except.ok (Json.str (String.ofList s.toList), rest) = _
    rw [String.ofList_toList]
    rfl
  | .list [], fuel + 1, _ => rfl
  | .list (v :: items), fuel + 1, enough =>
    have enough : itemsWeight (v :: items) ≤ fuel := by simp only [Json.weight] at enough; omega
    simp only [dumps, List.cons_append, List.append_assoc]
    rw [scanOnce_opened_list fuel (newline_spaces _) (dumps_head _ v _),
      scanItems_layout spaced depth v items fuel enough rest]
    rfl
  | .dict [], fuel + 1, _ => rfl
  | .dict ((k, v) :: entries), fuel + 1, enough =>
    have enough : entriesWeight ((k, v) :: entries) ≤ fuel := by
      simp only [Json.weight] at enough
      omega
    have pairs := scanPairs_layout spaced depth k v entries fuel enough rest
    simp only [dumps, quote, List.cons_append, List.append_assoc, List.nil_append] at pairs ⊢
    rw [scanOnce_opened_dict fuel _ (newline_spaces _), pairs]
    rfl
  | .null, 0, enough | .bool _, 0, enough | .int _, 0, enough | .float _, 0, enough
  | .str _, 0, enough | .list _, 0, enough | .dict _, 0, enough =>
    simp [Json.weight] at enough

theorem scanItems_layout (spaced : layout.Spaced) (depth : ℕ) (v : Json) (items : List Json)
    (fuel : ℕ) (enough : itemsWeight (v :: items) ≤ fuel) (rest : List Char) :
    scanItems fuel (layout.dumps (depth + 1) v ++ (layout.dumpsItems depth items ++ rest)) =
      .ok (mapItems id (v :: items), rest) := by
  match items, fuel, enough with
  | _, 0, enough => simp only [itemsWeight] at enough; omega
  | [], fuel + 1, enough =>
    simp only [itemsWeight] at enough
    rw [scanItems, scanOnce_layout spaced (depth + 1) v fuel (by omega)
      (dumpsItems_stops spaced depth [] rest)]
    change (match skipSpace (layout.newline depth ++ [']'] ++ rest) with
      | ']' :: rest => _
      | ',' :: rest => _
      | _ => _) = _
    rw [List.append_assoc, skipSpace_append (newline_spaces depth) (by simp [isJsonSpace])]
    rfl
  | w :: items, fuel + 1, enough =>
    rw [itemsWeight] at enough
    obtain ⟨blanks, separator, spaces⟩ := spaced.items
    have later := scanItems_layout spaced depth w items fuel (by omega) rest
    rw [scanItems, scanOnce_layout spaced (depth + 1) v fuel (by omega)
      (dumpsItems_stops spaced depth (w :: items) rest)]
    simp only [dumpsItems, separator, List.cons_append, List.append_assoc]
    change (scanItems fuel (skipSpace (blanks ++ (layout.newline (depth + 1) ++ _))) >>= _) = _
    rw [← List.append_assoc, skipSpace_dumps, later]
    · rfl
    · rw [List.forall_mem_append]
      exact ⟨spaces, newline_spaces _⟩

theorem scanPairs_layout (spaced : layout.Spaced) (depth : ℕ) (k : String) (v : Json)
    (entries : List (String × Json)) (fuel : ℕ) (enough : entriesWeight ((k, v) :: entries) ≤ fuel)
    (rest : List Char) :
    scanPairs fuel (quote k ++ (layout.keySeparator ++
      (layout.dumps (depth + 1) v ++ (layout.dumpsEntries depth entries ++ rest)))) =
      .ok (mapEntries id ((k, v) :: entries), rest) := by
  match entries, fuel, enough with
  | _, 0, enough => simp only [entriesWeight] at enough; omega
  | [], fuel + 1, enough =>
    simp only [entriesWeight] at enough
    have value := scanOnce_layout spaced (depth + 1) v fuel (by omega)
      (dumpsEntries_stops spaced depth [] rest)
    simp only [quote, List.cons_append, List.append_assoc, List.nil_append]
    rw [scanPairs_quote, scanMember_layout spaced _ k v value]
    change scanOthers fuel (k, v.mapStrings id) (layout.newline depth ++ ['}'] ++ rest) = _
    rw [scanOthers, List.append_assoc, skipSpace_append (newline_spaces depth) (by simp [isJsonSpace])]
    rfl
  | (j, w) :: entries, fuel + 1, enough =>
    rw [entriesWeight] at enough
    obtain ⟨blanks, separator, spaces⟩ := spaced.items
    have value := scanOnce_layout spaced (depth + 1) v fuel (by omega)
      (dumpsEntries_stops spaced depth ((j, w) :: entries) rest)
    have later := scanPairs_layout spaced depth j w entries fuel (by omega) rest
    simp only [quote, List.cons_append, List.append_assoc, List.nil_append] at later ⊢
    rw [scanPairs_quote, scanMember_layout spaced _ k v value]
    simp only [dumpsEntries, separator, quote, List.cons_append, List.append_assoc, List.nil_append]
    change scanOthers fuel (k, v.mapStrings id) (',' :: (blanks ++ (layout.newline (depth + 1) ++ _))) = _
    change (scanPairs fuel (skipSpace (blanks ++ (layout.newline (depth + 1) ++ _))) >>= _) = _
    rw [← List.append_assoc, skipSpace_append, later]
    · rfl
    · rw [List.forall_mem_append]
      exact ⟨spaces, newline_spaces _⟩
    · simp [isJsonSpace]
end

/-- Only a repeated key does not survive being written in a layout and read. -/
theorem loads_dumps (spaced : layout.Spaced) (v : Json) {after : List Char}
    (blank : ∀ c ∈ after, isJsonSpace c = true) :
    loads (layout.dumps 0 v ++ after) = .ok (v.mapStrings id) := by
  have weight := weight_le_dumps spaced 0 v
  have stop : Stops after := by
    intro c opens
    have space := blank c (List.mem_of_mem_head? opens)
    simp only [isJsonSpace, Bool.or_eq_true, beq_iff_eq, or_assoc] at space
    rcases space with rfl | rfl | rfl | rfl <;> decide
  have shown : skipSpace ([] ++ (layout.dumps 0 v ++ after)) = _ := skipSpace_dumps (by simp) 0 v after
  rw [List.nil_append] at shown
  rw [loads, shown, scanOnce_layout spaced 0 v _ (by rw [List.length_append]; omega) stop]
  have ended : skipSpace after = [] := by
    have skipped : skipSpace (after ++ []) = [] := skipSpace_append blank (by simp)
    rwa [List.append_nil] at skipped
  change (if skipSpace after = [] then pure _ else throw _) = _
  rw [if_pos ended]
  rfl

theorem loads_dumps_keyed (spaced : layout.Spaced) {v : Json} (keyed : v.keyed = true)
    {after : List Char} (blank : ∀ c ∈ after, isJsonSpace c = true) :
    loads (layout.dumps 0 v ++ after) = .ok v := by
  rw [loads_dumps spaced v blank, mapStrings_keyed v keyed]

end Scan

/-! ### The characters of a text -/

section Chars
variable [FloatRepr] {P : Char → Prop}

/-- What every character of the layout's own text holds, and the blanks before an element. -/
structure Written (layout : Layout) (P : Char → Prop) : Prop where
  printable : ∀ c, Printable c → P c
  items : ∀ c ∈ layout.itemSeparator, P c
  keys : ∀ c ∈ layout.keySeparator, P c
  newline : ∀ depth, ∀ c ∈ layout.newline depth, P c

mutual
theorem Written.dumps (written : layout.Written P) (depth : ℕ) (v : Json) :
    ∀ c ∈ layout.dumps depth v, P c := by
  have brackets : P '[' ∧ P ']' ∧ P '{' ∧ P '}' := by
    refine ⟨?_, ?_, ?_, ?_⟩ <;> exact written.printable _ (by decide)
  have plain (v : Json) : ∀ c ∈ Python.dumps v, P c := fun c member =>
    written.printable c (printable_dumps v c member)
  match v with
  | .null | .bool _ | .int _ | .float _ | .str _ => exact plain _
  | .list [] => exact List.forall_mem_cons.mpr ⟨brackets.1, by simpa using brackets.2.1⟩
  | .dict [] => exact List.forall_mem_cons.mpr ⟨brackets.2.2.1, by simpa using brackets.2.2.2⟩
  | .list (v :: rest) =>
    simp only [Layout.dumps, List.forall_mem_cons, List.forall_mem_append]
    exact ⟨brackets.1, written.newline _, written.dumps _ v, written.dumpsItems _ rest⟩
  | .dict ((k, v) :: rest) =>
    simp only [Layout.dumps, List.forall_mem_cons, List.forall_mem_append]
    exact ⟨brackets.2.2.1, written.newline _, fun c member => written.printable c (printable_quote k c member),
      written.keys, written.dumps _ v, written.dumpsEntries _ rest⟩

theorem Written.dumpsItems (written : layout.Written P) (depth : ℕ) (items : List Json) :
    ∀ c ∈ layout.dumpsItems depth items, P c := by
  match items with
  | [] =>
    simp only [Layout.dumpsItems, List.forall_mem_append, List.forall_mem_singleton]
    exact ⟨written.newline _, written.printable _ (by decide)⟩
  | v :: rest =>
    simp only [Layout.dumpsItems, List.forall_mem_append]
    exact ⟨written.items, written.newline _, written.dumps _ v, written.dumpsItems _ rest⟩

theorem Written.dumpsEntries (written : layout.Written P) (depth : ℕ) (entries : List (String × Json)) :
    ∀ c ∈ layout.dumpsEntries depth entries, P c := by
  match entries with
  | [] =>
    simp only [Layout.dumpsEntries, List.forall_mem_append, List.forall_mem_singleton]
    exact ⟨written.newline _, written.printable _ (by decide)⟩
  | (k, v) :: rest =>
    simp only [Layout.dumpsEntries, List.forall_mem_append]
    exact ⟨written.items, written.newline _, fun c member => written.printable c (printable_quote k c member),
      written.keys, written.dumps _ v, written.dumpsEntries _ rest⟩
end

end Chars

theorem compact_written : compact.Written Printable where
  printable _ printable := printable
  items := by simp [compact, printable_iff]
  keys := by simp [compact, printable_iff]
  newline _ _ member := by cases member

theorem indented_written (n : ℕ) : (indented n).Written fun c => Printable c ∨ c = '\n' where
  printable _ printable := .inl printable
  items := by simp [indented, printable_iff]
  keys := by simp [indented, printable_iff]
  newline depth c member := by
    rcases List.mem_cons.mp member with rfl | blank
    · exact .inr rfl
    · rw [List.eq_of_mem_replicate blank]
      exact .inl (by decide)

end Layout

/-! ### Sorted keys -/

theorem entriesKeyed_iff {entries : List (String × Json)} :
    entriesKeyed entries = true ↔ ∀ entry ∈ entries, entry.2.keyed = true := by
  induction entries with
  | nil => simp [entriesKeyed]
  | cons entry rest ih => simp [entriesKeyed, ih]

theorem keys_sortEntries (entries : List (String × Json)) :
    ((sortEntries (sortValues entries)).map Prod.fst).Perm (entries.map Prod.fst) := by
  have values : (sortValues entries).map Prod.fst = entries.map Prod.fst := by
    rw [sortValues_eq_map, List.map_map]
    rfl
  rw [← values]
  exact (sortEntries_perm _).map Prod.fst

mutual
theorem keyed_sortKeys (v : Json) (keyed : v.keyed = true) : (sortKeys v).keyed = true := by
  match v with
  | .null | .bool _ | .int _ | .float _ | .str _ => rfl
  | .list items => exact keyed_sortItems items keyed
  | .dict entries =>
    simp only [Json.keyed, Bool.and_eq_true, decide_eq_true_eq] at keyed
    simp only [sortKeys, Json.keyed, Bool.and_eq_true, decide_eq_true_eq]
    refine ⟨(keys_sortEntries entries).nodup_iff.mpr keyed.1, entriesKeyed_iff.mpr ?_⟩
    intro entry member
    have sorted := entriesKeyed_iff.mp (keyed_sortValues entries keyed.2)
    exact sorted entry ((sortEntries_perm _).mem_iff.mp member)

theorem keyed_sortItems (items : List Json) (keyed : itemsKeyed items = true) :
    itemsKeyed (sortItems items) = true := by
  match items with
  | [] => rfl
  | v :: rest =>
    simp only [itemsKeyed, Bool.and_eq_true] at keyed
    simp only [sortItems, itemsKeyed, keyed_sortKeys v keyed.1, keyed_sortItems rest keyed.2, Bool.and_self]

theorem keyed_sortValues (entries : List (String × Json)) (keyed : entriesKeyed entries = true) :
    entriesKeyed (sortValues entries) = true := by
  match entries with
  | [] => rfl
  | (k, v) :: rest =>
    simp only [entriesKeyed, Bool.and_eq_true] at keyed
    simp only [sortValues, entriesKeyed, keyed_sortKeys v keyed.1, keyed_sortValues rest keyed.2,
      Bool.and_self]
end

/-- Sorting the keys of a dict does not change what it holds under a key. -/
theorem lookup_sortKeys {entries : List (String × Json)} (unique : (entries.map Prod.fst).Nodup)
    (key : String) :
    (sortKeys (.dict entries)).lookup key = (entries.lookup key).map sortKeys := by
  change (sortEntries (sortValues entries)).lookup key = _
  have unique' := (keys_sortEntries entries).nodup_iff.mpr unique
  cases found : entries.lookup key with
  | some v =>
    refine lookup_of_mem unique' ((sortEntries_perm _).mem_iff.mpr ?_)
    rw [sortValues_eq_map]
    exact List.mem_map.mpr ⟨_, mem_keys_of_lookup found, rfl⟩
  | none =>
    rw [Option.map_none, List.lookup_eq_none_iff] at *
    intro entry member
    rw [sortValues_eq_map] at member
    obtain ⟨original, inEntries, rfl⟩ := List.mem_map.mp ((sortEntries_perm _).mem_iff.mp member)
    exact found original inEntries

end Python
