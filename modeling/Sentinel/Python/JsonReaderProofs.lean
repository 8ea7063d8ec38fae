import Sentinel.Python.JsonReader

/-! What `json.loads` makes of a dump. The string literals of a dump may be
edited before it is read; the reader then fails exactly when one of them no
longer scans, and else gives the value back with the strings it scanned. -/
namespace Python

/-! ### Literals -/

theorem hexDigit?_hexDigit {n : ℕ} (small : n < 16) : hexDigit? (hexDigit n) = some n := by
  interval_cases n <;> decide

theorem scanString_unicodeEscape {n : ℕ} (small : n < 0x10000) (pending : Option ℕ)
    (rest : List Char) : scanString pending (unicodeEscape n ++ rest) =
      emit (decodeUnit pending n).1 (scanString (decodeUnit pending n).2 rest) := by
  have code : hexCode? (hexDigit (n / 4096 % 16)) (hexDigit (n / 256 % 16))
      (hexDigit (n / 16 % 16)) (hexDigit (n % 16)) = some n := by
    simp only [hexCode?, hexDigit?_hexDigit (Nat.mod_lt _ (by decide : 16 > 0)), Option.some.injEq]
    omega
  simp only [unicodeEscape, List.cons_append, List.nil_append, scanString, code]

theorem emit_emit (a b : List Char) (r : Py (List Char × List Char)) :
    emit a (emit b r) = emit (a ++ b) r := by
  cases r <;> simp [emit]

theorem scanString_simple {c d : Char} (escape : simpleEscape c = some d) (pending : Option ℕ)
    (rest : List Char) :
    scanString pending ('\\' :: c :: rest) = emit (flush pending ++ [d]) (scanString none rest) := by
  have other : c ≠ 'u' := by
    rintro rfl
    cases escape
  rw [scanString, escape]
  rintro _ _ _ _ _ rfl
  exact absurd rfl other

theorem scanString_plain {c : Char} (quote : c ≠ '"') (backslash : c ≠ '\\') (visible : ¬ c < ' ')
    (pending : Option ℕ) (rest : List Char) :
    scanString pending (c :: rest) = emit (flush pending ++ [c]) (scanString none rest) := by
  rw [scanString.eq_def]
  split <;> rename_i opens
  · cases opens
  · exact absurd (List.cons.inj opens).1 quote
  · exact absurd (List.cons.inj opens).1 backslash
  · exact absurd (List.cons.inj opens).1 backslash
  · exact absurd (List.cons.inj opens).1 backslash
  · obtain ⟨rfl, rfl⟩ := List.cons.inj opens
    rw [if_neg visible]

/-- A letter after a backslash stands for the character that it escapes. -/
theorem simpleEscape_letter {c d : Char} (listed : (c, d) ∈ escapeLetters) : simpleEscape d = some c := by
  simp only [escapeLetters, List.mem_cons, Prod.mk.injEq, List.not_mem_nil, or_false] at listed
  rcases listed with ⟨rfl, rfl⟩ | ⟨rfl, rfl⟩ | ⟨rfl, rfl⟩ | ⟨rfl, rfl⟩ | ⟨rfl, rfl⟩ | ⟨rfl, rfl⟩ | ⟨rfl, rfl⟩ <;>
    rfl

/-- An escaped character is read back as itself. -/
theorem scanString_escape (c : Char) (rest : List Char) :
    scanString none (escape c ++ rest) = emit [c] (scanString none rest) := by
  have scalar := toNat_scalar c
  have form := escape_form c
  generalize escape c = text at form ⊢
  cases form with
  | letter listed => exact scanString_simple (simpleEscape_letter listed) none rest
  | shown quote backslash plain => exact scanString_plain quote backslash (not_lt.mpr plain.1) none rest
  | unit small =>
    rw [scanString_unicodeEscape small]
    have high : isHigh c.toNat = false := by simp [isHigh]; omega
    have low : isLow c.toNat = false := by simp [isLow]; omega
    simp [decodeUnit, high, low, flush]
  | pair large =>
    have first : isHigh (0xd800 + (c.toNat - 0x10000) / 0x400) = true := by simp [isHigh]; omega
    have second : isHigh (0xdc00 + (c.toNat - 0x10000) % 0x400) = false := by simp [isHigh]; omega
    have low : isLow (0xdc00 + (c.toNat - 0x10000) % 0x400) = true := by simp [isLow]; omega
    have value : 0x10000 + (0xd800 + (c.toNat - 0x10000) / 0x400 - 0xd800) * 0x400 +
        (0xdc00 + (c.toNat - 0x10000) % 0x400 - 0xdc00) = c.toNat := by omega
    rw [List.append_assoc, scanString_unicodeEscape (by omega), scanString_unicodeEscape (by omega),
      emit_emit]
    simp only [decodeUnit, first, second, low, value, flush, ↓reduceIte, Char.ofNat_toNat,
      List.nil_append, Bool.false_eq_true]

theorem scanString_body (s rest : List Char) :
    scanString none (s.flatMap escape ++ '"' :: rest) = .ok (s, rest) := by
  induction s with
  | nil => rfl
  | cons c s ih => rw [List.flatMap_cons, List.append_assoc, scanString_escape, ih]; rfl

/-! ### Numbers -/

theorem digitsOf_append {digits rest : List Char} (all : ∀ c ∈ digits, c.isDigit = true)
    (stop : ∀ c ∈ rest.head?, c.isDigit = false) : digitsOf (digits ++ rest) = (digits, rest) := by
  have none : rest.takeWhile Char.isDigit = [] ∧ rest.dropWhile Char.isDigit = rest := by
    cases rest with
    | nil => exact ⟨rfl, rfl⟩
    | cons c rest => simp [stop c (by simp)]
  rw [digitsOf, List.takeWhile_append_of_pos all, List.dropWhile_append_of_pos all, none.1, none.2,
    List.append_nil]

theorem toDigits_isDigit (n : ℕ) : ∀ c ∈ Nat.toDigits 10 n, c.isDigit = true := fun _ member =>
  Nat.isDigit_of_mem_toDigits (by decide) (by decide) member

/-- A positive number is written without a leading zero. -/
theorem toDigits_lead {n : ℕ} (positive : 0 < n) : (Nat.toDigits 10 n).head? ≠ some '0' := by
  induction n using Nat.strongRecOn with
  | ind n ih =>
    rcases lt_or_ge n 10 with small | large
    · rw [Nat.toDigits_of_lt_base small]
      interval_cases n <;> decide
    · rw [Nat.toDigits_of_base_le (by decide) large, List.head?_append_of_ne_nil _ Nat.toDigits_ne_nil]
      exact ih (n / 10) (by omega) (by omega)

theorem scanInt_toDigits (n : ℕ) {rest : List Char} (stop : ∀ c ∈ rest.head?, c.isDigit = false) :
    scanInt (Nat.toDigits 10 n ++ rest) = some (Nat.toDigits 10 n, rest) := by
  rcases Nat.eq_zero_or_pos n with rfl | positive
  · rfl
  · have lead := toDigits_lead positive
    have split := digitsOf_append (toDigits_isDigit n) stop
    have digits := toDigits_isDigit n
    cases opens : Nat.toDigits 10 n with
    | nil => exact absurd opens Nat.toDigits_ne_nil
    | cons c cs =>
      rw [opens] at lead split digits
      rw [List.cons_append] at split ⊢
      rw [scanInt, if_pos (digits c (by simp)), split]
      rintro rfl
      simp at lead

theorem Ends.undigit {rest : List Char} (ends : Ends rest) : ∀ c ∈ rest.head?, c.isDigit = false := by
  intro c opens
  rcases ends c opens with rfl | rfl | rfl <;> rfl

theorem Ends.scanFraction {rest : List Char} (ends : Ends rest) :
    scanFraction rest = ([], rest) := by
  cases rest with
  | nil => rfl
  | cons c rest => rcases ends c rfl with rfl | rfl | rfl <;> simp [Python.scanFraction]

theorem Ends.scanExponent {rest : List Char} (ends : Ends rest) :
    scanExponent rest = ([], rest) := by
  cases rest with
  | nil => rfl
  | cons c rest =>
    have plain : ¬ (c = 'e' ∨ c = 'E') := by rcases ends c rfl with rfl | rfl | rfl <;> decide
    unfold Python.scanExponent
    split
    all_goals
      rename_i opens
      cases opens <;> rw [if_neg plain]

/-- The digits of an integer are read up to what is no digit. -/
theorem scanNumber_append (n : Int) {rest : List Char}
    (stop : ∀ c ∈ rest.head?, c.isDigit = false) :
    scanNumber (intRepr n ++ rest) =
      some (intRepr n ++ (scanFraction rest).1 ++ (scanExponent (scanFraction rest).2).1,
        !((scanFraction rest).1.isEmpty && (scanExponent (scanFraction rest).2).1.isEmpty),
        (scanExponent (scanFraction rest).2).2) := by
  cases n with
  | ofNat n =>
    have unsigned : ∀ tail, Nat.toDigits 10 n ++ rest ≠ '-' :: tail := by
      intro tail same
      have lead := congrArg List.head? same
      rw [List.head?_append_of_ne_nil _ Nat.toDigits_ne_nil] at lead
      exact absurd (toDigits_isDigit n '-' (List.mem_of_mem_head? lead)) (by decide)
    unfold scanNumber
    simp only [intRepr, scanInt_toDigits n stop, List.nil_append]
  | negSucc n =>
    simp only [scanNumber, intRepr, List.cons_append, scanInt_toDigits (n + 1) stop, List.nil_append]

theorem scanNumber_intRepr (n : Int) {rest : List Char} (ends : Ends rest) :
    scanNumber (intRepr n ++ rest) = some (intRepr n, false, rest) := by
  simp [scanNumber_append n ends.undigit, ends.scanFraction, ends.scanExponent]

theorem readInt_intRepr (n : Int) : readInt (intRepr n) = n := by
  cases n with
  | ofNat n =>
    have unsigned : ∀ tail, Nat.toDigits 10 n ≠ '-' :: tail := by
      intro tail same
      exact absurd (toDigits_isDigit n '-' (by simp [same])) (by decide)
    unfold readInt
    simp only [intRepr, Nat.ofDigitChars_ten_toDigits]
    rfl
  | negSucc n =>
    simp only [readInt, intRepr, Nat.ofDigitChars_ten_toDigits]
    omega

/-- Exact fractions are read back as they are written. -/
@[reducible] def fractionReader : @FloatReader fractionRepr :=
  letI := fractionRepr
  { read := fun text => (readInt (text.takeWhile (· != '.')) : ℚ) /
      (Nat.ofDigitChars 10 ((text.dropWhile (· != '.')).drop 1) 0 : ℕ)
    read_repr := by
      intro x
      have undotted : ∀ c ∈ intRepr x.num, (c != '.') = true := by
        intro c member
        simp only [bne_iff_ne]
        rintro rfl
        exact intRepr_undotted x.num member
      simp only [FloatRepr.repr, List.takeWhile_append_of_pos undotted,
        List.dropWhile_append_of_pos undotted]
      simp [readInt_intRepr, Nat.ofDigitChars_ten_toDigits, Rat.num_div_den]
    scan_repr := by
      intro x rest ends
      have digits := toDigits_isDigit x.den
      have fraction : scanFraction ('.' :: (Nat.toDigits 10 x.den ++ rest)) =
          ('.' :: Nat.toDigits 10 x.den, rest) := by
        have split := digitsOf_append digits ends.undigit
        cases opens : Nat.toDigits 10 x.den with
        | nil => exact absurd opens Nat.toDigits_ne_nil
        | cons d ds =>
          rw [opens] at split digits
          simp only [List.cons_append] at split ⊢
          rw [scanFraction, if_pos (digits d (by simp)), split]
      simp only [FloatRepr.repr, List.append_assoc, List.cons_append]
      rw [scanNumber_append x.num (by simp), fraction, ends.scanExponent]
      simp }

/-! ### Values -/

mutual
/-- The keys and the strings of a value, as a dump writes them. -/
def Json.strings : Json → List String
  | .str s => [s]
  | .list items => itemStrings items
  | .dict entries => entryStrings entries
  | _ => []

def itemStrings : List Json → List String
  | [] => []
  | v :: rest => v.strings ++ itemStrings rest

def entryStrings : List (String × Json) → List String
  | [] => []
  | (k, v) :: rest => k :: (v.strings ++ entryStrings rest)
end

mutual
/-- The value whose strings went through `f`; of equal keys the last one stays. -/
def Json.mapStrings (f : String → String) : Json → Json
  | .str s => .str (f s)
  | .list items => .list (mapItems f items)
  | .dict entries => .dict (ofPairs (mapEntries f entries))
  | v => v

def mapItems (f : String → String) : List Json → List Json
  | [] => []
  | v :: rest => v.mapStrings f :: mapItems f rest

def mapEntries (f : String → String) : List (String × Json) → List (String × Json)
  | [] => []
  | (k, v) :: rest => (f k, v.mapStrings f) :: mapEntries f rest
end

theorem mem_entryStrings_assign {k : String} {v : Json} {entries : List (String × Json)} :
    ∀ s ∈ entryStrings (assign k v entries), s = k ∨ s ∈ v.strings ∨ s ∈ entryStrings entries := by
  induction entries with
  | nil =>
    intro s member
    simpa [assign, entryStrings] using member
  | cons entry rest ih =>
    obtain ⟨j, w⟩ := entry
    intro s member
    simp only [assign] at member
    split at member
    · rename_i same
      simp only [entryStrings, List.mem_cons, List.mem_append] at member ⊢
      grind
    · simp only [entryStrings, List.mem_cons, List.mem_append] at member ⊢
      have later := ih s
      grind

theorem mem_entryStrings_ofPairs {pairs : List (String × Json)} :
    ∀ s ∈ entryStrings (ofPairs pairs), s ∈ entryStrings pairs := by
  have fold : ∀ entries : List (String × Json), ∀ s ∈ entryStrings (pairs.foldl
      (fun entries pair => assign pair.1 pair.2 entries) entries),
      s ∈ entryStrings entries ∨ s ∈ entryStrings pairs := by
    induction pairs with
    | nil => exact fun _ _ member => .inl member
    | cons pair pairs ih =>
      intro entries s member
      have later := ih _ s member
      have assigned : s ∈ entryStrings (assign pair.1 pair.2 entries) → _ :=
        mem_entryStrings_assign s
      simp only [entryStrings, List.mem_cons, List.mem_append]
      grind
  intro s member
  exact (fold [] s member).resolve_left (by simp [entryStrings])

mutual
theorem mem_strings_mapStrings {f : String → String} (v : Json) :
    ∀ s ∈ (v.mapStrings f).strings, ∃ t ∈ v.strings, s = f t := by
  match v with
  | .null | .bool _ | .int _ | .float _ => simp [Json.mapStrings, Json.strings]
  | .str s => simp [Json.mapStrings, Json.strings]
  | .list items => exact mem_strings_mapItems items
  | .dict entries =>
    exact fun s member => mem_strings_mapEntries entries s (mem_entryStrings_ofPairs s member)

theorem mem_strings_mapItems {f : String → String} (items : List Json) :
    ∀ s ∈ itemStrings (mapItems f items), ∃ t ∈ itemStrings items, s = f t := by
  match items with
  | [] => simp [mapItems, itemStrings]
  | v :: rest =>
    have first := mem_strings_mapStrings (f := f) v
    have later := mem_strings_mapItems (f := f) rest
    simp only [mapItems, itemStrings, List.mem_append]
    grind

theorem mem_strings_mapEntries {f : String → String} (entries : List (String × Json)) :
    ∀ s ∈ entryStrings (mapEntries f entries), ∃ t ∈ entryStrings entries, s = f t := by
  match entries with
  | [] => simp [mapEntries, entryStrings]
  | (k, v) :: rest =>
    have first := mem_strings_mapStrings (f := f) v
    have later := mem_strings_mapEntries (f := f) rest
    simp only [mapEntries, entryStrings, List.mem_cons, List.mem_append]
    grind
end

mutual
/-- What the reader recurses through. -/
def Json.weight : Json → ℕ
  | .list items => 1 + itemsWeight items
  | .dict entries => 1 + entriesWeight entries
  | _ => 1

def itemsWeight : List Json → ℕ
  | [] => 0
  | v :: rest => 1 + v.weight + itemsWeight rest

def entriesWeight : List (String × Json) → ℕ
  | [] => 0
  | (_, v) :: rest => 1 + v.weight + entriesWeight rest
end

section Encode
variable [FloatRepr] (body : String → List Char)

mutual
/-- A dump whose string literals have the bodies `body s`. -/
def encode : Json → List Char
  | .null => ['n', 'u', 'l', 'l']
  | .bool true => ['t', 'r', 'u', 'e']
  | .bool false => ['f', 'a', 'l', 's', 'e']
  | .int n => intRepr n
  | .float x => FloatRepr.repr x
  | .str s => '"' :: (body s ++ ['"'])
  | .list [] => ['[', ']']
  | .list (v :: rest) => '[' :: (encode v ++ encodeItems rest)
  | .dict [] => ['{', '}']
  | .dict ((k, v) :: rest) =>
    '{' :: '"' :: (body k ++ '"' :: ':' :: ' ' :: (encode v ++ encodeEntries rest))

def encodeItems : List Json → List Char
  | [] => [']']
  | v :: rest => ',' :: ' ' :: (encode v ++ encodeItems rest)

def encodeEntries : List (String × Json) → List Char
  | [] => ['}']
  | (k, v) :: rest =>
    ',' :: ' ' :: '"' :: (body k ++ '"' :: ':' :: ' ' :: (encode v ++ encodeEntries rest))
end

end Encode

section Dumps
variable [FloatRepr]

mutual
theorem dumps_eq_encode (v : Json) : dumps v = encode (fun s => s.toList.flatMap escape) v := by
  match v with
  | .null | .bool true | .bool false | .int _ | .float _ | .list [] | .dict [] => rfl
  | .str s => rfl
  | .list (v :: rest) => rw [dumps, encode, dumps_eq_encode v, dumpsItems_eq_encode rest]
  | .dict ((k, v) :: rest) =>
    rw [dumps, encode, dumps_eq_encode v, dumpsEntries_eq_encode rest]
    simp [quote]

theorem dumpsItems_eq_encode (items : List Json) :
    dumpsItems items = encodeItems (fun s => s.toList.flatMap escape) items := by
  match items with
  | [] => rfl
  | v :: rest => rw [dumpsItems, encodeItems, dumps_eq_encode v, dumpsItems_eq_encode rest]

theorem dumpsEntries_eq_encode (entries : List (String × Json)) :
    dumpsEntries entries = encodeEntries (fun s => s.toList.flatMap escape) entries := by
  match entries with
  | [] => rfl
  | (k, v) :: rest =>
    rw [dumpsEntries, encodeEntries, dumps_eq_encode v, dumpsEntries_eq_encode rest]
    simp [quote]
end

end Dumps

/-- The call returns `a` if `ok` holds, and raises a decode error otherwise. -/
inductive Reads {α : Type} (ok : Prop) (a : α) : Py α → Prop
  | value : ok → Reads ok a (.ok a)
  | error {msg} : ¬ ok → Reads ok a (.error (decodeError msg))

theorem Reads.bind {α β : Type} {p q : Prop} {a : α} {b : β} {r : Py α} {g : α → Py β}
    (first : Reads p a r) (next : Reads q b (g a)) : Reads (p ∧ q) b (r >>= g) := by
  cases first with
  | error fails => exact .error fun h => fails h.1
  | value holds =>
    change Reads _ _ (g a)
    generalize g a = result at next
    cases next with
    | value later => exact .value ⟨holds, later⟩
    | error fails => exact .error fun h => fails h.2

theorem Reads.of_iff {α : Type} {p q : Prop} {a : α} {r : Py α} (reads : Reads p a r)
    (same : p ↔ q) : Reads q a r := by
  cases reads with
  | value holds => exact .value (same.mp holds)
  | error fails => exact .error (mt same.mpr fails)

theorem Reads.holds {α : Type} {p : Prop} {a b : α} (reads : Reads p a (.ok b)) : p := by
  cases reads with
  | value holds => exact holds

theorem Reads.map {α β : Type} {p : Prop} {a : α} {b : β} {r : Py α} {g : α → Py β}
    (reads : Reads p a r) (result : g a = .ok b) : Reads p b (r >>= g) := by
  cases reads with
  | error fails => exact .error fails
  | value holds =>
    change Reads p b (g a)
    rw [result]
    exact .value holds

theorem skipSpace_of_head {cs : List Char} (shown : ∀ c ∈ cs.head?, isJsonSpace c = false) :
    skipSpace cs = cs := by
  cases cs with
  | nil => rfl
  | cons c cs => simp [skipSpace, shown c (by simp)]

theorem isJsonSpace_token {c : Char} (token : isToken c = true) : isJsonSpace c = false := by
  rw [← Bool.not_eq_true]
  intro space
  simp only [isJsonSpace, Bool.or_eq_true, beq_iff_eq, or_assoc] at space
  rcases space with rfl | rfl | rfl | rfl <;> contradiction

section Scan
variable [FloatRepr] {body : String → List Char}

/-- What opens a value is neither a space nor a closing bracket. -/
theorem encode_head (v : Json) (rest : List Char) :
    ∀ c ∈ (encode body v ++ rest).head?, isJsonSpace c = false ∧ c ≠ ']' := by
  have token : ∀ text : List Char, text ≠ [] → (∀ c ∈ text, isToken c = true) →
      ∀ c ∈ (text ++ rest).head?, isJsonSpace c = false ∧ c ≠ ']' := by
    intro text nonempty tokens c opens
    rw [List.head?_append_of_ne_nil _ nonempty] at opens
    have token := tokens c (List.mem_of_mem_head? opens)
    refine ⟨isJsonSpace_token token, ?_⟩
    rintro rfl
    contradiction
  cases v with
  | null => simp [encode, isJsonSpace]
  | bool b => cases b <;> simp [encode, isJsonSpace]
  | int n => exact token _ (intRepr_ne_nil n) (intRepr_token n)
  | float x => exact token _ (FloatRepr.repr_ne_nil x) (FloatRepr.repr_token x)
  | str s => simp [encode, isJsonSpace]
  | list items => cases items <;> simp [encode, isJsonSpace]
  | dict entries => rcases entries with _ | ⟨⟨k, v⟩, rest⟩ <;> simp [encode, isJsonSpace]

theorem skipSpace_encode (v : Json) (rest : List Char) :
    skipSpace (encode body v ++ rest) = encode body v ++ rest :=
  skipSpace_of_head fun c opens => (encode_head v rest c opens).1

variable (body) in
theorem encodeItems_ends (items : List Json) (rest : List Char) :
    Ends (encodeItems body items ++ rest) := by
  cases items <;> simp [Ends, encodeItems]

variable (body) in
theorem encodeEntries_ends (entries : List (String × Json)) (rest : List Char) :
    Ends (encodeEntries body entries ++ rest) := by
  rcases entries with _ | ⟨⟨k, v⟩, entries⟩ <;> simp [Ends, encodeEntries]

mutual
/-- The text of a value is at least half as long as what the reader recurses through. -/
theorem weight_le (v : Json) : v.weight ≤ 2 * (encode body v).length := by
  match v with
  | .null | .bool true | .bool false | .list [] | .dict [] =>
    simp [Json.weight, encode, itemsWeight, entriesWeight]
  | .str s =>
    simp only [Json.weight, encode, List.length_cons]
    omega
  | .int n =>
    have := List.length_pos_of_ne_nil (intRepr_ne_nil n)
    simp only [Json.weight, encode]
    omega
  | .float x =>
    have := List.length_pos_of_ne_nil (FloatRepr.repr_ne_nil x)
    simp only [Json.weight, encode]
    omega
  | .list (v :: rest) =>
    have first := weight_le v
    have later := itemsWeight_le rest
    simp only [Json.weight, itemsWeight, encode, List.length_cons, List.length_append]
    omega
  | .dict ((k, v) :: rest) =>
    have first := weight_le v
    have later := entriesWeight_le rest
    simp only [Json.weight, entriesWeight, encode, List.length_cons, List.length_append]
    omega

theorem itemsWeight_le (items : List Json) :
    itemsWeight items ≤ 2 * (encodeItems body items).length := by
  match items with
  | [] => simp [itemsWeight]
  | v :: rest =>
    have first := weight_le v
    have later := itemsWeight_le rest
    simp only [itemsWeight, encodeItems, List.length_cons, List.length_append]
    omega

theorem entriesWeight_le (entries : List (String × Json)) :
    entriesWeight entries ≤ 2 * (encodeEntries body entries).length := by
  match entries with
  | [] => simp [entriesWeight]
  | (k, v) :: rest =>
    have first := weight_le v
    have later := entriesWeight_le rest
    simp only [entriesWeight, encodeEntries, List.length_cons, List.length_append]
    omega
end

variable [FloatReader]

/-- A literal character opens a number. -/
theorem scanOnce_number (fuel : ℕ) {text rest : List Char} {isFloat : Bool} (nonempty : text ≠ [])
    (token : ∀ c ∈ text, isToken c = true)
    (number : scanNumber (text ++ rest) = some (text, isFloat, rest)) :
    scanOnce (fuel + 1) (text ++ rest) =
      .ok (if isFloat then .float (FloatReader.read text) else .int (readInt text), rest) := by
  obtain ⟨c, cs, rfl⟩ := List.exists_cons_of_ne_nil nonempty
  have lead := token c (by simp)
  rw [List.cons_append] at number ⊢
  unfold scanOnce
  split
  case h_7 =>
    rw [number]
    cases isFloat <;> rfl
  all_goals
    rename_i opens
    obtain ⟨rfl, -⟩ := List.cons.inj opens
    contradiction

theorem scanOnce_list (fuel : ℕ) {cs : List Char}
    (shown : ∀ c ∈ cs.head?, isJsonSpace c = false ∧ c ≠ ']') :
    scanOnce (fuel + 1) ('[' :: cs) =
      (scanItems fuel cs >>= fun read => pure (Json.list read.1, read.2)) := by
  rw [scanOnce, skipSpace_of_head fun c opens => (shown c opens).1]
  cases cs with
  | nil => rfl
  | cons c cs =>
    have other := (shown c (by simp)).2
    split
    · rename_i opens
      exact absurd (List.cons.inj opens).1 other
    · rfl

variable {good : String → Prop} {f : String → String}

mutual
/-- Reading a dump fails exactly when one of its string literals does not scan. -/
theorem scanOnce_encode (scans : ∀ s rest,
      Reads (good s) ((f s).toList, rest) (scanString none (body s ++ '"' :: rest)))
    (v : Json) (fuel : ℕ) (enough : v.weight ≤ fuel) {rest : List Char} (ends : Ends rest) :
    Reads (∀ s ∈ v.strings, good s) (v.mapStrings f, rest)
      (scanOnce fuel (encode body v ++ rest)) := by
  match v, fuel, enough with
  | .null, fuel + 1, _ => exact .value (by simp [Json.strings])
  | .bool true, fuel + 1, _ => exact .value (by simp [Json.strings])
  | .bool false, fuel + 1, _ => exact .value (by simp [Json.strings])
  | .int n, fuel + 1, _ =>
    rw [encode, scanOnce_number fuel (intRepr_ne_nil n) (intRepr_token n)
      (scanNumber_intRepr n ends), readInt_intRepr]
    exact .value (by simp [Json.strings])
  | .float x, fuel + 1, _ =>
    rw [encode, scanOnce_number fuel (FloatRepr.repr_ne_nil x) (FloatRepr.repr_token x)
      (FloatReader.scan_repr x rest ends), FloatReader.read_repr]
    exact .value (by simp [Json.strings])
  | .str s, fuel + 1, _ =>
    simp only [encode, List.cons_append, List.append_assoc, List.nil_append, scanOnce]
    refine ((scans s rest).map ?_).of_iff (by simp [Json.strings])
    rw [String.ofList_toList]
    rfl
  | .list [], fuel + 1, _ => exact .value (by simp [Json.strings, itemStrings])
  | .list (v :: items), fuel + 1, enough =>
    have enough : itemsWeight (v :: items) ≤ fuel := by simp only [Json.weight] at enough; omega
    simp only [encode, List.cons_append, List.append_assoc]
    rw [scanOnce_list fuel (encode_head v _)]
    exact (scanItems_encode scans v items fuel enough rest).map rfl
  | .dict [], fuel + 1, _ => exact .value (by simp [Json.strings, entryStrings])
  | .dict ((k, v) :: entries), fuel + 1, enough =>
    have enough : entriesWeight ((k, v) :: entries) ≤ fuel := by
      simp only [Json.weight] at enough
      omega
    simp only [encode, List.cons_append, List.append_assoc, scanOnce]
    exact (scanPairs_encode scans k v entries fuel enough rest).map rfl
  | .null, 0, enough | .bool _, 0, enough | .int _, 0, enough | .float _, 0, enough
  | .str _, 0, enough | .list _, 0, enough | .dict _, 0, enough =>
    simp [Json.weight] at enough

theorem scanItems_encode (scans : ∀ s rest,
      Reads (good s) ((f s).toList, rest) (scanString none (body s ++ '"' :: rest)))
    (v : Json) (items : List Json) (fuel : ℕ) (enough : itemsWeight (v :: items) ≤ fuel)
    (rest : List Char) :
    Reads (∀ s ∈ itemStrings (v :: items), good s) (mapItems f (v :: items), rest)
      (scanItems fuel (encode body v ++ (encodeItems body items ++ rest))) := by
  match items, fuel, enough with
  | _, 0, enough => simp only [itemsWeight] at enough; omega
  | [], fuel + 1, enough =>
    simp only [itemsWeight] at enough
    have first := scanOnce_encode scans v fuel (by omega) (encodeItems_ends body [] rest)
    rw [scanItems]
    refine Reads.of_iff (first.map rfl) ?_
    simp [itemStrings]
  | w :: items, fuel + 1, enough =>
    rw [itemsWeight] at enough
    have first := scanOnce_encode scans v fuel (by omega) (encodeItems_ends body (w :: items) rest)
    have later := scanItems_encode scans w items fuel (by omega) rest
    rw [← skipSpace_encode w] at later
    rw [scanItems]
    refine (first.bind (q := ∀ s ∈ itemStrings (w :: items), good s) ?_).of_iff
      (by simp [itemStrings, or_imp, forall_and])
    simp only [encodeItems, List.cons_append, List.append_assoc]
    change Reads _ _ (scanItems fuel _ >>= fun read => pure (v.mapStrings f :: read.1, read.2))
    exact later.map rfl

theorem scanPairs_encode (scans : ∀ s rest,
      Reads (good s) ((f s).toList, rest) (scanString none (body s ++ '"' :: rest)))
    (k : String) (v : Json) (entries : List (String × Json)) (fuel : ℕ)
    (enough : entriesWeight ((k, v) :: entries) ≤ fuel) (rest : List Char) :
    Reads (∀ s ∈ entryStrings ((k, v) :: entries), good s) (mapEntries f ((k, v) :: entries), rest)
      (scanPairs fuel ('"' :: (body k ++
        '"' :: ':' :: ' ' :: (encode body v ++ (encodeEntries body entries ++ rest))))) := by
  match entries, fuel, enough with
  | _, 0, enough => simp only [entriesWeight] at enough; omega
  | [], fuel + 1, enough =>
    simp only [entriesWeight] at enough
    have first := scanOnce_encode scans v fuel (by omega) (encodeEntries_ends body [] rest)
    rw [← skipSpace_encode v] at first
    rw [scanPairs]
    refine ((scans k _).bind (q := ∀ s ∈ v.strings, good s) ?_).of_iff (by simp [entryStrings])
    refine first.map ?_
    rw [String.ofList_toList]
    rfl
  | (j, w) :: entries, fuel + 1, enough =>
    rw [entriesWeight] at enough
    have first := scanOnce_encode scans v fuel (by omega) (encodeEntries_ends body ((j, w) :: entries) rest)
    have later := scanPairs_encode scans j w entries fuel (by omega) rest
    rw [← skipSpace_encode v] at first
    rw [scanPairs]
    refine ((scans k _).bind (q := (∀ s ∈ v.strings, good s) ∧
      ∀ s ∈ entryStrings ((j, w) :: entries), good s) ?_).of_iff
      (by simp [entryStrings, or_imp, forall_and])
    refine first.bind ?_
    simp only [encodeEntries, List.cons_append, List.append_assoc]
    change Reads _ _ (scanPairs fuel _ >>= fun read =>
      pure ((String.ofList (f k).toList, v.mapStrings f) :: read.1, read.2))
    refine later.map ?_
    rw [String.ofList_toList]
    rfl
end

theorem loads_encode (scans : ∀ s rest,
      Reads (good s) ((f s).toList, rest) (scanString none (body s ++ '"' :: rest))) (v : Json) :
    Reads (∀ s ∈ v.strings, good s) (v.mapStrings f) (loads (encode body v)) := by
  have text := scanOnce_encode scans v (2 * (encode body v).length + 1)
    ((weight_le v).trans (Nat.le_succ _)) (show Ends [] by simp [Ends])
  rw [List.append_nil] at text
  have spaced : skipSpace (encode body v ++ []) = _ := skipSpace_encode v []
  rw [List.append_nil] at spaced
  rw [loads, spaced]
  exact text.map rfl

/-- Only a repeated key does not survive being written and read. -/
theorem loads_dumps (v : Json) : loads (dumps v) = .ok (v.mapStrings id) := by
  have scans : ∀ (s : String) (rest : List Char), Reads True ((id s).toList, rest)
      (scanString none (s.toList.flatMap escape ++ '"' :: rest)) := by
    intro s rest
    rw [scanString_body]
    exact .value trivial
  have reads := loads_encode scans v
  rw [← dumps_eq_encode] at reads
  generalize loads (dumps v) = result at reads
  cases reads with
  | value _ => rfl
  | error fails => exact absurd (fun _ _ => trivial) fails

end Scan

end Python
