import Mathlib.Tactic.IntervalCases
import Sentinel.Python.Json

/-! A dump determines its value. Every kind of value opens with its own
characters, a literal ends where a non-literal character stands, and a string
body is read back one escaped character at a time. -/
namespace Python

def hexValue (c : Char) : Nat :=
  if c.toNat < 58 then c.toNat - 48 else c.toNat - 87

theorem hexValue_hexDigit {n : Nat} (small : n < 16) : hexValue (hexDigit n) = n := by
  interval_cases n <;> decide

/-- The code of the four hex digits that open `cs`, and what follows them. -/
def hexCode : List Char → Option (Nat × List Char)
  | '\\' :: 'u' :: a :: b :: c :: d :: rest =>
    some (hexValue a * 4096 + hexValue b * 256 + hexValue c * 16 + hexValue d, rest)
  | _ => none

theorem hexCode_unicodeEscape {n : Nat} (small : n < 0x10000) (rest : List Char) :
    hexCode (unicodeEscape n ++ rest) = some (n, rest) := by
  simp only [unicodeEscape, List.cons_append, List.nil_append, hexCode, Option.some.injEq,
    Prod.mk.injEq, and_true]
  rw [hexValue_hexDigit (by omega), hexValue_hexDigit (by omega), hexValue_hexDigit (by omega),
    hexValue_hexDigit (by omega)]
  omega

/-- The character that opens a string literal's body, as `scanstring` reads it. -/
def unescape (cs : List Char) : Option (Char × List Char) :=
  match cs with
  | '\\' :: '"' :: rest => some ('"', rest)
  | '\\' :: '\\' :: rest => some ('\\', rest)
  | '\\' :: 'n' :: rest => some ('\n', rest)
  | '\\' :: 'r' :: rest => some ('\r', rest)
  | '\\' :: 't' :: rest => some ('\t', rest)
  | '\\' :: 'b' :: rest => some ('\x08', rest)
  | '\\' :: 'f' :: rest => some ('\x0c', rest)
  | '\\' :: 'u' :: _ =>
    match hexCode cs with
    | none => none
    | some (high, rest) =>
      if high < 0xd800 ∨ 0xdfff < high then some (Char.ofNat high, rest)
      else match hexCode rest with
      | none => none
      | some (low, rest) =>
        some (Char.ofNat (0x10000 + (high - 0xd800) * 0x400 + (low - 0xdc00)), rest)
  | '"' :: _ => none
  | c :: rest => some (c, rest)
  | [] => none

/-- The characters that are escaped by a letter. -/
def escapeLetters : List (Char × Char) :=
  [('"', '"'), ('\\', '\\'), ('\n', 'n'), ('\r', 'r'), ('\t', 't'), ('\x08', 'b'), ('\x0c', 'f')]

/-- The forms that a character has in a string literal. -/
inductive EscapeForm (c : Char) : List Char → Prop
  | letter {d : Char} (listed : (c, d) ∈ escapeLetters) : EscapeForm c ['\\', d]
  | shown (quote : c ≠ '"') (backslash : c ≠ '\\') (plain : ' ' ≤ c ∧ c ≤ '~') : EscapeForm c [c]
  | unit (small : c.toNat < 0x10000) : EscapeForm c (unicodeEscape c.toNat)
  | pair (large : ¬ c.toNat < 0x10000) :
    EscapeForm c (unicodeEscape (0xd800 + (c.toNat - 0x10000) / 0x400) ++
      unicodeEscape (0xdc00 + (c.toNat - 0x10000) % 0x400))

theorem escape_form (c : Char) : EscapeForm c (escape c) := by
  unfold escape
  refine iteInduction (fun h => .letter (by simp [escapeLetters, h])) fun quote => ?_
  refine iteInduction (fun h => .letter (by simp [escapeLetters, h])) fun backslash => ?_
  iterate 5 refine iteInduction (fun h => .letter (by simp [escapeLetters, h])) fun _ => ?_
  refine iteInduction (fun plain => .shown quote backslash plain) fun _ => ?_
  exact iteInduction .unit .pair

theorem toNat_scalar (c : Char) : c.toNat < 0xd800 ∨ 0xdfff < c.toNat ∧ c.toNat < 0x110000 := by
  have valid := c.valid
  simp only [UInt32.isValidChar, Nat.isValidChar] at valid
  exact valid

theorem unescape_escape (c : Char) (rest : List Char) :
    unescape (escape c ++ rest) = some (c, rest) := by
  have form := escape_form c
  generalize escape c = text at form ⊢
  cases form with
  | letter listed =>
    simp only [escapeLetters, List.mem_cons, Prod.mk.injEq, List.not_mem_nil, or_false] at listed
    rcases listed with ⟨rfl, rfl⟩ | ⟨rfl, rfl⟩ | ⟨rfl, rfl⟩ | ⟨rfl, rfl⟩ | ⟨rfl, rfl⟩ | ⟨rfl, rfl⟩ | ⟨rfl, rfl⟩ <;>
      rfl
  | shown quote backslash plain =>
    simp only [List.cons_append, List.nil_append]
    unfold unescape
    split <;> simp_all
  | unit small =>
    have scalar : c.toNat < 0xd800 ∨ 0xdfff < c.toNat := (toNat_scalar c).imp_right And.left
    have read := hexCode_unicodeEscape small rest
    simp only [unicodeEscape, List.cons_append, List.nil_append] at read ⊢
    simp only [unescape, read, if_pos scalar, Char.ofNat_toNat]
  | pair large =>
    have bound := toNat_scalar c
    have high := hexCode_unicodeEscape (n := 0xd800 + (c.toNat - 0x10000) / 0x400) (by omega)
      (unicodeEscape (0xdc00 + (c.toNat - 0x10000) % 0x400) ++ rest)
    have low := hexCode_unicodeEscape (n := 0xdc00 + (c.toNat - 0x10000) % 0x400) (by omega) rest
    have surrogate : ¬ (0xd800 + (c.toNat - 0x10000) / 0x400 < 0xd800 ∨
        0xdfff < 0xd800 + (c.toNat - 0x10000) / 0x400) := by omega
    have value : 0x10000 + (0xd800 + (c.toNat - 0x10000) / 0x400 - 0xd800) * 0x400 +
        (0xdc00 + (c.toNat - 0x10000) % 0x400 - 0xdc00) = c.toNat := by omega
    simp only [List.append_assoc]
    generalize unicodeEscape (0xdc00 + (c.toNat - 0x10000) % 0x400) ++ rest = tail at *
    simp only [unicodeEscape, List.cons_append, List.nil_append] at high ⊢
    simp only [unescape, high, if_neg surrogate, low, value, Char.ofNat_toNat]

theorem body_readable {s t : List Char} {r r' : List Char}
    (same : s.flatMap escape ++ '"' :: r = t.flatMap escape ++ '"' :: r') : s = t ∧ r = r' := by
  have closed : ∀ tail, unescape ('"' :: tail) = none := fun _ => rfl
  induction s generalizing t with
  | nil =>
    cases t with
    | nil => simpa using same
    | cons d ds =>
      have read := congrArg unescape same
      simp [List.append_assoc, unescape_escape, closed] at read
  | cons c cs ih =>
    cases t with
    | nil =>
      have read := congrArg unescape same
      simp [List.append_assoc, unescape_escape, closed] at read
    | cons d ds =>
      have read := congrArg unescape same
      simp only [List.flatMap_cons, List.append_assoc, unescape_escape, Option.some.injEq,
        Prod.mk.injEq] at read
      obtain ⟨rfl, rest⟩ := read
      obtain ⟨rfl, tails⟩ := ih rest
      exact ⟨rfl, tails⟩

theorem quote_readable {s t : String} {r r' : List Char} (same : quote s ++ r = quote t ++ r') :
    s = t ∧ r = r' := by
  simp only [quote, List.cons_append, List.append_assoc, List.cons.injEq, true_and,
    List.nil_append] at same
  obtain ⟨chars, tails⟩ := body_readable same
  exact ⟨String.toList_injective chars, tails⟩

/-- What may follow a value: anything that does not extend a literal. -/
def Separated (rest : List Char) : Prop := ∀ c ∈ rest.head?, isToken c = false

theorem token_readable {a b r r' : List Char} (ha : ∀ c ∈ a, isToken c = true)
    (hb : ∀ c ∈ b, isToken c = true) (hr : Separated r) (hr' : Separated r')
    (same : a ++ r = b ++ r') : a = b ∧ r = r' := by
  induction a generalizing b with
  | nil =>
    cases b with
    | nil => exact ⟨rfl, same⟩
    | cons c cs =>
      have opens : r.head? = some c := by simpa using congrArg List.head? same
      have := hr c (by simp [opens])
      simp [hb c (by simp)] at this
  | cons c cs ih =>
    cases b with
    | nil =>
      have opens : r'.head? = some c := by simpa using (congrArg List.head? same).symm
      have := hr' c (by simp [opens])
      simp [ha c (by simp)] at this
    | cons d ds =>
      simp only [List.cons_append, List.cons.injEq] at same
      obtain ⟨rfl, rest⟩ := same
      obtain ⟨rfl, tails⟩ := ih (fun c hc => ha c (by simp [hc]))
        (fun c hc => hb c (by simp [hc])) rest
      exact ⟨rfl, tails⟩

theorem intRepr_token (n : Int) : ∀ c ∈ intRepr n, isToken c = true := by
  have digits : ∀ m, ∀ c ∈ Nat.toDigits 10 m, isToken c = true := by
    intro m c member
    simp [isToken, Nat.isDigit_of_mem_toDigits (by decide) (by decide) member]
  intro c member
  cases n with
  | ofNat m => exact digits m c member
  | negSucc m =>
    rcases List.mem_cons.mp member with rfl | member
    · decide
    · exact digits _ c member

theorem toDigits_injective : Function.Injective (Nat.toDigits 10) := by
  intro m n same
  have read := congrArg (Nat.ofDigitChars 10 · 0) same
  simpa only [Nat.ofDigitChars_ten_toDigits] using read

theorem intRepr_injective : Function.Injective intRepr := by
  have minus : ∀ m, '-' ∉ Nat.toDigits 10 m := by
    intro m member
    have := Nat.isDigit_of_mem_toDigits (by decide) (by decide) member
    contradiction
  intro m n same
  cases m with
  | ofNat m =>
    cases n with
    | ofNat n => exact congrArg Int.ofNat (toDigits_injective same)
    | negSucc n => exact False.elim (minus m (by simp only [intRepr] at same; simp [same]))
  | negSucc m =>
    cases n with
    | ofNat n => exact False.elim (minus n (by simp only [intRepr] at same; simp [← same]))
    | negSucc n =>
      simp only [intRepr, List.cons.injEq, true_and] at same
      have := toDigits_injective same
      simp_all

theorem intRepr_undotted (n : Int) : '.' ∉ intRepr n := by
  have digits : ∀ m, '.' ∉ Nat.toDigits 10 m := by
    intro m member
    have := Nat.isDigit_of_mem_toDigits (by decide) (by decide) member
    contradiction
  cases n with
  | ofNat n => exact digits n
  | negSucc n => simp [intRepr, digits]

theorem intRepr_ne_nil (n : Int) : intRepr n ≠ [] := by
  cases n with
  | ofNat n => exact Nat.toDigits_ne_nil
  | negSucc n => simp [intRepr]

/-- The constructor a value's text belongs to, read off its first character. -/
def leadKind (c : Char) : Nat :=
  if c = 'n' then 1 else if c = 't' then 2 else if c = 'f' then 3 else if c = '"' then 4
  else if c = '[' then 5 else if c = '{' then 6 else if c = ']' then 7 else 0

def Json.kind : Json → Nat
  | .null => 1
  | .bool true => 2
  | .bool false => 3
  | .str _ => 4
  | .list _ => 5
  | .dict _ => 6
  | .int _ | .float _ => 0

theorem leadKind_token {c : Char} (token : isToken c = true) : leadKind c = 0 := by
  unfold leadKind
  split_ifs with h1 h2 h3 h4 h5 h6 h7
  any_goals (subst c; contradiction)
  rfl

section Readable
variable [FloatRepr]

theorem dumps_lead (v : Json) (rest : List Char) :
    ((dumps v ++ rest).head?).map leadKind = some v.kind := by
  have token : ∀ text : List Char, text ≠ [] → (∀ c ∈ text, isToken c = true) →
      ((text ++ rest).head?).map leadKind = some 0 := by
    intro text nonempty tokens
    cases text with
    | nil => contradiction
    | cons c cs => simp [leadKind_token (tokens c (by simp))]
  cases v with
  | null => rfl
  | bool b => cases b <;> rfl
  | int n => exact token _ (intRepr_ne_nil n) (intRepr_token n)
  | float x => exact token _ (FloatRepr.repr_ne_nil x) (FloatRepr.repr_token x)
  | str s => rfl
  | list items => cases items <;> rfl
  | dict entries => rcases entries with _ | ⟨⟨k, v⟩, rest⟩ <;> rfl

theorem dumps_kind {v w : Json} {r r' : List Char} (same : dumps v ++ r = dumps w ++ r') :
    v.kind = w.kind := by
  have := dumps_lead w r'
  rw [← same, dumps_lead v r] at this
  exact Option.some.inj this

theorem dumps_not_closing (v : Json) {rest tail : List Char} : dumps v ++ rest ≠ ']' :: tail := by
  intro same
  have lead := dumps_lead v rest
  rw [same] at lead
  have : (7 : Nat) = v.kind := Option.some.inj lead
  cases v with
  | bool b => cases b <;> simp [Json.kind] at this
  | _ => simp [Json.kind] at this

theorem dumpsItems_separated (items : List Json) (r : List Char) :
    Separated (dumpsItems items ++ r) := by
  cases items <;> simp [Separated, dumpsItems] <;> decide

theorem dumpsEntries_separated (entries : List (String × Json)) (r : List Char) :
    Separated (dumpsEntries entries ++ r) := by
  rcases entries with _ | ⟨⟨k, v⟩, rest⟩ <;> simp [Separated, dumpsEntries] <;> decide

mutual
/-- A dump is read back in one way only, whatever may follow a value follows it. -/
theorem dumps_readable (v w : Json) {r r' : List Char} (hr : Separated r) (hr' : Separated r')
    (same : dumps v ++ r = dumps w ++ r') : v = w ∧ r = r' := by
  have kinds := dumps_kind same
  match v, w with
  | .null, .null => simpa [dumps] using same
  | .bool true, .bool true => simpa [dumps] using same
  | .bool false, .bool false => simpa [dumps] using same
  | .int m, .int n =>
    obtain ⟨text, tails⟩ := token_readable (intRepr_token m) (intRepr_token n) hr hr' same
    exact ⟨congrArg _ (intRepr_injective text), tails⟩
  | .int m, .float y =>
    obtain ⟨text, _⟩ := token_readable (intRepr_token m) (FloatRepr.repr_token y) hr hr' same
    exact False.elim (FloatRepr.repr_ne_int y m text.symm)
  | .float x, .int n =>
    obtain ⟨text, _⟩ := token_readable (FloatRepr.repr_token x) (intRepr_token n) hr hr' same
    exact False.elim (FloatRepr.repr_ne_int x n text)
  | .float x, .float y =>
    obtain ⟨text, tails⟩ :=
      token_readable (FloatRepr.repr_token x) (FloatRepr.repr_token y) hr hr' same
    exact ⟨congrArg _ (FloatRepr.repr_injective text), tails⟩
  | .str s, .str t =>
    obtain ⟨text, tails⟩ := quote_readable same
    exact ⟨congrArg _ text, tails⟩
  | .list [], .list [] => simpa [dumps] using same
  | .list [], .list (y :: ys) =>
    simp only [dumps, List.cons_append, List.append_assoc, List.cons.injEq, true_and] at same
    exact False.elim (dumps_not_closing y same.symm)
  | .list (x :: xs), .list [] =>
    simp only [dumps, List.cons_append, List.append_assoc, List.cons.injEq, true_and] at same
    exact False.elim (dumps_not_closing x same)
  | .list (x :: xs), .list (y :: ys) =>
    simp only [dumps, List.cons_append, List.append_assoc, List.cons.injEq, true_and] at same
    obtain ⟨rfl, rest⟩ := dumps_readable x y (dumpsItems_separated xs r)
      (dumpsItems_separated ys r') same
    obtain ⟨rfl, tails⟩ := dumpsItems_readable xs ys rest
    exact ⟨rfl, tails⟩
  | .dict [], .dict [] => simpa [dumps] using same
  | .dict [], .dict ((k, y) :: ys) => simp [dumps, quote] at same
  | .dict ((j, x) :: xs), .dict [] => simp [dumps, quote] at same
  | .dict ((j, x) :: xs), .dict ((k, y) :: ys) =>
    simp only [dumps, List.cons_append, List.append_assoc, List.cons.injEq, true_and] at same
    obtain ⟨rfl, after⟩ := quote_readable same
    simp only [List.cons.injEq, true_and] at after
    obtain ⟨rfl, rest⟩ := dumps_readable x y (dumpsEntries_separated xs r)
      (dumpsEntries_separated ys r') after
    obtain ⟨rfl, tails⟩ := dumpsEntries_readable xs ys rest
    exact ⟨rfl, tails⟩

theorem dumpsItems_readable (xs ys : List Json) {r r' : List Char}
    (same : dumpsItems xs ++ r = dumpsItems ys ++ r') : xs = ys ∧ r = r' := by
  match xs, ys with
  | [], [] => simpa [dumpsItems] using same
  | [], y :: ys => simp [dumpsItems] at same
  | x :: xs, [] => simp [dumpsItems] at same
  | x :: xs, y :: ys =>
    simp only [dumpsItems, List.cons_append, List.append_assoc, List.cons.injEq, true_and] at same
    obtain ⟨rfl, rest⟩ := dumps_readable x y (dumpsItems_separated xs r)
      (dumpsItems_separated ys r') same
    obtain ⟨rfl, tails⟩ := dumpsItems_readable xs ys rest
    exact ⟨rfl, tails⟩

theorem dumpsEntries_readable (xs ys : List (String × Json)) {r r' : List Char}
    (same : dumpsEntries xs ++ r = dumpsEntries ys ++ r') : xs = ys ∧ r = r' := by
  match xs, ys with
  | [], [] => simpa [dumpsEntries] using same
  | [], (k, y) :: ys => simp [dumpsEntries] at same
  | (j, x) :: xs, [] => simp [dumpsEntries] at same
  | (j, x) :: xs, (k, y) :: ys =>
    simp only [dumpsEntries, List.cons_append, List.append_assoc, List.cons.injEq, true_and]
      at same
    obtain ⟨rfl, after⟩ := quote_readable same
    simp only [List.cons.injEq, true_and] at after
    obtain ⟨rfl, rest⟩ := dumps_readable x y (dumpsEntries_separated xs r)
      (dumpsEntries_separated ys r') after
    obtain ⟨rfl, tails⟩ := dumpsEntries_readable xs ys rest
    exact ⟨rfl, tails⟩
end

theorem dumps_injective : Function.Injective dumps := by
  intro v w same
  have closed : Separated [] := by simp [Separated]
  exact (dumps_readable v w closed closed (by simpa using same)).1

end Readable

/-- Floats written as exact fractions satisfy what is relied on. -/
@[reducible] def fractionRepr : FloatRepr where
  repr x := intRepr x.num ++ '.' :: Nat.toDigits 10 x.den
  repr_injective := by
    have undotted : ∀ n, ∀ c ∈ intRepr n, (c != '.') = true := by
      intro n c member
      simp only [bne_iff_ne]
      rintro rfl
      exact intRepr_undotted n member
    intro x y same
    have numerators := congrArg (List.takeWhile (· != '.')) same
    rw [List.takeWhile_append_of_pos (undotted x.num),
      List.takeWhile_append_of_pos (undotted y.num)] at numerators
    have num : x.num = y.num := intRepr_injective (by simpa using numerators)
    have denominators : Nat.toDigits 10 x.den = Nat.toDigits 10 y.den := by
      simpa [num] using same
    exact Rat.ext num (toDigits_injective denominators)
  repr_token := by
    intro x c member
    simp only [List.mem_append, List.mem_cons] at member
    rcases member with member | rfl | member
    · exact intRepr_token _ _ member
    · decide
    · simp [isToken, Nat.isDigit_of_mem_toDigits (by decide) (by decide) member]
  repr_ne_nil := by simp
  repr_ne_int := fun x n same => intRepr_undotted n (by simp [← same])

/-! ### Key order -/

theorem sortEntries_perm {ν : Type*} (entries : List (String × ν)) :
    (sortEntries entries).Perm entries :=
  List.perm_insertionSort _ entries

theorem sortEntries_pairwise {ν : Type*} (entries : List (String × ν)) :
    (sortEntries entries).Pairwise (fun a b => a.1 ≤ b.1) := by
  have : Std.Total (fun a b : String × ν => a.1 ≤ b.1) := ⟨fun a b => le_total a.1 b.1⟩
  have : IsTrans (String × ν) (fun a b => a.1 ≤ b.1) := ⟨fun _ _ _ h h' => h.trans h'⟩
  exact List.pairwise_insertionSort _ _

theorem sortValues_eq_map (entries : List (String × Json)) :
    sortValues entries = entries.map fun entry => (entry.1, sortKeys entry.2) := by
  induction entries with
  | nil => rfl
  | cons entry rest ih => simp [sortValues, ih]

/-- Sorting a dict before it is dumped changes nothing that `sort_keys` would not
do. -/
theorem sortKeys_sorted (entries : List (String × Json)) :
    sortKeys (.dict (sortEntries entries)) = sortKeys (.dict entries) := by
  have commute : ∀ es : List (String × Json), sortValues (sortEntries es) =
      sortEntries (sortValues es) := by
    intro es
    rw [sortValues_eq_map, sortValues_eq_map]
    exact List.map_insertionSort _ _ _ _ fun _ _ _ _ => Iff.rfl
  have sorted := (sortEntries_pairwise (sortValues entries)).insertionSort_eq
  simp only [sortKeys, Json.dict.injEq, commute]
  exact sorted

end Python
