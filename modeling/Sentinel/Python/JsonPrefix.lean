import Mathlib.Data.List.TakeWhile
import Sentinel.Python.JsonReaderProofs

/-! What the reader reads is told by the text that it takes: with other text after it, and
with any fuel that is enough, the same value is read. So no object text goes on after
another one. -/
namespace Python

/-! ### Numbers -/

/-- A digit opens digits, whatever other text comes after them. -/
theorem digitsOf_opened {d : Char} (digit : d.isDigit = true) (cs : List Char) :
    ∃ more rest, digitsOf (d :: cs) = (d :: more, rest) ∧ d :: cs = d :: more ++ rest ∧
      ∀ rest', (∀ c ∈ rest'.head?, c.isDigit = false) →
        digitsOf (d :: (more ++ rest')) = (d :: more, rest') := by
  have first : (digitsOf (d :: cs)).1 = d :: (digitsOf cs).1 := by simp [digitsOf, digit]
  have split : (digitsOf (d :: cs)).1 ++ (digitsOf (d :: cs)).2 = d :: cs :=
    List.takeWhile_append_dropWhile
  have digits : ∀ c ∈ (digitsOf (d :: cs)).1, c.isDigit = true :=
    fun _ member => List.mem_takeWhile_imp member
  rw [first] at split digits
  refine ⟨(digitsOf cs).1, (digitsOf (d :: cs)).2, ?_, split.symm, fun rest' stop => ?_⟩
  · rw [← first]
  · exact digitsOf_append digits stop

/-- What may follow a number. -/
def Stops (rest : List Char) : Prop :=
  ∀ c ∈ rest.head?, c.isDigit = false ∧ c ≠ '.' ∧ c ≠ 'e' ∧ c ≠ 'E'

theorem scanInt_prefix {cs ds rest : List Char} (scanned : scanInt cs = some (ds, rest)) :
    cs = ds ++ rest ∧ (∃ c more, ds = c :: more ∧ c.isDigit = true) ∧
      ∀ rest', (∀ c ∈ rest'.head?, c.isDigit = false) → scanInt (ds ++ rest') = some (ds, rest') := by
  unfold scanInt at scanned
  split at scanned
  · cases scanned
    exact ⟨rfl, ⟨'0', [], rfl, by decide⟩, fun _ _ => rfl⟩
  · rename_i c rest₀ lead
    split_ifs at scanned with digit
    obtain ⟨more, rest₁, read, split, again⟩ := digitsOf_opened digit rest₀
    obtain ⟨rfl, rfl⟩ := Prod.mk.inj (read.symm.trans (Option.some.inj scanned))
    refine ⟨split, ⟨c, more, rfl, digit⟩, fun rest' stop => ?_⟩
    rw [List.cons_append, scanInt.eq_def]
    split
    · rename_i opens
      exact absurd (List.cons.inj opens).1 lead
    · rename_i opens
      obtain ⟨rfl, rfl⟩ := List.cons.inj opens
      rw [if_pos digit, again rest' stop]
    · rename_i opens
      cases opens
  · cases scanned

theorem scanFraction_prefix {cs f rest : List Char} (scanned : scanFraction cs = (f, rest)) :
    cs = f ++ rest ∧ (∀ c ∈ f.head?, c = '.') ∧
      ∀ rest', (∀ c ∈ rest'.head?, c.isDigit = false ∧ c ≠ '.') →
        scanFraction (f ++ rest') = (f, rest') := by
  have absent : ∀ rest', (∀ c ∈ rest'.head?, c.isDigit = false ∧ c ≠ '.') →
      scanFraction ([] ++ rest') = ([], rest') := by
    intro rest' stop
    rw [List.nil_append, scanFraction.eq_def]
    split
    · exact absurd rfl (stop '.' rfl).2
    · rfl
  unfold scanFraction at scanned
  split at scanned
  · rename_i d rest₀
    split_ifs at scanned with digit
    · obtain ⟨more, rest₁, read, split, again⟩ := digitsOf_opened digit rest₀
      rw [read] at scanned
      obtain ⟨rfl, rfl⟩ := Prod.mk.inj scanned
      refine ⟨congrArg ('.' :: ·) split, by simp, fun rest' stop => ?_⟩
      rw [List.cons_append, List.cons_append, scanFraction, if_pos digit,
        again rest' fun c opens => (stop c opens).1]
    · cases scanned
      exact ⟨rfl, by simp, absent⟩
  · cases scanned
    exact ⟨rfl, by simp, absent⟩

theorem scanDigits_prefix {lead cs x rest : List Char} (scanned : scanDigits lead (lead ++ cs) cs = (x, rest)) :
    (x = [] ∧ rest = lead ++ cs) ∨
      ∃ d more, d.isDigit = true ∧ x = lead ++ d :: more ∧ cs = d :: more ++ rest ∧
        ∀ rest', (∀ c ∈ rest'.head?, c.isDigit = false) →
          scanDigits lead (lead ++ d :: more ++ rest') (d :: more ++ rest') = (x, rest') := by
  unfold scanDigits at scanned
  split at scanned
  · rename_i d rest₀
    split_ifs at scanned with digit
    · obtain ⟨more, rest₁, read, split, again⟩ := digitsOf_opened digit rest₀
      rw [read] at scanned
      obtain ⟨rfl, rfl⟩ := Prod.mk.inj scanned
      refine .inr ⟨d, more, digit, rfl, split, fun rest' stop => ?_⟩
      rw [List.cons_append, scanDigits, if_pos digit, again rest' stop]
    · cases scanned
      exact .inl ⟨rfl, rfl⟩
  · cases scanned
    exact .inl ⟨rfl, by simp⟩

theorem scanExponent_none {rest : List Char} (stop : Stops rest) : scanExponent rest = ([], rest) := by
  unfold scanExponent
  split
  · rename_i e more
    have := stop e rfl
    rw [if_neg (by simp [this.2.2.1, this.2.2.2])]
  · rename_i e more
    have := stop e rfl
    rw [if_neg (by simp [this.2.2.1, this.2.2.2])]
  · rename_i e more _ _
    have := stop e rfl
    rw [if_neg (by simp [this.2.2.1, this.2.2.2])]
  · rfl

/-- The mark of an exponent with its sign is read with the digits after it, or not at all. -/
theorem scanExponent_marked {e : Char} (lead : List Char) {cs x rest : List Char} (exponent : e = 'e' ∨ e = 'E')
    (marked : ∀ d more, d.isDigit = true → scanExponent (e :: lead ++ d :: more) =
      scanDigits (e :: lead) (e :: lead ++ d :: more) (d :: more))
    (scanned : scanDigits (e :: lead) (e :: lead ++ cs) cs = (x, rest)) :
    e :: lead ++ cs = x ++ rest ∧ (∀ c ∈ x.head?, c = 'e' ∨ c = 'E') ∧
      ∀ rest', Stops rest' → scanExponent (x ++ rest') = (x, rest') := by
  rcases scanDigits_prefix scanned with ⟨rfl, rfl⟩ | ⟨d, ds, digit, rfl, rfl, again⟩
  · exact ⟨rfl, by simp, fun _ stop => scanExponent_none stop⟩
  · refine ⟨by simp, by simpa using exponent, fun rest' stop => ?_⟩
    have text : e :: lead ++ d :: ds ++ rest' = e :: lead ++ d :: (ds ++ rest') := by simp
    rw [← again rest' fun c opens => (stop c opens).1, text]
    exact marked d (ds ++ rest') digit

theorem scanExponent_prefix {cs x rest : List Char} (scanned : scanExponent cs = (x, rest)) :
    cs = x ++ rest ∧ (∀ c ∈ x.head?, c = 'e' ∨ c = 'E') ∧
      ∀ rest', Stops rest' → scanExponent (x ++ rest') = (x, rest') := by
  have absent (cs : List Char) (none : ([], cs) = (x, rest)) :
      cs = x ++ rest ∧ (∀ c ∈ x.head?, c = 'e' ∨ c = 'E') ∧
        ∀ rest', Stops rest' → scanExponent (x ++ rest') = (x, rest') := by
    cases none
    exact ⟨rfl, by simp, fun _ stop => scanExponent_none stop⟩
  unfold scanExponent at scanned
  split at scanned
  · rename_i e more
    split_ifs at scanned with exponent
    · exact scanExponent_marked ['+'] exponent (fun d ds _ => if_pos exponent) scanned
    · exact absent _ scanned
  · rename_i e more
    split_ifs at scanned with exponent
    · exact scanExponent_marked ['-'] exponent (fun d ds _ => if_pos exponent) scanned
    · exact absent _ scanned
  · rename_i e more _ _
    split_ifs at scanned with exponent
    · refine scanExponent_marked [] exponent (fun d ds digit => ?_) scanned
      have unsigned (sign : Char) (plain : sign.isDigit = false) : ∀ more, d :: ds ≠ sign :: more := by
        intro more same
        rw [(List.cons.inj same).1, plain] at digit
        cases digit
      rw [List.cons_append, List.nil_append, scanExponent, if_pos exponent]
      · exact unsigned '+' (by decide)
      · exact unsigned '-' (by decide)
    · exact absent _ scanned
  · exact absent _ scanned

/-- A number literal after its sign. -/
def scanUnsigned (sign cs : List Char) : Option (List Char × Bool × List Char) :=
  match scanInt cs with
  | none => none
  | some (digits, rest) =>
    let (fraction, rest) := scanFraction rest
    let (exponent, rest) := scanExponent rest
    some (sign ++ digits ++ fraction ++ exponent, !(fraction.isEmpty && exponent.isEmpty), rest)

theorem scanNumber_minus (cs : List Char) : scanNumber ('-' :: cs) = scanUnsigned ['-'] cs := rfl

theorem scanNumber_plain {cs : List Char} (plain : ∀ c ∈ cs.head?, c ≠ '-') :
    scanNumber cs = scanUnsigned [] cs := by
  unfold scanNumber
  split
  rename_i sign unsigned split
  split at split
  · exact absurd rfl (plain '-' rfl)
  · cases split
    rfl

theorem scanUnsigned_takes {sign cs text rest : List Char} {isFloat : Bool}
    (scanned : scanUnsigned sign cs = some (text, isFloat, rest)) :
    ∃ c more, text = sign ++ c :: more ∧ cs = c :: more ++ rest ∧ c.isDigit = true ∧
      ∀ rest', Stops rest' → scanUnsigned sign (c :: more ++ rest') = some (text, isFloat, rest') := by
  unfold scanUnsigned at scanned
  split at scanned
  · cases scanned
  · rename_i digits rest₁ int
    obtain ⟨rfl, ⟨c, more, rfl, digit⟩, int'⟩ := scanInt_prefix int
    cases fraction : scanFraction rest₁ with
    | mk f rest₂ =>
      obtain ⟨rfl, point, fraction'⟩ := scanFraction_prefix fraction
      cases exponent : scanExponent rest₂ with
      | mk x rest₃ =>
        obtain ⟨rfl, mark, exponent'⟩ := scanExponent_prefix exponent
        simp only [fraction, exponent, Option.some.injEq, Prod.mk.injEq] at scanned
        obtain ⟨rfl, rfl, rfl⟩ := scanned
        refine ⟨c, more ++ f ++ x, by simp, by simp, digit, fun rest' stop => ?_⟩
        have afterExponent : ∀ c ∈ (x ++ rest').head?, c.isDigit = false ∧ c ≠ '.' := by
          intro c opens
          cases x with
          | nil => exact ⟨(stop c opens).1, (stop c opens).2.1⟩
          | cons d x =>
            obtain rfl : d = c := by simpa using opens
            rcases mark d rfl with rfl | rfl <;> decide
        have afterFraction : ∀ c ∈ (f ++ (x ++ rest')).head?, c.isDigit = false := by
          intro c opens
          cases f with
          | nil => exact (afterExponent c opens).1
          | cons d f =>
            obtain rfl : d = c := by simpa using opens
            rw [point d rfl]
            decide
        have text : c :: (more ++ f ++ x) ++ rest' = c :: more ++ (f ++ (x ++ rest')) := by simp
        rw [text, scanUnsigned, int' _ afterFraction]
        simp only [fraction' _ afterExponent, exponent' _ stop]

/-- What a number literal is does not depend on what follows, unless that goes on. -/
theorem scanNumber_takes {cs text rest : List Char} {isFloat : Bool}
    (scanned : scanNumber cs = some (text, isFloat, rest)) :
    cs = text ++ rest ∧ (∃ c more, text = c :: more ∧ (c = '-' ∨ c.isDigit = true)) ∧
      ∀ rest', Stops rest' → scanNumber (text ++ rest') = some (text, isFloat, rest') := by
  by_cases minus : ∃ more, cs = '-' :: more
  · obtain ⟨more, rfl⟩ := minus
    rw [scanNumber_minus] at scanned
    obtain ⟨c, more, rfl, rfl, digit, again⟩ := scanUnsigned_takes scanned
    exact ⟨rfl, ⟨'-', _, rfl, .inl rfl⟩, fun rest' stop => again rest' stop⟩
  · have plain : ∀ c ∈ cs.head?, c ≠ '-' := by
      rintro c opens rfl
      obtain ⟨more, same⟩ := List.head?_eq_some_iff.mp opens
      exact minus ⟨more, same⟩
    rw [scanNumber_plain plain] at scanned
    obtain ⟨c, more, rfl, rfl, digit, again⟩ := scanUnsigned_takes scanned
    refine ⟨rfl, ⟨c, more, rfl, .inr digit⟩, fun rest' stop => ?_⟩
    have plain' : ∀ d ∈ ([] ++ c :: more ++ rest').head?, d ≠ '-' := by
      rintro d opens rfl
      obtain rfl : c = '-' := by simpa using opens
      exact absurd digit (by decide)
    rw [scanNumber_plain plain']
    exact again rest' stop

/-! ### Strings -/

theorem emit_ok {cs body rest : List Char} {r : Py (List Char × List Char)}
    (emitted : emit cs r = .ok (body, rest)) : ∃ b, r = .ok (b, rest) ∧ body = cs ++ b := by
  match r, emitted with
  | .ok (b, rest), rfl => exact ⟨b, rfl, rfl⟩

/-- A string literal is read up to its closing quote. -/
theorem scanString_prefix {pending : Option ℕ} {cs body rest : List Char}
    (scanned : scanString pending cs = .ok (body, rest)) :
    ∃ used, cs = used ++ '"' :: rest ∧
      ∀ rest', scanString pending (used ++ '"' :: rest') = .ok (body, rest') := by
  induction pending, cs using scanString.induct generalizing body with
  | case1 | case3 => cases scanned
  | case2 pending more =>
    cases scanned
    exact ⟨[], rfl, fun _ => rfl⟩
  | case4 pending a b c d more bad =>
    rw [scanString, bad] at scanned
    cases scanned
  | case5 pending a b c d more n code ih =>
    rw [scanString, code] at scanned
    obtain ⟨tail, read, rfl⟩ := emit_ok scanned
    obtain ⟨used, rfl, again⟩ := ih read
    refine ⟨'\\' :: 'u' :: a :: b :: c :: d :: used, rfl, fun rest' => ?_⟩
    simp only [List.cons_append]
    rw [scanString, code]
    dsimp only
    rw [again rest']
    rfl
  | case6 pending c more other bad =>
    rw [scanString, bad] at scanned
    · cases scanned
    · exact other
  | case7 pending c more other d escape ih =>
    rw [scanString_simple escape] at scanned
    obtain ⟨tail, read, rfl⟩ := emit_ok scanned
    obtain ⟨used, rfl, again⟩ := ih read
    refine ⟨'\\' :: c :: used, rfl, fun rest' => ?_⟩
    rw [List.cons_append, List.cons_append, scanString_simple escape, again rest']
    rfl
  | case8 pending c more quote _ _ escaped control =>
    have backslash : c ≠ '\\' := by
      rintro rfl
      cases more <;> simp_all
    rw [scanString.eq_def] at scanned
    split at scanned <;> rename_i opens
    · cases opens
    · exact absurd (List.cons.inj opens).1 quote
    · exact absurd (List.cons.inj opens).1 backslash
    · exact absurd (List.cons.inj opens).1 backslash
    · exact absurd (List.cons.inj opens).1 backslash
    · obtain ⟨rfl, rfl⟩ := List.cons.inj opens
      rw [if_pos control] at scanned
      cases scanned
  | case9 pending c more quote alone _ escaped visible ih =>
    have backslash : c ≠ '\\' := by
      rintro rfl
      cases more with
      | nil => exact alone rfl rfl
      | cons d more => exact escaped d more rfl rfl
    rw [scanString_plain quote backslash visible] at scanned
    obtain ⟨tail, read, rfl⟩ := emit_ok scanned
    obtain ⟨used, rfl, again⟩ := ih read
    refine ⟨c :: used, rfl, fun rest' => ?_⟩
    rw [List.cons_append, scanString_plain quote backslash visible, again rest']
    rfl

/-! ### Values -/

theorem skipSpace_split (cs : List Char) :
    ∃ ws, cs = ws ++ skipSpace cs ∧ ∀ c ∈ ws, isJsonSpace c = true :=
  ⟨_, List.takeWhile_append_dropWhile.symm, fun _ member => List.mem_takeWhile_imp member⟩

theorem skipSpace_head (cs : List Char) : ∀ c ∈ (skipSpace cs).head?, isJsonSpace c = false := by
  intro c opens
  have stop := List.head?_dropWhile_not isJsonSpace cs
  rw [skipSpace, Option.mem_def] at opens
  rw [opens] at stop
  simpa using stop

theorem skipSpace_append {ws cs : List Char} (spaces : ∀ c ∈ ws, isJsonSpace c = true)
    (shown : ∀ c ∈ cs.head?, isJsonSpace c = false) : skipSpace (ws ++ cs) = cs := by
  rw [skipSpace, List.dropWhile_append_of_pos spaces]
  exact skipSpace_of_head shown

/-- What follows the blanks does not start with one, however it goes on. -/
theorem head_shown {cs used rest : List Char} (nonempty : used ≠ []) (same : skipSpace cs = used ++ rest)
    (rest' : List Char) : ∀ c ∈ (used ++ rest').head?, isJsonSpace c = false := by
  intro c head
  refine skipSpace_head cs c ?_
  rw [same]
  cases used with
  | nil => exact absurd rfl nonempty
  | cons d used => exact head

theorem stops_spaces {ws rest : List Char} {c : Char} (spaces : ∀ c ∈ ws, isJsonSpace c = true)
    (stop : Stops (c :: rest)) : Stops (ws ++ c :: rest) := by
  cases ws with
  | nil => exact stop
  | cons d ws =>
    intro e opens
    obtain rfl : d = e := by simpa using opens
    have space := spaces d List.mem_cons_self
    simp only [isJsonSpace, Bool.or_eq_true, beq_iff_eq, or_assoc] at space
    rcases space with rfl | rfl | rfl | rfl <;> decide

section Reader
variable [FloatRepr] [FloatReader]

/-- The text that a value takes tells the value, whatever comes after it. -/
def ValueTold (fuel : ℕ) : Prop :=
  ∀ cs v rest, scanOnce fuel cs = .ok (v, rest) → ∃ used, used ≠ [] ∧ cs = used ++ rest ∧
    (v.isDict = true → ∃ inner, used = '{' :: (inner ++ ['}'])) ∧
    ∀ rest' fuel', v.isDict = true ∨ Stops rest' → 2 * used.length ≤ fuel' →
      scanOnce fuel' (used ++ rest') = .ok (v, rest')

def ItemsTold (fuel : ℕ) : Prop :=
  ∀ cs items rest, scanItems fuel cs = .ok (items, rest) → ∃ used, used ≠ [] ∧ cs = used ++ rest ∧
    ∀ rest' fuel', 2 * used.length ≤ fuel' → scanItems fuel' (used ++ rest') = .ok (items, rest')

def PairsTold (fuel : ℕ) : Prop :=
  ∀ cs pairs rest, scanPairs fuel cs = .ok (pairs, rest) → ∃ inner, cs = '"' :: (inner ++ '}' :: rest) ∧
    ∀ rest' fuel', 2 * (inner.length + 2) ≤ fuel' →
      scanPairs fuel' ('"' :: (inner ++ '}' :: rest')) = .ok (pairs, rest')

theorem scanItems_told {fuel : ℕ} (value : ValueTold fuel) (later : ItemsTold fuel) :
    ItemsTold (fuel + 1) := by
  intro cs items rest scanned
  rw [scanItems] at scanned
  obtain ⟨⟨v, rest₁⟩, first, after⟩ := bind_ok_iff.mp scanned
  obtain ⟨used, nonempty, rfl, -, again⟩ := value cs v rest₁ first
  obtain ⟨ws, split, spaces⟩ := skipSpace_split rest₁
  dsimp only at after
  split at after
  · rename_i rest₂ opens
    cases after
    rw [opens] at split
    refine ⟨used ++ (ws ++ [']']), by simp, by rw [split]; simp, fun rest' fuel' enough => ?_⟩
    simp only [List.length_append, List.length_singleton] at enough
    obtain ⟨m, rfl⟩ := Nat.exists_eq_add_of_le' (show 1 ≤ fuel' by omega)
    have read := again (ws ++ ']' :: rest') m (.inr (stops_spaces spaces (by simp [Stops]))) (by omega)
    have text : used ++ (ws ++ [']']) ++ rest' = used ++ (ws ++ ']' :: rest') := by simp
    have skipped : skipSpace (ws ++ ']' :: rest') = ']' :: rest' :=
      skipSpace_append spaces (by simp [isJsonSpace])
    rw [text, scanItems, read]
    simp [bind, Except.bind, skipped, pure, Except.pure]
  · rename_i rest₂ opens
    obtain ⟨⟨others, rest₃⟩, second, after⟩ := bind_ok_iff.mp after
    cases after
    obtain ⟨ws', split', spaces'⟩ := skipSpace_split rest₂
    obtain ⟨used', nonempty', same, again'⟩ := later _ _ _ second
    rw [opens, split', same] at split
    have shown := head_shown nonempty' same
    refine ⟨used ++ (ws ++ ',' :: (ws' ++ used')), by simp, by rw [split]; simp, fun rest' fuel' enough => ?_⟩
    simp only [List.length_append, List.length_cons] at enough
    obtain ⟨m, rfl⟩ := Nat.exists_eq_add_of_le' (show 1 ≤ fuel' by omega)
    have read := again (ws ++ ',' :: (ws' ++ (used' ++ rest'))) m
      (.inr (stops_spaces spaces (by simp [Stops]))) (by omega)
    have text : used ++ (ws ++ ',' :: (ws' ++ used')) ++ rest' =
        used ++ (ws ++ ',' :: (ws' ++ (used' ++ rest'))) := by simp
    have skipped : skipSpace (ws ++ ',' :: (ws' ++ (used' ++ rest'))) = ',' :: (ws' ++ (used' ++ rest')) :=
      skipSpace_append spaces (by simp [isJsonSpace])
    rw [text, scanItems, read]
    simp [bind, Except.bind, skipped, skipSpace_append spaces' (shown rest'), again' rest' m (by omega),
      pure, Except.pure]
  · cases after

/-- A member of an object, up to the end of its value. -/
def scanMember (fuel : ℕ) (cs : List Char) : Py ((String × Json) × List Char) := do
  let (key, rest) ← scanString none cs
  match skipSpace rest with
  | ':' :: rest => do
    let (v, rest) ← scanOnce fuel (skipSpace rest)
    pure ((String.ofList key, v), rest)
  | _ => throw (decodeError "Expecting ':' delimiter")

/-- What follows a member: the end of the object, or the other members. -/
def scanOthers (fuel : ℕ) (member : String × Json) (rest : List Char) :
    Py (List (String × Json) × List Char) :=
  match skipSpace rest with
  | '}' :: rest => pure ([member], rest)
  | ',' :: rest => do
    let (pairs, rest) ← scanPairs fuel (skipSpace rest)
    pure (member :: pairs, rest)
  | _ => throw (decodeError "Expecting ',' delimiter")

theorem scanPairs_quote (fuel : ℕ) (cs : List Char) :
    scanPairs (fuel + 1) ('"' :: cs) = scanMember fuel cs >>= fun r => scanOthers fuel r.1 r.2 := by
  rw [scanPairs, scanMember]
  cases scanString none cs with
  | error e => rfl
  | ok r =>
    simp only [bind, Except.bind]
    generalize skipSpace r.2 = delimited
    split
    · rename_i rest₂
      change _ = Except.bind (Except.bind (scanOnce fuel (skipSpace rest₂)) fun v =>
        pure ((String.ofList r.1, v.1), v.2)) fun m => scanOthers fuel m.1 m.2
      cases scanOnce fuel (skipSpace rest₂) with
      | error e => rfl
      | ok v => rfl
    · simp [throw, throwThe, MonadExceptOf.throw]

theorem scanMember_told {fuel : ℕ} (value : ValueTold fuel) {cs rest : List Char} {member : String × Json}
    (scanned : scanMember fuel cs = .ok (member, rest)) :
    ∃ used, cs = used ++ rest ∧ ∀ rest' fuel', Stops rest' → 2 * used.length ≤ fuel' →
      scanMember fuel' (used ++ rest') = .ok (member, rest') := by
  obtain ⟨⟨key, rest₁⟩, quoted, after⟩ := bind_ok_iff.mp scanned
  obtain ⟨keyText, rfl, key'⟩ := scanString_prefix quoted
  obtain ⟨ws₁, split₁, spaces₁⟩ := skipSpace_split rest₁
  dsimp only at after
  split at after
  · rename_i rest₂ colon
    obtain ⟨⟨v, rest₃⟩, read, after⟩ := bind_ok_iff.mp after
    cases after
    obtain ⟨ws₂, split₂, spaces₂⟩ := skipSpace_split rest₂
    obtain ⟨used, nonempty, same, -, again⟩ := value _ v rest₃ read
    have shown := head_shown nonempty same
    rw [same] at split₂
    rw [colon, split₂] at split₁
    refine ⟨keyText ++ '"' :: (ws₁ ++ ':' :: (ws₂ ++ used)), by rw [split₁]; simp,
      fun rest' fuel' stop enough => ?_⟩
    simp only [List.length_append, List.length_cons] at enough
    have read' := again rest' fuel' (.inr stop) (by omega)
    have skipped : skipSpace (ws₁ ++ ':' :: (ws₂ ++ (used ++ rest'))) = ':' :: (ws₂ ++ (used ++ rest')) :=
      skipSpace_append spaces₁ (by simp [isJsonSpace])
    have text : keyText ++ '"' :: (ws₁ ++ ':' :: (ws₂ ++ used)) ++ rest' =
        keyText ++ '"' :: (ws₁ ++ ':' :: (ws₂ ++ (used ++ rest'))) := by simp
    rw [text, scanMember, key']
    simp [bind, Except.bind, skipped, skipSpace_append spaces₂ (shown rest'), read', pure, Except.pure]
  · cases after

theorem scanPairs_told {fuel : ℕ} (value : ValueTold fuel) (later : PairsTold fuel) :
    PairsTold (fuel + 1) := by
  intro cs pairs rest scanned
  obtain ⟨rest₀, rfl⟩ : ∃ rest₀, cs = '"' :: rest₀ := by
    rw [scanPairs.eq_def] at scanned
    dsimp only at scanned
    split at scanned
    · exact ⟨_, rfl⟩
    · cases scanned
  rw [scanPairs_quote] at scanned
  obtain ⟨⟨member, rest₁⟩, first, after⟩ := bind_ok_iff.mp scanned
  obtain ⟨used, rfl, again⟩ := scanMember_told value first
  obtain ⟨ws, split, spaces⟩ := skipSpace_split rest₁
  dsimp only [scanOthers] at after
  split at after
  · rename_i rest₂ opens
    cases after
    rw [opens] at split
    refine ⟨used ++ ws, by rw [split]; simp, fun rest' fuel' enough => ?_⟩
    simp only [List.length_append] at enough
    obtain ⟨m, rfl⟩ := Nat.exists_eq_add_of_le' (show 1 ≤ fuel' by omega)
    have read := again (ws ++ '}' :: rest') m (stops_spaces spaces (by simp [Stops])) (by omega)
    have skipped : skipSpace (ws ++ '}' :: rest') = '}' :: rest' :=
      skipSpace_append spaces (by simp [isJsonSpace])
    rw [List.append_assoc, scanPairs_quote, read]
    simp [bind, Except.bind, scanOthers, skipped, pure, Except.pure]
  · rename_i rest₂ opens
    obtain ⟨⟨others, rest₃⟩, second, after⟩ := bind_ok_iff.mp after
    cases after
    obtain ⟨ws', split', spaces'⟩ := skipSpace_split rest₂
    obtain ⟨inner, same, again'⟩ := later _ _ _ second
    rw [same] at split'
    rw [opens, split'] at split
    refine ⟨used ++ (ws ++ ',' :: (ws' ++ '"' :: inner)), by rw [split]; simp, fun rest' fuel' enough => ?_⟩
    simp only [List.length_append, List.length_cons] at enough
    obtain ⟨m, rfl⟩ := Nat.exists_eq_add_of_le' (show 1 ≤ fuel' by omega)
    have read := again (ws ++ ',' :: (ws' ++ '"' :: (inner ++ '}' :: rest'))) m
      (stops_spaces spaces (by simp [Stops])) (by omega)
    have skipped : skipSpace (ws ++ ',' :: (ws' ++ '"' :: (inner ++ '}' :: rest'))) =
        ',' :: (ws' ++ '"' :: (inner ++ '}' :: rest')) := skipSpace_append spaces (by simp [isJsonSpace])
    have skipped' : skipSpace (ws' ++ '"' :: (inner ++ '}' :: rest')) = '"' :: (inner ++ '}' :: rest') :=
      skipSpace_append spaces' (by simp [isJsonSpace])
    have text : used ++ (ws ++ ',' :: (ws' ++ '"' :: inner)) ++ '}' :: rest' =
        used ++ (ws ++ ',' :: (ws' ++ '"' :: (inner ++ '}' :: rest'))) := by simp
    rw [text, scanPairs_quote, read]
    simp [bind, Except.bind, scanOthers, skipped, skipped', again' rest' m (by omega), pure, Except.pure]
  · cases after

/-- The first character of a number opens no other value. -/
theorem scanOnce_of_number {c : Char} {more text rest : List Char} {isFloat : Bool} (fuel : ℕ)
    (opens : c = '-' ∨ c.isDigit = true)
    (number : scanNumber (c :: more) = some (text, isFloat, rest)) :
    scanOnce (fuel + 1) (c :: more) =
      .ok (if isFloat then .float (FloatReader.read text) else .int (readInt text), rest) := by
  rw [scanOnce.eq_def]
  dsimp only
  split
  case h_7 =>
    rw [number]
    cases isFloat <;> rfl
  all_goals
    rename_i same
    obtain ⟨rfl, -⟩ := List.cons.inj same
    exact absurd opens (by decide)

/-- A literal is read alike with any text after it. -/
theorem told_of_literal {v : Json} {text : List Char} (nonempty : text ≠ []) (plain : v.isDict ≠ true)
    (reads : ∀ rest' m, scanOnce (m + 1) (text ++ rest') = .ok (v, rest')) (rest : List Char) :
    ∃ used, used ≠ [] ∧ text ++ rest = used ++ rest ∧
      (v.isDict = true → ∃ inner, used = '{' :: (inner ++ ['}'])) ∧
      ∀ rest' fuel', v.isDict = true ∨ Stops rest' → 2 * used.length ≤ fuel' →
        scanOnce fuel' (used ++ rest') = .ok (v, rest') := by
  refine ⟨text, nonempty, rfl, fun dict => absurd dict plain, fun rest' fuel' _ enough => ?_⟩
  have positive := List.length_pos_of_ne_nil nonempty
  obtain ⟨m, rfl⟩ := Nat.exists_eq_add_of_le' (show 1 ≤ fuel' by omega)
  exact reads rest' m

theorem scanOnce_object_told {fuel : ℕ} (pairs : PairsTold fuel) {more rest : List Char} {v : Json}
    (scanned : scanOnce (fuel + 1) ('{' :: more) = .ok (v, rest)) :
    ∃ inner, '{' :: more = '{' :: (inner ++ ['}']) ++ rest ∧
      ∀ rest' fuel', 2 * (inner.length + 2) ≤ fuel' →
        scanOnce fuel' ('{' :: (inner ++ ['}']) ++ rest') = .ok (v, rest') := by
  obtain ⟨ws, split, spaces⟩ := skipSpace_split more
  rw [scanOnce] at scanned
  split at scanned
  · rename_i rest₁ opens
    cases scanned
    rw [opens] at split
    refine ⟨ws, by rw [split]; simp, fun rest' fuel' enough => ?_⟩
    obtain ⟨m, rfl⟩ := Nat.exists_eq_add_of_le' (show 1 ≤ fuel' by omega)
    have skipped : skipSpace (ws ++ '}' :: rest') = '}' :: rest' :=
      skipSpace_append spaces (by simp [isJsonSpace])
    have text : '{' :: (ws ++ ['}']) ++ rest' = '{' :: (ws ++ '}' :: rest') := by simp
    rw [text, scanOnce, skipped]
    rfl
  · obtain ⟨⟨entries, rest₁⟩, read, after⟩ := bind_ok_iff.mp scanned
    cases after
    obtain ⟨inner, same, again⟩ := pairs _ _ _ read
    rw [same] at split
    refine ⟨ws ++ '"' :: inner, by rw [split]; simp, fun rest' fuel' enough => ?_⟩
    simp only [List.length_append, List.length_cons] at enough
    obtain ⟨m, rfl⟩ := Nat.exists_eq_add_of_le' (show 1 ≤ fuel' by omega)
    have skipped : skipSpace (ws ++ '"' :: (inner ++ '}' :: rest')) = '"' :: (inner ++ '}' :: rest') :=
      skipSpace_append spaces (by simp [isJsonSpace])
    have text : '{' :: (ws ++ '"' :: inner ++ ['}']) ++ rest' =
        '{' :: (ws ++ '"' :: (inner ++ '}' :: rest')) := by simp
    rw [text, scanOnce, skipped]
    simp [again rest' m (by omega), bind, Except.bind, pure, Except.pure]

theorem scanOnce_array_told {fuel : ℕ} (items : ItemsTold fuel) {more rest : List Char} {v : Json}
    (scanned : scanOnce (fuel + 1) ('[' :: more) = .ok (v, rest)) :
    v.isDict ≠ true ∧ ∃ used, '[' :: more = '[' :: used ++ rest ∧
      ∀ rest' fuel', 2 * (used.length + 1) ≤ fuel' →
        scanOnce fuel' ('[' :: used ++ rest') = .ok (v, rest') := by
  obtain ⟨ws, split, spaces⟩ := skipSpace_split more
  rw [scanOnce] at scanned
  split at scanned
  · rename_i rest₁ opens
    cases scanned
    rw [opens] at split
    refine ⟨by simp [Json.isDict], ws ++ [']'], by rw [split]; simp, fun rest' fuel' enough => ?_⟩
    obtain ⟨m, rfl⟩ := Nat.exists_eq_add_of_le' (show 1 ≤ fuel' by omega)
    have skipped : skipSpace (ws ++ ']' :: rest') = ']' :: rest' :=
      skipSpace_append spaces (by simp [isJsonSpace])
    have text : '[' :: (ws ++ [']']) ++ rest' = '[' :: (ws ++ ']' :: rest') := by simp
    rw [text, scanOnce, skipped]
    rfl
  · rename_i open_
    obtain ⟨⟨read, rest₁⟩, scan, after⟩ := bind_ok_iff.mp scanned
    cases after
    obtain ⟨used, nonempty, same, again⟩ := items _ _ _ scan
    have shown := head_shown nonempty same
    rw [same] at split
    refine ⟨by simp [Json.isDict], ws ++ used, by rw [split]; simp, fun rest' fuel' enough => ?_⟩
    simp only [List.length_append] at enough
    obtain ⟨m, rfl⟩ := Nat.exists_eq_add_of_le' (show 1 ≤ fuel' by omega)
    have skipped : skipSpace (ws ++ (used ++ rest')) = used ++ rest' := skipSpace_append spaces (shown rest')
    have text : '[' :: (ws ++ used) ++ rest' = '[' :: (ws ++ (used ++ rest')) := by simp
    rw [text, scanOnce, skipped]
    split
    · rename_i opens
      obtain ⟨d, more', rfl⟩ := List.exists_cons_of_ne_nil nonempty
      rw [List.cons_append] at opens same
      exact absurd (same.trans (by rw [(List.cons.inj opens).1])) (open_ _)
    · rw [again rest' m (by omega)]
      rfl

theorem scanOnce_told {fuel : ℕ} (items : ItemsTold fuel) (pairs : PairsTold fuel) :
    ValueTold (fuel + 1) := by
  intro cs v rest scanned
  have scanned' := scanned
  rw [scanOnce.eq_def] at scanned
  dsimp only at scanned
  split at scanned
  · rename_i more
    obtain ⟨⟨body, rest₁⟩, quoted, after⟩ := bind_ok_iff.mp scanned
    cases after
    obtain ⟨used, rfl, again⟩ := scanString_prefix quoted
    have text (rest : List Char) : '"' :: (used ++ '"' :: rest) = '"' :: (used ++ ['"']) ++ rest := by simp
    rw [text]
    refine told_of_literal (List.cons_ne_nil _ _) (by simp [Json.isDict]) (fun rest' m => ?_) rest₁
    rw [← text, scanOnce, again]
    rfl
  · obtain ⟨inner, same, again⟩ := scanOnce_object_told pairs scanned'
    refine ⟨'{' :: (inner ++ ['}']), by simp, same, fun _ => ⟨inner, rfl⟩, fun rest' fuel' _ enough => ?_⟩
    exact again rest' fuel' (by simpa using enough)
  · obtain ⟨plain, used, same, again⟩ := scanOnce_array_told items scanned'
    refine ⟨'[' :: used, by simp, same, fun dict => absurd dict plain, fun rest' fuel' _ enough => ?_⟩
    exact again rest' fuel' (by simpa using enough)
  · cases scanned
    exact told_of_literal (List.cons_ne_nil 'n' ['u', 'l', 'l']) (by simp [Json.isDict]) (fun _ _ => rfl) rest
  · cases scanned
    exact told_of_literal (List.cons_ne_nil 't' ['r', 'u', 'e']) (by simp [Json.isDict]) (fun _ _ => rfl) rest
  · cases scanned
    exact told_of_literal (List.cons_ne_nil 'f' ['a', 'l', 's', 'e']) (by simp [Json.isDict])
      (fun _ _ => rfl) rest
  · cases number : scanNumber cs with
    | none =>
      rw [number] at scanned
      cases scanned
    | some found =>
      obtain ⟨text, isFloat, rest₁⟩ := found
      obtain ⟨rfl, ⟨c, more, rfl, opens⟩, again⟩ := scanNumber_takes number
      have value : v = (if isFloat then .float (FloatReader.read (c :: more)) else .int (readInt (c :: more))) ∧
          rest = rest₁ := by
        rw [number] at scanned
        cases isFloat <;> cases scanned <;> exact ⟨rfl, rfl⟩
      obtain ⟨rfl, rfl⟩ := value
      have plain : (if isFloat then Json.float (FloatReader.read (c :: more))
          else .int (readInt (c :: more))).isDict ≠ true := by cases isFloat <;> simp [Json.isDict]
      refine ⟨c :: more, by simp, rfl, fun dict => absurd dict plain, fun rest' fuel' stop enough => ?_⟩
      simp only [List.length_cons] at enough
      obtain ⟨m, rfl⟩ := Nat.exists_eq_add_of_le' (show 1 ≤ fuel' by omega)
      exact scanOnce_of_number m opens (again rest' (stop.resolve_left plain))

theorem read_told (fuel : ℕ) : ValueTold fuel ∧ ItemsTold fuel ∧ PairsTold fuel := by
  induction fuel with
  | zero =>
    refine ⟨fun cs v rest scanned => ?_, fun cs items rest scanned => ?_, fun cs pairs rest scanned => ?_⟩
    · rw [scanOnce] at scanned
      cases scanned
    · rw [scanItems] at scanned
      cases scanned
    · rw [scanPairs] at scanned
      cases scanned
  | succ fuel ih =>
    obtain ⟨value, items, pairs⟩ := ih
    exact ⟨scanOnce_told items pairs, scanItems_told value items, scanPairs_told value pairs⟩

/-- The text of an object, from its opening brace to the closing one. -/
structure ObjectText (text : List Char) (entries : List (String × Json)) : Prop where
  braces : ∃ inner, text = '{' :: (inner ++ ['}'])
  reads : ∀ rest fuel, 2 * text.length ≤ fuel → scanOnce fuel (text ++ rest) = .ok (.dict entries, rest)

/-- A text is read as an object exactly when it is one, with blanks around it. -/
theorem loads_dict_iff {text : List Char} {entries : List (String × Json)} :
    loads text = .ok (.dict entries) ↔ ∃ before object after, text = before ++ object ++ after ∧
      (∀ c ∈ before, isJsonSpace c = true) ∧ (∀ c ∈ after, isJsonSpace c = true) ∧
      ObjectText object entries := by
  constructor
  · intro read
    obtain ⟨⟨v, rest⟩, scanned, after⟩ := bind_ok_iff.mp read
    dsimp only at after
    split_ifs at after with blank
    cases after
    obtain ⟨ws, split, spaces⟩ := skipSpace_split text
    obtain ⟨used, -, same, braces, again⟩ := (read_told _).1 _ _ _ scanned
    refine ⟨ws, used, rest, by rw [List.append_assoc, ← same, ← split], spaces, ?_,
      braces rfl, fun rest' fuel' enough => again rest' fuel' (.inl rfl) enough⟩
    exact fun c member => List.dropWhile_eq_nil_iff.mp blank c member
  · rintro ⟨before, object, after, rfl, spacesBefore, spacesAfter, ⟨⟨inner, rfl⟩, reads⟩⟩
    have skipped : skipSpace (before ++ '{' :: (inner ++ ['}']) ++ after) = '{' :: (inner ++ ['}']) ++ after := by
      rw [List.append_assoc]
      exact skipSpace_append spacesBefore (by simp [isJsonSpace])
    have blank : skipSpace after = [] := List.dropWhile_eq_nil_iff.mpr spacesAfter
    rw [loads, skipped, reads after _ (by simp only [List.length_append]; omega)]
    simp [bind, Except.bind, blank, pure, Except.pure]

theorem ObjectText.loads_self {object : List Char} {entries : List (String × Json)}
    (isObject : ObjectText object entries) : loads object = .ok (.dict entries) :=
  loads_dict_iff.mpr ⟨[], object, [], by simp, by simp, by simp, isObject⟩

/-- Between its own braces, a text that is read as an object is one. -/
theorem ObjectText.of_loads {inner : List Char} {o : List (String × Json)}
    (reads : loads ('{' :: (inner ++ ['}'])) = .ok (.dict o)) : ObjectText ('{' :: (inner ++ ['}'])) o := by
  obtain ⟨before, object, after, text, spacesBefore, spacesAfter, isObject⟩ := loads_dict_iff.mp reads
  have opens : before = [] := by
    cases before with
    | nil => rfl
    | cons c before =>
      have same : '{' = c := (List.cons.inj text).1
      have space := spacesBefore c List.mem_cons_self
      rw [← same] at space
      exact absurd space (by decide)
  have closes : after = [] := by
    rcases List.eq_nil_or_concat' after with none | ⟨init, d, rfl⟩
    · exact none
    · have last : '}' = d := by
        have ends := congrArg List.getLast? text
        rw [← List.cons_append, ← List.append_assoc, List.getLast?_concat, List.getLast?_concat] at ends
        exact Option.some.inj ends
      have space := spacesAfter d (by simp)
      rw [← last] at space
      exact absurd space (by decide)
  rw [text, opens, closes, List.nil_append, List.append_nil]
  exact isObject

/-- No object text goes on after another. -/
theorem ObjectText.not_prefix {text rest : List Char} {entries entries' : List (String × Json)}
    (whole : ObjectText (text ++ rest) entries) (first : ObjectText text entries') : rest = [] := by
  have one := whole.reads [] (2 * (text ++ rest).length) le_rfl
  have other := first.reads rest (2 * (text ++ rest).length) (by simp only [List.length_append]; omega)
  rw [List.append_nil] at one
  cases one.symm.trans other
  rfl

end Reader

end Python
