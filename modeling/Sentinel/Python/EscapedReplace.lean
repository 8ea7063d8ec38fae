import Sentinel.Python.JsonReaderProofs
import Sentinel.Python.Replace

/-! Replacing a text in the body of a JSON string literal. A match that begins
inside an escape cuts it, and no later replacement mends the literal; where no
match begins so, the replacement is that of the string itself. -/
namespace Python

/-- Some match of `t` in the text of `s` begins inside an escape. -/
def straddles (t : List Char) : List Char → Prop
  | [] => False
  | c :: rest =>
    (∃ x ∈ (escape c).tail.tails, x ≠ [] ∧ t <+: x ++ rest.flatMap escape) ∨ straddles t rest

/-- No replacement cuts an escape when the texts are replaced one after another. -/
def unbroken (new : List Char) : List (List Char) → List Char → Prop
  | [], _ => True
  | t :: ts, s => ¬ straddles t s ∧ unbroken new ts (replaceAll t new s)

/-- A text that is written without escapes and holds no opening bracket. -/
structure Plain (t : List Char) : Prop where
  nonempty : t ≠ []
  unescaped : ∀ c ∈ t, escape c = [c]
  unbracketed : '[' ∉ t

/-- A body that opens whole escapes up to one that a bracket cuts. -/
inductive Broken : List Char → Prop
  | cut {c p x} (rest : List Char) : escape c = p ++ x → p ≠ [] → x ≠ [] →
      x.head? ≠ some '\\' → Broken (p ++ '[' :: rest)
  | later {text} (c : Char) : Broken text → Broken (escape c ++ text)

/-- An escape is one shown character, or a backslash opens it. -/
theorem escape_cases (c : Char) :
    (escape c = [c] ∧ c ≠ '\\' ∧ c ≠ '"') ∨ ∃ tail, escape c = '\\' :: tail ∧ tail ≠ [] := by
  have form := escape_form c
  generalize escape c = text at form ⊢
  cases form with
  | letter listed => exact .inr ⟨_, rfl, List.cons_ne_nil _ _⟩
  | shown quote backslash plain => exact .inl ⟨rfl, backslash, quote⟩
  | unit small => exact .inr ⟨_, rfl, List.cons_ne_nil _ _⟩
  | pair large => exact .inr ⟨_, rfl, List.cons_ne_nil _ _⟩

/-- What opens an escape of more than one character opens with the backslash. -/
theorem escape_front {c : Char} {p x : List Char} (whole : escape c = p ++ x) (front : p ≠ [])
    (back : x ≠ []) : ∃ q, p = '\\' :: q := by
  obtain ⟨d, q, rfl⟩ := List.exists_cons_of_ne_nil front
  rcases escape_cases c with ⟨single, -⟩ | ⟨tail, opens, -⟩
  · rw [single, List.cons_append] at whole
    have empty : q ++ x = [] := (List.cons.inj whole).2.symm
    exact absurd (List.append_eq_nil_iff.mp empty).2 back
  · rw [opens, List.cons_append] at whole
    exact ⟨q, by rw [(List.cons.inj whole).1]⟩

theorem Plain.unslashed {t : List Char} (plain : Plain t) : '\\' ∉ t := by
  intro member
  have := plain.unescaped _ member
  contradiction

theorem Broken.prepend {text : List Char} (broken : Broken text) (s : List Char) :
    Broken (s.flatMap escape ++ text) := by
  induction s with
  | nil => exact broken
  | cons c s ih =>
    rw [List.flatMap_cons, List.append_assoc]
    exact .later c ih

theorem flatMap_escape_of_unescaped {s : List Char} (unescaped : ∀ c ∈ s, escape c = [c]) :
    s.flatMap escape = s := by
  induction s with
  | nil => rfl
  | cons c s ih =>
    rw [List.flatMap_cons, unescaped c (by simp), ih fun d member => unescaped d (by simp [member])]
    rfl

/-- A text without escapes opens the written string exactly where it opens the string. -/
theorem Plain.prefix_flatMap {t s : List Char} (unescaped : ∀ c ∈ t, escape c = [c]) :
    t <+: s.flatMap escape ↔ t <+: s := by
  induction t generalizing s with
  | nil => simp
  | cons d t ih =>
    have plain := unescaped d (by simp)
    cases s with
    | nil => simp
    | cons c s =>
      rw [List.flatMap_cons]
      rcases escape_cases c with ⟨shown, -⟩ | ⟨tail, opens, -⟩
      · rw [shown, List.singleton_append, List.cons_prefix_cons, List.cons_prefix_cons,
          ih fun e member => unescaped e (by simp [member])]
      · rw [opens, List.cons_append, List.cons_prefix_cons, List.cons_prefix_cons]
        constructor
        · rintro ⟨rfl, -⟩
          contradiction
        · rintro ⟨rfl, -⟩
          rw [plain] at opens
          cases opens
          contradiction

/-- The scan passes over `e`, or its first match opens inside `e`. -/
theorem replaceFrom_pass_or_cut (t new rest e : List Char) :
    (∀ x, x ≠ [] → x <:+ e → ¬ t <+: x ++ rest) ∨
      ∃ p x, e = p ++ x ∧ x ≠ [] ∧ t <+: x ++ rest ∧
        ∃ after, replaceFrom t new 0 (e ++ rest) = p ++ (new ++ after) := by
  induction e with
  | nil =>
    left
    rintro x nonempty suffix
    exact absurd (List.suffix_nil.mp suffix) nonempty
  | cons c e ih =>
    by_cases here : t <+: c :: (e ++ rest)
    · right
      refine ⟨[], c :: e, rfl, by simp, here, replaceFrom t new (t.length - 1) (e ++ rest), ?_⟩
      rw [List.cons_append, replaceFrom, if_pos here]
      rfl
    · rcases ih with pass | ⟨p, x, rfl, nonempty, found, after, cut⟩
      · left
        intro x nonempty suffix
        rcases List.suffix_cons_iff.mp suffix with rfl | inner
        · exact here
        · exact pass x nonempty inner
      · right
        refine ⟨c :: p, x, rfl, nonempty, found, after, ?_⟩
        rw [List.cons_append, replaceFrom, if_neg here, cut]
        rfl

theorem mem_of_take {t rest : List Char} {c : Char} (opens : t <+: c :: rest) :
    ∀ d ∈ rest.take (t.length - 1), d ∈ t := by
  intro d member
  cases t with
  | nil => simp at member
  | cons e t =>
    obtain ⟨rfl, later⟩ := List.cons_prefix_cons.mp opens
    rw [List.length_cons, Nat.add_sub_cancel, ← List.prefix_iff_eq_take.mp later] at member
    exact List.mem_cons_of_mem _ member

section Mark
variable {t mark : List Char}

variable (mark) in
/-- What a replacement does to an escape: it is replaced as a whole character,
passed over, or cut. -/
theorem replaceFrom_escape (plain : Plain t) (c : Char) (rest : List Char) :
    (escape c = [c] ∧ t <+: c :: rest ∧
      replaceFrom t mark 0 (escape c ++ rest) = mark ++ replaceFrom t mark (t.length - 1) rest) ∨
    (¬ t <+: escape c ++ rest ∧ (¬ ∃ x ∈ (escape c).tail.tails, x ≠ [] ∧ t <+: x ++ rest) ∧
      replaceFrom t mark 0 (escape c ++ rest) = escape c ++ replaceFrom t mark 0 rest) ∨
    ((∃ x ∈ (escape c).tail.tails, x ≠ [] ∧ t <+: x ++ rest) ∧
      ∃ p x after, escape c = p ++ x ∧ p ≠ [] ∧ x ≠ [] ∧ x.head? ≠ some '\\' ∧
        replaceFrom t mark 0 (escape c ++ rest) = p ++ (mark ++ after)) := by
  have unslashed := plain.unslashed
  obtain ⟨d, t', rfl⟩ := List.exists_cons_of_ne_nil plain.nonempty
  rcases replaceFrom_pass_or_cut (d :: t') mark rest (escape c) with
    pass | ⟨p, x, whole, nonempty, found, after, cut⟩
  · right; left
    have tail : (escape c).tail <:+ escape c := List.tail_suffix _
    refine ⟨pass _ ?_ List.suffix_rfl, ?_, replaceFrom_pass pass⟩
    · rcases escape_cases c with ⟨shown, -⟩ | ⟨tail, opens, -⟩
      · simp [shown]
      · simp [opens]
    · rintro ⟨x, member, nonempty, found⟩
      exact pass x nonempty (((List.mem_tails _ _).mp member).trans tail) found
  · cases p with
    | nil =>
      left
      rw [List.nil_append] at whole
      subst x
      rcases escape_cases c with ⟨shown, -⟩ | ⟨tail, opens, -⟩
      · rw [shown] at found ⊢
        rw [List.singleton_append] at found ⊢
        exact ⟨rfl, found, by rw [replaceFrom, if_pos found]⟩
      · rw [opens, List.cons_append] at found
        obtain ⟨rfl, -⟩ := List.cons_prefix_cons.mp found
        simp at unslashed
    | cons e p =>
      right; right
      refine ⟨⟨x, ?_, nonempty, found⟩, e :: p, x, after, whole, by simp, nonempty, ?_, cut⟩
      · rw [whole, List.cons_append, List.tail_cons, List.mem_tails]
        exact List.suffix_append p x
      · obtain ⟨f, x, rfl⟩ := List.exists_cons_of_ne_nil nonempty
        obtain ⟨rfl, -⟩ := List.cons_prefix_cons.mp found
        simp only [List.mem_cons, not_or] at unslashed
        simpa [eq_comm] using unslashed.1

/-- A replacement does not mend a broken literal. -/
theorem Broken.replaced {m : List Char} (plain : Plain t)
    (shown : ∀ c ∈ '[' :: m, escape c = [c]) {text : List Char} (broken : Broken text) :
    ∀ skip, '\\' ∉ text.take skip → Broken (replaceFrom t ('[' :: m) skip text) := by
  have unslashed := plain.unslashed
  induction broken with
  | later c broken ih =>
    rename_i text
    intro skip absent
    cases skip with
    | succ skip =>
      rcases escape_cases c with ⟨whole, -⟩ | ⟨tail, opens, -⟩
      · rw [whole, List.singleton_append] at absent ⊢
        exact ih skip (by simp only [List.take_succ_cons, List.mem_cons, not_or] at absent; exact absent.2)
      · simp [opens] at absent
    | zero =>
      rcases replaceFrom_escape _ plain c text with
        ⟨whole, found, replaced⟩ | ⟨-, -, passed⟩ | ⟨-, p, x, after, whole, front, back, head, cut⟩
      · have later := ih _ fun member => unslashed (mem_of_take found _ member)
        have opened := later.prepend ('[' :: m)
        rw [flatMap_escape_of_unescaped shown] at opened
        rw [replaced]
        exact opened
      · rw [passed]
        exact .later c (ih 0 (by simp))
      · rw [cut]
        exact .cut _ whole front back head
  | cut rest whole front back head =>
    rename_i c p x
    intro skip absent
    obtain ⟨q, rfl⟩ := escape_front whole front back
    cases skip with
    | succ skip => simp at absent
    | zero =>
      rcases replaceFrom_pass_or_cut t ('[' :: m) ('[' :: rest) ('\\' :: q) with
        pass | ⟨p', x', same, nonempty, found, after, cut⟩
      · have misses : ¬ t <+: '[' :: rest := by
          obtain ⟨d, t, rfl⟩ := List.exists_cons_of_ne_nil plain.nonempty
          intro opens
          obtain ⟨rfl, -⟩ := List.cons_prefix_cons.mp opens
          exact plain.unbracketed (by simp)
        rw [replaceFrom_pass pass, replaceFrom, if_neg misses]
        exact .cut _ whole front back head
      · obtain ⟨d, t, rfl⟩ := List.exists_cons_of_ne_nil plain.nonempty
        obtain ⟨e, x', rfl⟩ := List.exists_cons_of_ne_nil nonempty
        obtain ⟨rfl, -⟩ := List.cons_prefix_cons.mp found
        have other : d ≠ '\\' := fun same => unslashed (by simp [same])
        rw [cut]
        refine .cut (c := c) (p := p') (x := d :: (x' ++ x)) _ ?_ ?_ (by simp) (by simpa using other)
        · rw [whole, same]
          simp
        · rintro rfl
          rw [List.nil_append] at same
          exact other (List.cons.inj same).1.symm

/-- Where no match begins inside an escape, replacing in the literal is replacing
in the string. -/
theorem replaceFrom_flatMap_escape (plain : Plain t) (shown : ∀ c ∈ mark, escape c = [c])
    (s : List Char) : ∀ skip, (∀ c ∈ s.take skip, escape c = [c]) → ¬ straddles t s →
      replaceFrom t mark skip (s.flatMap escape) = (replaceFrom t mark skip s).flatMap escape := by
  induction s with
  | nil =>
    intro skip
    cases skip <;> exact fun _ _ => rfl
  | cons c s ih =>
    intro skip dropped whole
    simp only [straddles, not_or] at whole
    rw [List.flatMap_cons]
    cases skip with
    | succ skip =>
      simp only [List.take_succ_cons, List.mem_cons, forall_eq_or_imp] at dropped
      rw [dropped.1]
      exact ih skip dropped.2 whole.2
    | zero =>
      have same := Plain.prefix_flatMap (s := c :: s) plain.unescaped
      rw [List.flatMap_cons] at same
      rcases replaceFrom_escape mark plain c (s.flatMap escape) with
        ⟨single, found, replaced⟩ | ⟨misses, -, passed⟩ | ⟨inside, -⟩
      · have opens : t <+: c :: s := same.mp (by rw [single]; exact found)
        have later := ih (t.length - 1)
          (fun d member => plain.unescaped d (mem_of_take opens d member)) whole.2
        rw [replaced, later, replaceFrom, if_pos opens, List.flatMap_append,
          flatMap_escape_of_unescaped shown]
      · rw [passed, ih 0 (by simp) whole.2, replaceFrom, if_neg (mt same.mpr misses),
          List.flatMap_cons]
      · exact absurd inside whole.1

/-- A match that begins inside an escape breaks the literal. -/
theorem broken_of_straddles {m : List Char} (plain : Plain t)
    (shown : ∀ c ∈ '[' :: m, escape c = [c]) (s : List Char) :
    ∀ skip, (∀ c ∈ s.take skip, escape c = [c]) → straddles t s →
      Broken (replaceFrom t ('[' :: m) skip (s.flatMap escape)) := by
  induction s with
  | nil => exact fun _ _ inside => inside.elim
  | cons c s ih =>
    intro skip dropped inside
    rw [straddles] at inside
    rw [List.flatMap_cons]
    cases skip with
    | succ skip =>
      simp only [List.take_succ_cons, List.mem_cons, forall_eq_or_imp] at dropped
      rw [dropped.1] at inside ⊢
      exact ih skip dropped.2 (inside.resolve_left (by simp))
    | zero =>
      have same := Plain.prefix_flatMap (s := c :: s) plain.unescaped
      rw [List.flatMap_cons] at same
      rcases replaceFrom_escape ('[' :: m) plain c (s.flatMap escape) with
        ⟨single, found, replaced⟩ | ⟨-, none, passed⟩ | ⟨-, p, x, after, whole, front, back, head, cut⟩
      · have opens : t <+: c :: s := same.mp (by rw [single]; exact found)
        rw [single] at inside
        have later := ih (t.length - 1)
          (fun d member => plain.unescaped d (mem_of_take opens d member))
          (inside.resolve_left (by simp))
        have opened := later.prepend ('[' :: m)
        rw [flatMap_escape_of_unescaped shown] at opened
        rw [replaced]
        exact opened
      · rw [passed]
        exact .later c (ih 0 (by simp) (inside.resolve_left none))
      · rw [cut]
        exact .cut _ whole front back head

theorem Broken.replacedEach {m : List Char} {ts : List (List Char)} (plain : ∀ t ∈ ts, Plain t)
    (shown : ∀ c ∈ '[' :: m, escape c = [c]) : ∀ {text : List Char}, Broken text →
      Broken (replaceEach ts ('[' :: m) text) := by
  unfold replaceEach
  induction ts with
  | nil => exact id
  | cons t ts ih =>
    intro text broken
    exact ih (fun t member => plain t (by simp [member]))
      (broken.replaced (plain t (by simp)) shown 0 (by simp))

/-- The literal of a replaced string is that string's, or broken. -/
theorem replaceEach_flatMap_escape {m : List Char} {ts : List (List Char)}
    (plain : ∀ t ∈ ts, Plain t) (shown : ∀ c ∈ '[' :: m, escape c = [c]) : ∀ s : List Char,
      (unbroken ('[' :: m) ts s ∧ replaceEach ts ('[' :: m) (s.flatMap escape) =
        (replaceEach ts ('[' :: m) s).flatMap escape) ∨
      (¬ unbroken ('[' :: m) ts s ∧ Broken (replaceEach ts ('[' :: m) (s.flatMap escape))) := by
  induction ts with
  | nil => exact fun s => .inl ⟨trivial, rfl⟩
  | cons t ts ih =>
    intro s
    have first := plain t (by simp)
    have later := fun t member => plain t (List.mem_cons_of_mem _ member)
    by_cases inside : straddles t s
    · refine .inr ⟨fun whole => whole.1 inside, ?_⟩
      exact (broken_of_straddles first shown s 0 (by simp) inside).replacedEach later shown
    · have literal := replaceFrom_flatMap_escape first shown s 0 (by simp) inside
      simp only [unbroken, inside, not_false_eq_true, true_and, replaceEach, List.foldl_cons,
        replaceAll, literal]
      exact ih later _

end Mark

/-! ### Reading a broken literal -/

theorem hexCode?_bracket {a b c d : Char} (bracket : a = '[' ∨ b = '[' ∨ c = '[' ∨ d = '[') :
    hexCode? a b c d = none := by
  have none : hexDigit? '[' = none := by decide
  unfold hexCode?
  split
  · rcases bracket with rfl | rfl | rfl | rfl <;> simp_all
  · rfl

/-- Four hex digits are missing before the bracket. -/
theorem scanString_short {q : List Char} (short : q.length < 4) (pending : Option ℕ)
    (rest : List Char) :
    ∃ msg, scanString pending ('\\' :: 'u' :: (q ++ '[' :: rest)) = .error (decodeError msg) := by
  have four : ∃ tail, q ++ '[' :: rest = tail ∧ (tail.length < 4 ∨ ∃ a b c d after,
      tail = a :: b :: c :: d :: after ∧ (a = '[' ∨ b = '[' ∨ c = '[' ∨ d = '[')) := by
    refine ⟨_, rfl, ?_⟩
    match q, rest, short with
    | [], [], _ | [], [_], _ | [], [_, _], _ | [_], [], _ | [_], [_], _ | [_, _], [], _ => simp
    | [], _ :: _ :: _ :: _, _ | [_], _ :: _ :: _, _ | [_, _], _ :: _, _ | [_, _, _], _, _ => simp
  obtain ⟨tail, same, few | ⟨a, b, c, d, after, rfl, bracket⟩⟩ := four
  · rw [same]
    match tail, few with
    | [], _ | [_], _ | [_, _], _ | [_, _, _], _ => exact ⟨_, rfl⟩
  · rw [same]
    simp only [scanString, hexCode?_bracket bracket]
    exact ⟨_, rfl⟩

theorem scanString_unicodeCut {n : ℕ} {p x : List Char} (pending : Option ℕ) (rest : List Char)
    (whole : unicodeEscape n = p ++ x) (front : p ≠ []) (back : x ≠ []) :
    ∃ msg, scanString pending (p ++ '[' :: rest) = .error (decodeError msg) := by
  obtain ⟨d, p, rfl⟩ := List.exists_cons_of_ne_nil front
  simp only [unicodeEscape, List.cons_append, List.cons.injEq] at whole
  obtain ⟨rfl, whole⟩ := whole
  cases p with
  | nil => exact ⟨_, rfl⟩
  | cons e q =>
    simp only [List.cons_append, List.cons.injEq] at whole
    obtain ⟨rfl, whole⟩ := whole
    refine scanString_short ?_ pending rest
    have := congrArg List.length whole
    have := List.length_pos_of_ne_nil back
    simp only [List.length_cons, List.length_append, List.length_nil] at *
    omega

theorem scanString_letterCut {d : Char} {p x : List Char} (rest : List Char)
    (whole : ['\\', d] = p ++ x) (front : p ≠ []) (back : x ≠ []) :
    ∃ msg, scanString none (p ++ '[' :: rest) = .error (decodeError msg) := by
  obtain ⟨e, p, rfl⟩ := List.exists_cons_of_ne_nil front
  simp only [List.cons_append, List.cons.injEq] at whole
  obtain ⟨rfl, whole⟩ := whole
  cases p with
  | nil => exact ⟨_, rfl⟩
  | cons f q =>
    have := congrArg List.length whole
    have := List.length_pos_of_ne_nil back
    simp only [List.length_cons, List.length_append, List.length_nil] at *
    omega

/-- The text before the bracket is no escape. -/
theorem scanString_cut {c : Char} {p x : List Char} (rest : List Char) (whole : escape c = p ++ x)
    (front : p ≠ []) (back : x ≠ []) (head : x.head? ≠ some '\\') :
    ∃ msg, scanString none (p ++ '[' :: rest) = .error (decodeError msg) := by
  have form := escape_form c
  rw [whole] at form
  generalize text : p ++ x = shown at form
  cases form with
  | letter listed => exact scanString_letterCut rest text.symm front back
  | shown quote backslash plain =>
    rcases List.append_eq_singleton_iff.mp text with ⟨none, -⟩ | ⟨-, none⟩
    · exact absurd none front
    · exact absurd none back
  | unit small => exact scanString_unicodeCut none rest text.symm front back
  | pair large =>
    rcases List.append_eq_append_iff.mp text.symm with ⟨q, rfl, low⟩ | ⟨q, high, rfl⟩
    · cases q with
      | nil =>
        rw [List.nil_append] at low
        subst low
        simp [unicodeEscape] at head
      | cons d q =>
        obtain ⟨msg, fails⟩ := scanString_unicodeCut
          (decodeUnit none (0xd800 + (c.toNat - 0x10000) / 0x400)).2 rest low (by simp) back
        have scalar := toNat_scalar c
        refine ⟨msg, ?_⟩
        rw [List.append_assoc, scanString_unicodeEscape (by omega), fails]
        rfl
    · cases q with
      | nil => simp [unicodeEscape] at head
      | cons d q => exact scanString_unicodeCut none rest high front (by simp)

theorem Broken.scanString {text : List Char} (broken : Broken text) :
    ∀ rest, ∃ msg, scanString none (text ++ '"' :: rest) = .error (decodeError msg) := by
  induction broken with
  | cut after whole front back head =>
    intro rest
    rw [List.append_assoc]
    exact scanString_cut _ whole front back head
  | later c _ ih =>
    intro rest
    obtain ⟨msg, fails⟩ := ih rest
    exact ⟨msg, by rw [List.append_assoc, scanString_escape, fails]; rfl⟩

/-! ### Dumps -/

/-- The characters between the literals of a dump. -/
def separators : List Char := ['"', ',', ' ', ':', '[', ']', '{', '}']

/-- A text that only the string literals of a dump can hold. -/
structure Sealed (t : List Char) : Prop extends Plain t where
  unseparated : ∀ c ∈ separators, c ∉ t
  wordy : ∃ c ∈ t, isToken c = false
  long : 5 < t.length

section Dumps
variable [FloatRepr] {new : List Char} {ts : List (List Char)} {body : String → List Char}

omit [FloatRepr] in
theorem replaceEach_nil : replaceEach ts new [] = [] := by
  unfold replaceEach
  induction ts with
  | nil => rfl
  | cons t ts ih => exact ih

omit [FloatRepr] in
theorem replaceEach_cons (sealed : ∀ t ∈ ts, Sealed t) {c : Char} (separator : c ∈ separators)
    (b : List Char) : replaceEach ts new (c :: b) = c :: replaceEach ts new b := by
  have absent : ∀ t ∈ ts, c ∉ t ∧ t ≠ [] :=
    fun t member => ⟨(sealed t member).unseparated c separator, (sealed t member).nonempty⟩
  calc replaceEach ts new ([] ++ c :: b)
    _ = replaceEach ts new [] ++ c :: replaceEach ts new b := replaceEach_sep absent [] b
    _ = c :: replaceEach ts new b := by rw [replaceEach_nil, List.nil_append]

omit [FloatRepr] in
theorem replaceEach_append (sealed : ∀ t ∈ ts, Sealed t) {c : Char} (separator : c ∈ separators)
    (a b : List Char) :
    replaceEach ts new (a ++ c :: b) = replaceEach ts new a ++ replaceEach ts new (c :: b) := by
  rw [replaceEach_cons sealed separator]
  exact replaceEach_sep
    (fun t member => ⟨(sealed t member).unseparated c separator, (sealed t member).nonempty⟩) a b

omit [FloatRepr] in
theorem replaceEach_short (sealed : ∀ t ∈ ts, Sealed t) {text : List Char}
    (short : text.length ≤ 5) : replaceEach ts new text = text := by
  refine replaceEach_of_not_infix fun t member found => ?_
  have := (sealed t member).long
  have := found.length_le
  omega

omit [FloatRepr] in
theorem replaceEach_token (sealed : ∀ t ∈ ts, Sealed t) {text : List Char}
    (token : ∀ c ∈ text, isToken c = true) : replaceEach ts new text = text := by
  refine replaceEach_of_not_infix fun t member found => ?_
  obtain ⟨c, inside, other⟩ := (sealed t member).wordy
  rw [token c (found.subset inside)] at other
  contradiction

omit [FloatRepr] in
/-- A string literal is replaced between its quotes. -/
theorem replaceEach_quoted (sealed : ∀ t ∈ ts, Sealed t) (a b : List Char) :
    replaceEach ts new ('"' :: (a ++ '"' :: b)) =
      '"' :: (replaceEach ts new a ++ '"' :: replaceEach ts new b) := by
  have quote : '"' ∈ separators := by decide
  rw [replaceEach_cons sealed quote, replaceEach_append sealed quote, replaceEach_cons sealed quote]

theorem replaceEach_items (sealed : ∀ t ∈ ts, Sealed t) (a : List Char) (items : List Json) :
    replaceEach ts new (a ++ encodeItems body items) =
      replaceEach ts new a ++ replaceEach ts new (encodeItems body items) := by
  cases items <;> exact replaceEach_append sealed (by decide) _ _

theorem replaceEach_entries (sealed : ∀ t ∈ ts, Sealed t) (a : List Char)
    (entries : List (String × Json)) : replaceEach ts new (a ++ encodeEntries body entries) =
      replaceEach ts new a ++ replaceEach ts new (encodeEntries body entries) := by
  rcases entries with _ | ⟨⟨k, v⟩, entries⟩ <;> exact replaceEach_append sealed (by decide) _ _

mutual
/-- Replacing in a dump is replacing in its string literals. -/
theorem replaceEach_encode (sealed : ∀ t ∈ ts, Sealed t) (v : Json) :
    replaceEach ts new (encode body v) = encode (fun s => replaceEach ts new (body s)) v := by
  match v with
  | .null | .bool true | .bool false | .list [] | .dict [] =>
    exact replaceEach_short sealed (by simp [encode])
  | .int n => exact replaceEach_token sealed (intRepr_token n)
  | .float x => exact replaceEach_token sealed (FloatRepr.repr_token x)
  | .str s =>
    rw [encode, encode, replaceEach_quoted sealed, replaceEach_nil]
  | .list (v :: rest) =>
    rw [encode, encode, replaceEach_cons sealed (by decide), replaceEach_items sealed,
      replaceEach_encode sealed v, replaceEach_encodeItems sealed rest]
  | .dict ((k, v) :: rest) =>
    rw [encode, encode, replaceEach_cons sealed (by decide), replaceEach_quoted sealed,
      replaceEach_cons sealed (by decide), replaceEach_cons sealed (by decide),
      replaceEach_entries sealed, replaceEach_encode sealed v, replaceEach_encodeEntries sealed rest]

theorem replaceEach_encodeItems (sealed : ∀ t ∈ ts, Sealed t) (items : List Json) :
    replaceEach ts new (encodeItems body items) =
      encodeItems (fun s => replaceEach ts new (body s)) items := by
  match items with
  | [] => exact replaceEach_short sealed (by simp [encodeItems])
  | v :: rest =>
    rw [encodeItems, encodeItems, replaceEach_cons sealed (by decide),
      replaceEach_cons sealed (by decide), replaceEach_items sealed, replaceEach_encode sealed v,
      replaceEach_encodeItems sealed rest]

theorem replaceEach_encodeEntries (sealed : ∀ t ∈ ts, Sealed t) (entries : List (String × Json)) :
    replaceEach ts new (encodeEntries body entries) =
      encodeEntries (fun s => replaceEach ts new (body s)) entries := by
  match entries with
  | [] => exact replaceEach_short sealed (by simp [encodeEntries])
  | (k, v) :: rest =>
    rw [encodeEntries, encodeEntries, replaceEach_cons sealed (by decide),
      replaceEach_cons sealed (by decide), replaceEach_quoted sealed,
      replaceEach_cons sealed (by decide), replaceEach_cons sealed (by decide),
      replaceEach_entries sealed, replaceEach_encode sealed v, replaceEach_encodeEntries sealed rest]
end

mutual
theorem encode_congr {body' : String → List Char} (v : Json)
    (same : ∀ s ∈ v.strings, body s = body' s) : encode body v = encode body' v := by
  match v with
  | .null | .bool true | .bool false | .list [] | .dict [] | .int n | .float x => rfl
  | .str s => rw [encode, encode, same s (by simp [Json.strings])]
  | .list (v :: rest) =>
    simp only [Json.strings, itemStrings, List.mem_append, or_imp, forall_and] at same
    rw [encode, encode, encode_congr v same.1, encodeItems_congr rest same.2]
  | .dict ((k, v) :: rest) =>
    simp only [Json.strings, entryStrings, List.mem_cons, List.mem_append, or_imp, forall_and,
      forall_eq] at same
    rw [encode, encode, same.1, encode_congr v same.2.1, encodeEntries_congr rest same.2.2]

theorem encodeItems_congr {body' : String → List Char} (items : List Json)
    (same : ∀ s ∈ itemStrings items, body s = body' s) :
    encodeItems body items = encodeItems body' items := by
  match items with
  | [] => rfl
  | v :: rest =>
    simp only [itemStrings, List.mem_append, or_imp, forall_and] at same
    rw [encodeItems, encodeItems, encode_congr v same.1, encodeItems_congr rest same.2]

theorem encodeEntries_congr {body' : String → List Char} (entries : List (String × Json))
    (same : ∀ s ∈ entryStrings entries, body s = body' s) :
    encodeEntries body entries = encodeEntries body' entries := by
  match entries with
  | [] => rfl
  | (k, v) :: rest =>
    simp only [entryStrings, List.mem_cons, List.mem_append, or_imp, forall_and, forall_eq] at same
    rw [encodeEntries, encodeEntries, same.1, encode_congr v same.2.1,
      encodeEntries_congr rest same.2.2]
end

mutual
/-- A dump holds the body of every string. -/
theorem infix_encode (v : Json) : ∀ s ∈ v.strings, body s <:+: encode body v := by
  match v with
  | .null | .bool true | .bool false | .list [] | .dict [] | .int n | .float x =>
    simp [Json.strings, itemStrings, entryStrings]
  | .str s =>
    simp only [Json.strings, List.mem_singleton, forall_eq]
    exact ⟨['"'], ['"'], rfl⟩
  | .list (v :: rest) =>
    simp only [Json.strings, itemStrings, List.mem_append, encode]
    rintro s (first | later)
    · exact (infix_encode v s first).trans ⟨['['], encodeItems body rest, by simp⟩
    · exact (infix_encodeItems rest s later).trans ⟨'[' :: encode body v, [], by simp⟩
  | .dict ((k, v) :: rest) =>
    simp only [Json.strings, entryStrings, List.mem_cons, List.mem_append, encode]
    rintro s (rfl | first | later)
    · exact ⟨'{' :: ['"'], '"' :: ':' :: ' ' :: (encode body v ++ encodeEntries body rest), by simp⟩
    · exact (infix_encode v s first).trans
        ⟨'{' :: '"' :: (body k ++ ['"', ':', ' ']), encodeEntries body rest, by simp⟩
    · exact (infix_encodeEntries rest s later).trans
        ⟨'{' :: '"' :: (body k ++ '"' :: ':' :: ' ' :: encode body v), [], by simp⟩

theorem infix_encodeItems (items : List Json) :
    ∀ s ∈ itemStrings items, body s <:+: encodeItems body items := by
  match items with
  | [] => simp [itemStrings]
  | v :: rest =>
    simp only [itemStrings, List.mem_append, encodeItems]
    rintro s (first | later)
    · exact (infix_encode v s first).trans ⟨[',', ' '], encodeItems body rest, by simp⟩
    · exact (infix_encodeItems rest s later).trans ⟨',' :: ' ' :: encode body v, [], by simp⟩

theorem infix_encodeEntries (entries : List (String × Json)) :
    ∀ s ∈ entryStrings entries, body s <:+: encodeEntries body entries := by
  match entries with
  | [] => simp [entryStrings]
  | (k, v) :: rest =>
    simp only [entryStrings, List.mem_cons, List.mem_append, encodeEntries]
    rintro s (rfl | first | later)
    · exact ⟨',' :: ' ' :: ['"'], '"' :: ':' :: ' ' :: (encode body v ++ encodeEntries body rest), by simp⟩
    · exact (infix_encode v s first).trans
        ⟨',' :: ' ' :: '"' :: (body k ++ ['"', ':', ' ']), encodeEntries body rest, by simp⟩
    · exact (infix_encodeEntries rest s later).trans
        ⟨',' :: ' ' :: '"' :: (body k ++ '"' :: ':' :: ' ' :: encode body v), [], by simp⟩
end

end Dumps

end Python
