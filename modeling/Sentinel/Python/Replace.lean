import Mathlib.Data.List.Infix
import Sentinel.Python.Values

/-! `str.replace` around separators. A text that does not hold the separator is
replaced on either side of it, and a replacement whose ends do not occur in a
text makes no new copy of that text. -/
namespace Python

section Infix
variable {α : Type*} {t a b : List α} {c : α}

theorem prefix_sep (absent : c ∉ t) (found : t <+: a ++ c :: b) : t <+: a := by
  induction a generalizing t with
  | nil =>
    cases t with
    | nil => exact List.nil_prefix
    | cons d t =>
      obtain ⟨rfl, -⟩ := List.cons_prefix_cons.mp found
      simp at absent
  | cons x a ih =>
    cases t with
    | nil => exact List.nil_prefix
    | cons d t =>
      obtain ⟨rfl, later⟩ := List.cons_prefix_cons.mp found
      exact List.cons_prefix_cons.mpr ⟨rfl, ih (fun h => absent (List.mem_cons_of_mem _ h)) later⟩

/-- An infix without the separator lies on one side of it. -/
theorem infix_sep (absent : c ∉ t) (found : t <:+: a ++ c :: b) : t <:+: a ∨ t <:+: b := by
  induction a with
  | nil =>
    rcases List.infix_cons_iff.mp found with opens | later
    · exact .inl (prefix_sep (a := []) absent opens).isInfix
    · exact .inr later
  | cons x a ih =>
    rcases List.infix_cons_iff.mp found with opens | later
    · exact .inl (prefix_sep (a := x :: a) absent opens).isInfix
    · rcases ih later with left | right
      · exact .inl (left.trans (List.infix_cons List.infix_rfl))
      · exact .inr right

end Infix

section Replace
variable {old new : List Char}

theorem replaceFrom_sep {c : Char} (absent : c ∉ old) (nonempty : old ≠ []) (b : List Char) :
    ∀ (a : List Char) (skip : ℕ), skip ≤ a.length →
      replaceFrom old new skip (a ++ c :: b) =
        replaceFrom old new skip a ++ c :: replaceFrom old new 0 b := by
  intro a
  induction a with
  | nil =>
    rintro skip short
    obtain rfl : skip = 0 := by simpa using short
    have misses : ¬ old <+: c :: b := fun opens =>
      nonempty (List.prefix_nil.mp (prefix_sep (a := []) absent opens))
    simp [replaceFrom, misses]
  | cons x a ih =>
    intro skip short
    cases skip with
    | succ skip =>
      simp only [List.cons_append, replaceFrom]
      exact ih skip (by simpa using short)
    | zero =>
      have same : old <+: x :: (a ++ c :: b) ↔ old <+: x :: a :=
        ⟨prefix_sep (a := x :: a) absent, fun opens => opens.trans ⟨c :: b, by simp⟩⟩
      simp only [List.cons_append, replaceFrom, same]
      split
      · rename_i opens
        rw [ih _ (by have := opens.length_le; simp only [List.length_cons] at this; omega),
          List.append_assoc]
      · rw [ih 0 (Nat.zero_le _), List.cons_append]

theorem replaceAll_sep {c : Char} (absent : c ∉ old) (nonempty : old ≠ []) (a b : List Char) :
    replaceAll old new (a ++ c :: b) = replaceAll old new a ++ c :: replaceAll old new b :=
  replaceFrom_sep absent nonempty b a 0 (Nat.zero_le _)

/-- Replacing one character is done character by character. -/
theorem replaceAll_char (c : Char) (text : List Char) :
    replaceAll [c] new text = text.flatMap fun d => if d = c then new else [d] := by
  induction text with
  | nil => rfl
  | cons d text ih =>
    have opens : [c] <+: d :: text ↔ d = c := by
      rw [List.cons_prefix_cons]
      exact ⟨fun both => both.1.symm, fun same => ⟨same.symm, List.nil_prefix⟩⟩
    rw [List.flatMap_cons, ← ih]
    simp only [replaceAll, replaceFrom, opens]
    split <;> rfl

theorem replaceAll_of_not_infix {text : List Char} (absent : ¬ old <:+: text) :
    replaceAll old new text = text := by
  unfold replaceAll
  induction text with
  | nil => rfl
  | cons c rest ih =>
    have misses : ¬ old <+: c :: rest := fun opens => absent opens.isInfix
    have later : ¬ old <:+: rest := fun found => absent (List.infix_cons found)
    simp only [replaceFrom, if_neg misses, ih later]

/-- Where no suffix of `e` opens a match, the scan passes over `e`. -/
theorem replaceFrom_pass {rest : List Char} : ∀ {e : List Char},
    (∀ x, x ≠ [] → x <:+ e → ¬ old <+: x ++ rest) →
      replaceFrom old new 0 (e ++ rest) = e ++ replaceFrom old new 0 rest := by
  intro e
  induction e with
  | nil => exact fun _ => rfl
  | cons c e ih =>
    intro misses
    have here := misses (c :: e) (by simp) List.suffix_rfl
    simp only [List.cons_append, replaceFrom] at here ⊢
    rw [if_neg here, ih fun x nonempty suffix => misses x nonempty (suffix.trans (List.suffix_cons c e))]

theorem prefix_of_replaceFrom {t : List Char} (opens : ∃ first rest, new = first :: rest ∧ first ∉ t)
    (old text : List Char) : t <+: replaceFrom old new 0 text → t <+: text := by
  obtain ⟨first, mid, rfl, absent⟩ := opens
  induction text generalizing t with
  | nil => exact id
  | cons c rest ih =>
    intro opens
    simp only [replaceFrom] at opens
    cases t with
    | nil => exact List.nil_prefix
    | cons d t =>
      rw [List.mem_cons, not_or] at absent
      split at opens
      · exact absurd (List.cons_prefix_cons.mp opens).1 (Ne.symm absent.1)
      · obtain ⟨rfl, later⟩ := List.cons_prefix_cons.mp opens
        exact List.cons_prefix_cons.mpr ⟨rfl, ih absent.2 later⟩

/-- A text that neither starts in a replacement nor begins where one opens is found after
the scan only where it stood before, at a place that the scan passed over. -/
theorem passed_of_replaceFrom {t : List Char}
    (outside : ∀ rest, t <:+: new ++ rest → t <:+: rest)
    (opens : ∀ text, t <+: replaceFrom old new 0 text → t <+: text) {text : List Char} :
    ∀ {skip}, t <:+: replaceFrom old new skip text →
      t = [] ∨ ∃ rest, rest <:+ text ∧ ¬ old <+: rest ∧ t <+: rest := by
  induction text with
  | nil =>
    intro skip found
    exact .inl (List.infix_nil.mp (by cases skip <;> exact found))
  | cons c text ih =>
    -- what is found in the scan of the tail stands in a suffix of the tail
    have later : ∀ {skip}, t <:+: replaceFrom old new skip text →
        t = [] ∨ ∃ rest, rest <:+ c :: text ∧ ¬ old <+: rest ∧ t <+: rest := fun found =>
      (ih found).imp_right fun ⟨rest, suffix, passed, here⟩ =>
        ⟨rest, suffix.trans (List.suffix_cons c text), passed, here⟩
    intro skip found
    cases skip with
    | succ skip => exact later found
    | zero =>
      by_cases here : old <+: c :: text
      · rw [replaceFrom, if_pos here] at found
        exact later (outside _ found)
      · have start := opens (c :: text)
        rw [replaceFrom, if_neg here] at found start
        rcases List.infix_cons_iff.mp found with first | rest
        · exact .inr ⟨c :: text, List.suffix_rfl, here, start first⟩
        · exact later rest

theorem infix_of_replaceFrom {t : List Char}
    (outside : ∀ rest, t <:+: new ++ rest → t <:+: rest)
    (opens : ∀ text, t <+: replaceFrom old new 0 text → t <+: text) {text : List Char} {skip : ℕ}
    (found : t <:+: replaceFrom old new skip text) : t <:+: text := by
  obtain rfl | ⟨rest, suffix, -, here⟩ := passed_of_replaceFrom outside opens found
  · exact List.nil_infix
  · exact here.isInfix.trans suffix.isInfix

/-- The replacement has ends that do not occur in the text, nor does the text
occur in it. -/
structure Marks (new t : List Char) : Prop where
  ends : ∃ first mid last, new = first :: (mid ++ [last]) ∧ first ∉ t ∧ last ∉ t ∧
    ¬ t <:+: first :: mid

theorem Marks.outside {t : List Char} (marks : Marks new t) (rest : List Char)
    (found : t <:+: new ++ rest) : t <:+: rest := by
  obtain ⟨first, mid, last, rfl, -, absent, outside⟩ := marks.ends
  rw [show first :: (mid ++ [last]) ++ rest = (first :: mid) ++ last :: rest by simp] at found
  exact (infix_sep absent found).resolve_left outside

theorem Marks.opens {t : List Char} (marks : Marks new t) (old text : List Char) :
    t <+: replaceFrom old new 0 text → t <+: text := by
  obtain ⟨first, mid, last, same, absent, -⟩ := marks.ends
  exact prefix_of_replaceFrom ⟨first, mid ++ [last], same, absent⟩ old text

/-- Replacing makes no new copy of a text that the replacement marks. -/
theorem Marks.replaceFrom {t : List Char} (marks : Marks new t) {text : List Char} {skip : ℕ}
    (found : t <:+: replaceFrom old new skip text) : t <:+: text :=
  infix_of_replaceFrom marks.outside (marks.opens old) found

/-- Nothing of the replaced text is left. -/
theorem Marks.replaced (marks : Marks new old) {text : List Char} (nonempty : old ≠ [])
    {skip : ℕ} : ¬ old <:+: Python.replaceFrom old new skip text := by
  intro found
  obtain empty | ⟨rest, -, passed, here⟩ := passed_of_replaceFrom marks.outside (marks.opens old) found
  · exact nonempty empty
  · exact passed here

/-- The replacement opens with a character that does not occur in the text, and the text's
first character does not occur in the replacement. -/
structure Fresh (new t : List Char) : Prop where
  opens : ∃ first rest, new = first :: rest ∧ first ∉ t
  begins : ∃ first rest, t = first :: rest ∧ first ∉ new

theorem infix_of_append {t a b : List Char} (begins : ∃ first rest, t = first :: rest ∧ first ∉ a)
    (found : t <:+: a ++ b) : t <:+: b := by
  induction a with
  | nil => exact found
  | cons c a ih =>
    obtain ⟨first, rest, rfl, absent⟩ := begins
    rw [List.mem_cons, not_or] at absent
    rcases List.infix_cons_iff.mp found with here | later
    · exact absurd (List.cons_prefix_cons.mp here).1 absent.1
    · exact ih ⟨first, rest, rfl, absent.2⟩ later

/-- Such a replacement makes no new copy of the text. -/
theorem Fresh.replaceFrom {t : List Char} (fresh : Fresh new t) {text : List Char} {skip : ℕ}
    (found : t <:+: replaceFrom old new skip text) : t <:+: text :=
  infix_of_replaceFrom (fun _ => infix_of_append fresh.begins)
    (prefix_of_replaceFrom fresh.opens old) found

/-- The texts replaced one after another. -/
def replaceEach (olds : List (List Char)) (new text : List Char) : List Char :=
  olds.foldl (fun text old => replaceAll old new text) text

theorem replaceEach_sep {c : Char} {olds : List (List Char)}
    (absent : ∀ old ∈ olds, c ∉ old ∧ old ≠ []) : ∀ (a b : List Char),
      replaceEach olds new (a ++ c :: b) = replaceEach olds new a ++ c :: replaceEach olds new b := by
  unfold replaceEach
  induction olds with
  | nil => exact fun _ _ => rfl
  | cons old olds ih =>
    intro a b
    obtain ⟨outside, nonempty⟩ := absent old (by simp)
    simp only [List.foldl_cons, replaceAll_sep outside nonempty]
    exact ih (fun old member => absent old (by simp [member])) _ _

theorem replaceEach_of_not_infix {olds : List (List Char)} {text : List Char}
    (absent : ∀ old ∈ olds, ¬ old <:+: text) : replaceEach olds new text = text := by
  unfold replaceEach
  induction olds with
  | nil => rfl
  | cons old olds ih =>
    rw [List.foldl_cons, replaceAll_of_not_infix (absent old (by simp))]
    exact ih fun old member => absent old (by simp [member])

theorem infix_replaceEach {t : List Char} (marks : Marks new t) {olds : List (List Char)} :
    ∀ {text : List Char}, t <:+: replaceEach olds new text → t <:+: text := by
  unfold replaceEach
  induction olds with
  | nil => exact id
  | cons old olds ih => exact fun found => marks.replaceFrom (ih found)

/-- None of the replaced texts is left at the end. -/
theorem replaceEach_removes {olds : List (List Char)}
    (marks : ∀ old ∈ olds, Marks new old ∧ old ≠ []) : ∀ {text : List Char},
      ∀ old ∈ olds, ¬ old <:+: replaceEach olds new text := by
  induction olds with
  | nil => simp
  | cons first olds ih =>
    intro text old member found
    rcases List.mem_cons.mp member with rfl | later
    · obtain ⟨marked, nonempty⟩ := marks old (by simp)
      exact marked.replaced nonempty (infix_replaceEach marked found)
    · exact ih (fun old member => marks old (by simp [member])) old later found

end Replace

end Python
