import Mathlib.Data.Bool.AllAny
import Mathlib.Data.List.TakeWhile
import Sentinel.Python.JsonReaderProofs
import Sentinel.Python.Values

/-! A dump is one line of printable ASCII, so a text of dumps that each end in a
line feed splits back into them, and each line reads as its value. -/
namespace Python

def Printable (c : Char) : Prop := ' ' ≤ c ∧ c ≤ '~'

theorem printable_iff (c : Char) : Printable c ↔ 32 ≤ c.toNat ∧ c.toNat ≤ 126 := by
  simp only [Printable, Char.le_def, UInt32.le_iff_toNat_le]
  rfl

instance (c : Char) : Decidable (Printable c) := decidable_of_iff _ (printable_iff c).symm

/-- By evaluation, on a list that is given. -/
theorem printable_of_all {l : List Char} (all : (l.all fun c => Printable c) = true) :
    ∀ c ∈ l, Printable c :=
  List.all_iff_forall_prop.mp all

theorem printable_not_break {c : Char} (printable : Printable c) : isLineBreak c = false := by
  obtain ⟨low, high⟩ := (printable_iff c).mp printable
  simp only [isLineBreak, List.mem_cons, List.not_mem_nil, or_false, decide_eq_false_iff_not]
  omega

theorem printable_token {c : Char} (token : isToken c = true) : Printable c := by
  simp only [isToken, Bool.or_eq_true, beq_iff_eq] at token
  rcases token with (((digit | rfl) | rfl) | rfl) | rfl
  · have bounds : 48 ≤ c.toNat ∧ c.toNat ≤ 57 := by
      simpa [Char.isDigit, UInt32.le_iff_toNat_le] using digit
    exact (printable_iff c).mpr (by omega)
  all_goals decide

theorem printable_hexDigit {n : ℕ} (small : n < 16) : Printable (hexDigit n) := by
  interval_cases n <;> decide

theorem printable_unicodeEscape (n : ℕ) : ∀ c ∈ unicodeEscape n, Printable c := by
  have digit (m : ℕ) : Printable (hexDigit (m % 16)) := printable_hexDigit (Nat.mod_lt _ (by decide))
  simp only [unicodeEscape, List.forall_mem_cons]
  exact ⟨by decide, by decide, digit _, digit _, digit _, digit _, by simp⟩

theorem printable_escape (c : Char) : ∀ d ∈ escape c, Printable d := by
  have form := escape_form c
  generalize escape c = text at form ⊢
  cases form with
  | letter listed =>
    simp only [escapeLetters, List.mem_cons, Prod.mk.injEq, List.not_mem_nil, or_false] at listed
    rcases listed with ⟨-, rfl⟩ | ⟨-, rfl⟩ | ⟨-, rfl⟩ | ⟨-, rfl⟩ | ⟨-, rfl⟩ | ⟨-, rfl⟩ | ⟨-, rfl⟩ <;>
      exact printable_of_all rfl
  | shown quote backslash plain =>
    intro d member
    rw [List.mem_singleton.mp member]
    exact plain
  | unit small => exact printable_unicodeEscape _
  | pair large =>
    exact List.forall_mem_append.mpr ⟨printable_unicodeEscape _, printable_unicodeEscape _⟩

theorem printable_quote (s : String) : ∀ c ∈ quote s, Printable c := by
  intro c member
  simp only [quote, List.mem_cons, List.mem_append, List.mem_flatMap, List.not_mem_nil, or_false] at member
  rcases member with rfl | ⟨d, -, inEscape⟩ | rfl
  · decide
  · exact printable_escape d c inEscape
  · decide

section Dumps
variable [FloatRepr]

mutual
theorem printable_dumps (v : Json) : ∀ c ∈ dumps v, Printable c := by
  match v with
  | .null | .bool true | .bool false =>
    simp only [dumps]
    exact printable_of_all rfl
  | .int n => exact fun c member => printable_token (intRepr_token n c member)
  | .float x => exact fun c member => printable_token (FloatRepr.repr_token x c member)
  | .str s => exact printable_quote s
  | .list [] | .dict [] =>
    simp only [dumps]
    exact printable_of_all rfl
  | .list (v :: rest) =>
    simp only [dumps, List.forall_mem_cons, List.forall_mem_append]
    exact ⟨by decide, printable_dumps v, printable_dumpsItems rest⟩
  | .dict ((k, v) :: rest) =>
    simp only [dumps, List.forall_mem_cons, List.forall_mem_append]
    exact ⟨by decide, printable_quote k, by decide, by decide, printable_dumps v,
      printable_dumpsEntries rest⟩

theorem printable_dumpsItems (items : List Json) : ∀ c ∈ dumpsItems items, Printable c := by
  match items with
  | [] =>
    simp only [dumpsItems]
    exact printable_of_all rfl
  | v :: rest =>
    simp only [dumpsItems, List.forall_mem_cons, List.forall_mem_append]
    exact ⟨by decide, by decide, printable_dumps v, printable_dumpsItems rest⟩

theorem printable_dumpsEntries (entries : List (String × Json)) :
    ∀ c ∈ dumpsEntries entries, Printable c := by
  match entries with
  | [] =>
    simp only [dumpsEntries]
    exact printable_of_all rfl
  | (k, v) :: rest =>
    simp only [dumpsEntries, List.forall_mem_cons, List.forall_mem_append]
    exact ⟨by decide, by decide, printable_quote k, by decide, by decide, printable_dumps v,
      printable_dumpsEntries rest⟩
end

end Dumps

/-! ### Lines -/

theorem splitlines_cons_break {c : Char} {rest : List Char} (here : isLineBreak c = true)
    (alone : ∀ after, c = '\r' → rest = '\n' :: after → False) :
    splitlines (c :: rest) = [] :: splitlines rest := by
  rw [splitlines.eq_def]
  split
  · contradiction
  · rename_i same
    obtain ⟨rfl, rfl⟩ := List.cons.inj same
    exact (alone _ rfl rfl).elim
  · rename_i same
    obtain ⟨rfl, rfl⟩ := List.cons.inj same
    rw [if_pos here]

theorem splitlines_cons_plain {c : Char} {rest line : List Char} {lines : List (List Char)}
    (plain : isLineBreak c = false) (parts : splitlines rest = line :: lines) :
    splitlines (c :: rest) = (c :: line) :: lines := by
  rw [splitlines.eq_def]
  split
  · contradiction
  · rename_i same
    rw [(List.cons.inj same).1] at plain
    exact absurd plain (by decide)
  · rename_i same
    obtain ⟨rfl, rfl⟩ := List.cons.inj same
    rw [if_neg (Bool.eq_false_iff.mp plain), parts]

/-- A line without breaks is split off at its line feed. -/
theorem splitlines_line {line : List Char} (plain : ∀ c ∈ line, isLineBreak c = false)
    (rest : List Char) : splitlines (line ++ '\n' :: rest) = line :: splitlines rest := by
  induction line with
  | nil => exact splitlines_cons_break (by decide) fun _ carriage => absurd carriage (by decide)
  | cons c line ih =>
    rw [List.forall_mem_cons] at plain
    exact splitlines_cons_plain plain.1 (ih plain.2)

theorem splitlines_plain {line : List Char} (plain : ∀ c ∈ line, isLineBreak c = false)
    (nonempty : line ≠ []) : splitlines line = [line] := by
  induction line with
  | nil => exact absurd rfl nonempty
  | cons c line ih =>
    rw [List.forall_mem_cons] at plain
    cases line with
    | nil =>
      rw [splitlines, if_neg (by simp [plain.1]), splitlines]
      simp
    | cons d line => exact splitlines_cons_plain plain.1 (ih plain.2 (List.cons_ne_nil _ _))

theorem splitlines_lines {lines : List (List Char)}
    (plain : ∀ line ∈ lines, ∀ c ∈ line, isLineBreak c = false) :
    splitlines (lines.flatMap fun line => line ++ ['\n']) = lines := by
  induction lines with
  | nil => rfl
  | cons line lines ih =>
    rw [List.forall_mem_cons] at plain
    rw [List.flatMap_cons, List.append_assoc, List.singleton_append, splitlines_line plain.1,
      ih plain.2]

/-- The text ends its last line, if it has any. -/
def EndsLine (text : List Char) : Prop := ∀ c ∈ text.getLast?, isLineBreak c = true

theorem EndsLine.tail {c : Char} {text : List Char} (ends : EndsLine (c :: text)) : EndsLine text := by
  intro d member
  cases text with
  | nil => cases member
  | cons e text => exact ends d (by simpa using member)

theorem splitlines_ne_nil {text : List Char} (nonempty : text ≠ []) : splitlines text ≠ [] := by
  intro none
  rw [splitlines.eq_def] at none
  split at none
  · contradiction
  · cases none
  · split at none
    · cases none
    · split at none <;> cases none

/-- Text that ends its lines is split apart from what follows. -/
theorem splitlines_append {text rest : List Char} (ends : EndsLine text)
    (apart : ∀ c ∈ rest.head?, c ≠ '\n') :
    splitlines (text ++ rest) = splitlines text ++ splitlines rest := by
  induction text using splitlines.induct with
  | case1 => rfl
  | case2 text ih => simp only [List.cons_append, splitlines, ih ends.tail.tail]
  | case3 c text other here ih =>
    rw [List.cons_append, splitlines_cons_break here other, splitlines_cons_break here ?_, ih ends.tail,
      List.cons_append]
    intro after carriage follows
    cases text with
    | nil =>
      cases rest with
      | nil => cases follows
      | cons d rest => exact apart d rfl (List.cons.inj follows).1
    | cons d text => exact other text carriage (by rw [(List.cons.inj follows).1])
  | case4 c text other plain none ih =>
    have last : text = [] := by
      by_contra nonempty
      exact splitlines_ne_nil nonempty none
    rw [last] at ends
    exact absurd (ends c rfl) plain
  | case5 c text other plain line lines split ih =>
    have plain := Bool.eq_false_iff.mpr plain
    have joined : splitlines (text ++ rest) = line :: (lines ++ splitlines rest) := by
      rw [ih ends.tail, split, List.cons_append]
    rw [List.cons_append, splitlines_cons_plain plain split, splitlines_cons_plain plain joined,
      List.cons_append]

theorem infix_of_mem_splitlines {text line : List Char} (member : line ∈ splitlines text) :
    line <:+: text := by
  have grown {c : Char} {line text : List Char} (inside : line <:+: text) : line <:+: c :: text :=
    inside.trans (List.suffix_cons c text).isInfix
  -- the first line is a prefix, and the others are infixes
  suffices all : ∀ text : List Char, (∀ line ∈ (splitlines text).head?, line <+: text) ∧
      ∀ line ∈ splitlines text, line <:+: text from (all text).2 line member
  intro text
  induction text using splitlines.induct with
  | case1 => exact ⟨by simp [splitlines], by simp [splitlines]⟩
  | case2 text ih =>
    rw [splitlines]
    refine ⟨by simp, List.forall_mem_cons.mpr ⟨List.nil_infix, fun line member => ?_⟩⟩
    exact grown (grown (ih.2 line member))
  | case3 c text other here ih =>
    rw [splitlines_cons_break here other]
    exact ⟨by simp, List.forall_mem_cons.mpr ⟨List.nil_infix, fun line member => grown (ih.2 line member)⟩⟩
  | case4 c text other plain none ih =>
    have last : text = [] := by
      by_contra nonempty
      exact splitlines_ne_nil nonempty none
    subst last
    rw [splitlines, if_neg plain, none]
    · exact ⟨by simp, by simp⟩
    · exact other
  | case5 c text other plain line lines split ih =>
    rw [split] at ih
    rw [splitlines_cons_plain (Bool.eq_false_iff.mpr plain) split]
    have first : c :: line <+: c :: text := (List.cons_prefix_cons.mpr ⟨rfl, ih.1 line rfl⟩)
    refine ⟨by simpa using first, List.forall_mem_cons.mpr ⟨first.isInfix, fun other member => ?_⟩⟩
    exact grown (ih.2 other (List.mem_cons_of_mem line member))

/-- What stands after the last line break. -/
def lastLine (text : List Char) : List Char :=
  (text.reverse.takeWhile fun c => !isLineBreak c).reverse

theorem lastLine_plain (text : List Char) : ∀ c ∈ lastLine text, isLineBreak c = false := by
  intro c member
  have kept := List.mem_takeWhile_imp (List.mem_reverse.mp member)
  simpa using kept

theorem exists_lastLine (text : List Char) : ∃ lines, EndsLine lines ∧ text = lines ++ lastLine text := by
  refine ⟨(text.reverse.dropWhile fun c => !isLineBreak c).reverse, ?_, ?_⟩
  · intro c member
    rw [List.getLast?_reverse] at member
    have stop := List.head?_dropWhile_not (fun c => !isLineBreak c) text.reverse
    rw [Option.mem_def.mp member] at stop
    simpa using stop
  · rw [lastLine, ← List.reverse_append, List.takeWhile_append_dropWhile, List.reverse_reverse]

theorem strip_ne_nil {c : Char} {rest : List Char} (visible : isSpace c = false) :
    strip (c :: rest) ≠ [] := by
  have first : (c :: rest).dropWhile isSpace = c :: rest := by simp [visible]
  rw [strip, first, ne_eq, List.reverse_eq_nil_iff, List.dropWhile_eq_nil_iff]
  intro blank
  rw [blank c (by simp)] at visible
  cases visible

/-- The lines that a reader of a text of dumped objects keeps. -/
theorem lines_dumps [FloatRepr] {values : List Json}
    (filled : ∀ v ∈ values, ∃ entry entries, v = .dict (entry :: entries)) :
    ((splitlines (values.flatMap fun v => dumps v ++ ['\n'])).filter fun line => strip line ≠ []) =
      values.map dumps := by
  have lines : (values.flatMap fun v => dumps v ++ ['\n']) =
      (values.map dumps).flatMap fun line => line ++ ['\n'] := by
    rw [List.flatMap_map]
  have plain : ∀ line ∈ values.map dumps, ∀ c ∈ line, isLineBreak c = false := by
    intro line member c inLine
    obtain ⟨v, -, rfl⟩ := List.mem_map.mp member
    exact printable_not_break (printable_dumps v c inLine)
  rw [lines, splitlines_lines plain]
  refine List.filter_eq_self.mpr fun line member => ?_
  obtain ⟨v, inValues, rfl⟩ := List.mem_map.mp member
  obtain ⟨⟨k, w⟩, entries, rfl⟩ := filled v inValues
  have visible : strip (dumps (.dict ((k, w) :: entries))) ≠ [] := by
    rw [dumps]
    exact strip_ne_nil (by decide)
  simpa using visible

end Python
