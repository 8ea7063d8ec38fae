import Mathlib.Data.List.Infix

/-! The lines of a file that is opened as text: all newlines become line feeds, and each
line ends after one. -/
namespace Python

/-- Universal newlines: `'\r\n'` and `'\r'` are read as `'\n'`. -/
def universalNewlines : List Char → List Char
  | [] => []
  | '\r' :: '\n' :: rest => '\n' :: universalNewlines rest
  | c :: rest => (if c = '\r' then '\n' else c) :: universalNewlines rest

/-- `for line in handle`. -/
def linesOf : List Char → List (List Char)
  | [] => []
  | c :: rest =>
    if c = '\n' then ['\n'] :: linesOf rest
    else
      match linesOf rest with
      | [] => [[c]]
      | line :: lines => (c :: line) :: lines

def textLines (text : List Char) : List (List Char) := linesOf (universalNewlines text)

example : textLines ['a', '\r', '\n', '\r', 'b'] = [['a', '\n'], ['\n'], ['b']] := by decide

/-- A text without newlines. -/
def OneLine (t : List Char) : Prop := ∀ c ∈ t, c ≠ '\n' ∧ c ≠ '\r'

theorem universalNewlines_cons {c : Char} (plain : c ≠ '\r') (rest : List Char) :
    universalNewlines (c :: rest) = c :: universalNewlines rest := by
  rw [universalNewlines.eq_def]
  split
  · contradiction
  · rename_i same
    exact absurd (List.cons.inj same).1 plain
  · rename_i same
    obtain ⟨rfl, rfl⟩ := List.cons.inj same
    rw [if_neg plain]

theorem universalNewlines_append {t : List Char} (plain : OneLine t) (rest : List Char) :
    universalNewlines (t ++ rest) = t ++ universalNewlines rest := by
  induction t with
  | nil => rfl
  | cons c t ih =>
    rw [OneLine, List.forall_mem_cons] at plain
    rw [List.cons_append, universalNewlines_cons plain.1.2, ih plain.2, List.cons_append]

theorem prefix_universalNewlines {t text : List Char} (plain : OneLine t) (opens : t <+: text) :
    t <+: universalNewlines text := by
  obtain ⟨rest, rfl⟩ := opens
  rw [universalNewlines_append plain]
  exact List.prefix_append _ _

theorem infix_universalNewlines {t text : List Char} (plain : OneLine t) (found : t <:+: text) :
    t <:+: universalNewlines text := by
  induction text using universalNewlines.induct with
  | case1 => exact found
  | case2 rest ih =>
    have read : universalNewlines ('\r' :: '\n' :: rest) = universalNewlines ('\n' :: rest) := by
      rw [universalNewlines, universalNewlines_cons (by decide)]
    rcases List.infix_cons_iff.mp found with opens | inner
    · exact (prefix_universalNewlines plain opens).isInfix
    rcases List.infix_cons_iff.mp inner with opens | inner
    · rw [read]
      exact (prefix_universalNewlines plain opens).isInfix
    · exact List.infix_cons (ih inner)
  | case3 c rest other ih =>
    rcases List.infix_cons_iff.mp found with opens | inner
    · exact (prefix_universalNewlines plain opens).isInfix
    · rw [universalNewlines.eq_def]
      split
      · contradiction
      · rename_i same
        obtain ⟨rfl, rfl⟩ := List.cons.inj same
        exact absurd rfl (other _ rfl)
      · rename_i same
        obtain ⟨rfl, rfl⟩ := List.cons.inj same
        exact List.infix_cons (ih inner)

/-- The first line goes on to the first line feed. -/
theorem prefix_linesOf {t text : List Char} (nonempty : t ≠ []) (plain : OneLine t)
    (opens : t <+: text) : ∃ line lines, linesOf text = line :: lines ∧ t <+: line := by
  induction t generalizing text with
  | nil => contradiction
  | cons c t ih =>
    rw [OneLine, List.forall_mem_cons] at plain
    obtain ⟨rest, rfl⟩ := opens
    rw [List.cons_append, linesOf, if_neg plain.1.1]
    by_cases last : t = []
    · subst last
      split
      · exact ⟨_, _, rfl, List.prefix_rfl⟩
      · rename_i line lines _
        exact ⟨_, _, rfl, line, rfl⟩
    · obtain ⟨line, lines, first, opens⟩ := ih last plain.2 (List.prefix_append t rest)
      rw [first]
      exact ⟨_, _, rfl, List.cons_prefix_cons.mpr ⟨rfl, opens⟩⟩

theorem infix_linesOf {t text : List Char} (nonempty : t ≠ []) (plain : OneLine t)
    (found : t <:+: text) : ∃ line ∈ linesOf text, t <:+: line := by
  induction text with
  | nil => exact absurd (List.infix_nil.mp found) nonempty
  | cons c rest ih =>
    rcases List.infix_cons_iff.mp found with opens | inner
    · obtain ⟨line, lines, first, opens⟩ := prefix_linesOf nonempty plain opens
      rw [first]
      exact ⟨line, List.mem_cons_self, opens.isInfix⟩
    · obtain ⟨line, member, found⟩ := ih inner
      rw [linesOf]
      split
      · exact ⟨line, List.mem_cons_of_mem _ member, found⟩
      · cases lines : linesOf rest with
        | nil =>
          rw [lines] at member
          cases member
        | cons first others =>
          rw [lines] at member
          rcases List.mem_cons.mp member with rfl | later
          · exact ⟨_, List.mem_cons_self, List.infix_cons found⟩
          · exact ⟨line, List.mem_cons_of_mem _ later, found⟩

/-- What stands within one line of a file is found by going through its lines. -/
theorem infix_textLines {t text : List Char} (nonempty : t ≠ []) (plain : OneLine t)
    (found : t <:+: text) : ∃ line ∈ textLines text, t <:+: line :=
  infix_linesOf nonempty plain (infix_universalNewlines plain found)

/-- A text without carriage returns is read as it is. -/
theorem universalNewlines_eq_self {text : List Char} (plain : ∀ c ∈ text, c ≠ '\r') :
    universalNewlines text = text := by
  induction text with
  | nil => rfl
  | cons c text ih =>
    rw [List.forall_mem_cons] at plain
    rw [universalNewlines_cons plain.1, ih plain.2]

theorem linesOf_line {line : List Char} (plain : OneLine line) (rest : List Char) :
    linesOf (line ++ '\n' :: rest) = (line ++ ['\n']) :: linesOf rest := by
  induction line with
  | nil => rfl
  | cons c line ih =>
    rw [OneLine, List.forall_mem_cons] at plain
    rw [List.cons_append, linesOf, if_neg plain.1.1, ih plain.2]
    rfl

/-- A file that was written line by line is read line by line. -/
theorem textLines_lines {lines : List (List Char)} (plain : ∀ line ∈ lines, OneLine line) :
    textLines (lines.flatMap fun line => line ++ ['\n']) = lines.map fun line => line ++ ['\n'] := by
  have unchanged : ∀ c ∈ lines.flatMap (fun line => line ++ ['\n']), c ≠ '\r' := by
    intro c member
    obtain ⟨line, inLines, inLine⟩ := List.mem_flatMap.mp member
    rcases List.mem_append.mp inLine with here | last
    · exact (plain line inLines c here).2
    · rw [List.mem_singleton.mp last]
      decide
  rw [textLines, universalNewlines_eq_self unchanged]
  induction lines with
  | nil => rfl
  | cons line lines ih =>
    rw [List.forall_mem_cons] at plain
    rw [List.flatMap_cons, List.append_assoc, List.singleton_append, linesOf_line plain.1,
      ih plain.2 fun c member => unchanged c (by simp [List.flatMap_cons, member]), List.map_cons]

end Python
