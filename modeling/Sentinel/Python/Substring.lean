import Mathlib.Data.List.Infix
import Mathlib.Data.List.TakeWhile
import Sentinel.Python.Values

/-! Where a text occurs in another: `text.find(sub)`, `text.rfind(sub)`, and `text.strip()`
around a text that is not blank at its ends. -/
namespace Python

variable {α : Type*} {sub a b : List α}

/-- A prefix that cannot take the next character ends before it. -/
theorem prefix_left (opens : sub <+: a ++ b) (stop : ∀ c ∈ b.head?, c ∉ sub) : sub <+: a := by
  rcases le_total sub.length a.length with short | long
  · exact List.prefix_of_prefix_length_le opens (List.prefix_append a b) short
  · obtain ⟨rest, rfl⟩ := List.prefix_of_prefix_length_le (List.prefix_append a b) opens long
    cases rest with
    | nil => simp
    | cons c rest =>
      obtain ⟨tail, rfl⟩ := (List.prefix_append_right_inj a).mp opens
      exact absurd (by simp) (stop c rfl)

theorem infix_right (nonempty : sub ≠ []) (apart : ∀ c ∈ a, c ∉ sub) (found : sub <:+: a ++ b) :
    sub <:+: b := by
  induction a with
  | nil => exact found
  | cons c a ih =>
    rw [List.forall_mem_cons] at apart
    rcases List.infix_cons_iff.mp found with opens | later
    · obtain ⟨d, rest, rfl⟩ := List.exists_cons_of_ne_nil nonempty
      rw [(List.cons_prefix_cons.mp opens).1] at apart
      exact absurd List.mem_cons_self apart.1
    · exact ih apart.2 later

theorem infix_left (nonempty : sub ≠ []) (apart : ∀ c ∈ b, c ∉ sub) (found : sub <:+: a ++ b) :
    sub <:+: a := by
  rw [← List.reverse_infix, List.reverse_append] at found
  rw [← List.reverse_infix]
  exact infix_right (by simpa using nonempty) (by simpa using apart) found

/-! ### Searching -/

theorem find_eq_none {sub text : List Char} : find sub text = none ↔ ¬ sub <:+: text := by
  induction text with
  | nil =>
    rw [find, List.infix_nil]
    split <;> simp_all
  | cons c rest ih =>
    rw [find, List.infix_cons_iff]
    split_ifs with here
    · simp [here]
    · simp [ih, here]

theorem find_eq_some {sub text : List Char} {n : ℕ} (found : find sub text = some n) :
    sub <+: text.drop n ∧ n + sub.length ≤ text.length := by
  induction text generalizing n with
  | nil =>
    rw [find] at found
    split_ifs at found with empty
    obtain rfl := Option.some.inj found
    simp [empty]
  | cons c rest ih =>
    rw [find] at found
    split_ifs at found with here
    · obtain rfl := Option.some.inj found
      exact ⟨here, by simpa using here.length_le⟩
    · obtain ⟨m, later, rfl⟩ := Option.map_eq_some_iff.mp found
      obtain ⟨opens, within⟩ := ih later
      exact ⟨opens, by rw [List.length_cons]; omega⟩

theorem find_append_apart {sub before text : List Char} (nonempty : sub ≠ [])
    (apart : ∀ c ∈ before, c ∉ sub) :
    find sub (before ++ text) = (find sub text).map (before.length + ·) := by
  induction before with
  | nil => simp
  | cons c before ih =>
    rw [List.forall_mem_cons] at apart
    have other : ¬ sub <+: c :: (before ++ text) := by
      intro opens
      obtain ⟨d, rest, rfl⟩ := List.exists_cons_of_ne_nil nonempty
      rw [(List.cons_prefix_cons.mp opens).1] at apart
      exact apart.1 List.mem_cons_self
    rw [List.cons_append, find, if_neg other, ih apart.2, Option.map_map]
    congr 1
    funext n
    simp only [Function.comp_apply, List.length_cons]
    omega

/-- What is found in a text is found there when the text goes on. -/
theorem find_append {sub text : List Char} {n : ℕ} (found : find sub text = some n) (rest : List Char) :
    find sub (text ++ rest) = some n := by
  induction text generalizing n with
  | nil =>
    rw [find] at found
    split_ifs at found with empty
    cases rest <;> simp [find, empty, ← Option.some.inj found]
  | cons c text ih =>
    rw [find] at found
    rw [List.cons_append, find]
    split_ifs at found with here
    · have opens : sub <+: c :: (text ++ rest) := here.trans (List.prefix_append (c :: text) rest)
      rw [if_pos opens]
      exact found
    · obtain ⟨m, later, rfl⟩ := Option.map_eq_some_iff.mp found
      have short := (find_eq_some later).2
      have absent : ¬ sub <+: c :: (text ++ rest) := fun opens =>
        here (List.prefix_of_prefix_length_le opens (List.prefix_append (c :: text) rest)
          (by rw [List.length_cons]; omega))
      rw [if_neg absent, ih later]
      rfl

/-- A text without `sub` that cannot overlap with it ends where `sub` is found. -/
theorem find_append_self {sub text : List Char} (absent : ¬ sub <:+: text)
    (apart : ∀ c ∈ text.getLast?, c ∉ sub) : find sub (text ++ sub) = some text.length := by
  induction text with
  | nil => cases sub <;> simp [find]
  | cons c text ih =>
    have later : ∀ d ∈ text.getLast?, d ∉ sub := by
      intro d last
      cases text with
      | nil => cases last
      | cons e text => exact apart d (by simpa using last)
    have other : ¬ sub <+: c :: text ++ sub := by
      intro opens
      rcases le_total sub.length (c :: text).length with short | long
      · exact absent (List.prefix_of_prefix_length_le opens (List.prefix_append _ _) short).isInfix
      · have whole := List.prefix_of_prefix_length_le (List.prefix_append _ _) opens long
        exact apart _ (List.getLast?_eq_some_getLast (List.cons_ne_nil c text))
          (whole.subset (List.getLast_mem (List.cons_ne_nil c text)))
    rw [List.cons_append] at other ⊢
    rw [find, if_neg other, ih (fun inside => absent (List.infix_cons inside)) later]
    rfl

/-- `text.rfind(sub)`, with `none` for `-1`. -/
def rfind (sub : List Char) : List Char → Option ℕ
  | [] => if sub = [] then some 0 else none
  | c :: rest =>
    match rfind sub rest with
    | some n => some (n + 1)
    | none => if sub <+: c :: rest then some 0 else none

theorem rfind_absent {c : Char} {text : List Char} (absent : c ∉ text) : rfind [c] text = none := by
  induction text with
  | nil => simp [rfind]
  | cons d text ih =>
    rw [List.mem_cons, not_or] at absent
    simp [rfind, ih absent.2, absent.1]

theorem rfind_last {c : Char} {before after : List Char} (absent : c ∉ after) :
    rfind [c] (before ++ c :: after) = some before.length := by
  induction before with
  | nil => simp [rfind, rfind_absent absent]
  | cons d before ih => simp [rfind, ih]

theorem find_first {c : Char} {before after : List Char} (absent : c ∉ before) :
    find [c] (before ++ c :: after) = some before.length := by
  rw [find_append_apart (by simp) (by simpa using fun d member => ne_of_mem_of_not_mem member absent)]
  simp [find]

/-! ### Blanks -/

/-- The blanks that are stripped stand outside of a text that has none at its ends. -/
theorem strip_around {c d : Char} (opens : isSpace c = false) (closes : isSpace d = false)
    (before inner after : List Char) :
    strip (before ++ (c :: (inner ++ [d])) ++ after) =
      before.dropWhile isSpace ++ (c :: (inner ++ [d])) ++ (after.reverse.dropWhile isSpace).reverse := by
  have left (more : List Char) :
      (before ++ (c :: more)).dropWhile isSpace = before.dropWhile isSpace ++ c :: more := by
    rw [List.dropWhile_append]
    split_ifs with blank
    · rw [List.isEmpty_iff.mp blank, List.nil_append, List.dropWhile_cons_of_neg (by simp [opens])]
    · rfl
  have right (more : List Char) :
      (after.reverse ++ (d :: more)).dropWhile isSpace = after.reverse.dropWhile isSpace ++ d :: more := by
    rw [List.dropWhile_append]
    split_ifs with blank
    · rw [List.isEmpty_iff.mp blank, List.nil_append, List.dropWhile_cons_of_neg (by simp [closes])]
    · rfl
  have text : before ++ (c :: (inner ++ [d])) ++ after = before ++ (c :: (inner ++ [d] ++ after)) := by simp
  have turned : (before.dropWhile isSpace ++ (c :: (inner ++ [d] ++ after))).reverse =
      after.reverse ++ (d :: (inner.reverse ++ c :: (before.dropWhile isSpace).reverse)) := by simp
  rw [strip, text, left, turned, right]
  simp

theorem dropWhile_blank {blank : List Char} (spaces : ∀ c ∈ blank, isSpace c = true) :
    blank.dropWhile isSpace = [] := List.dropWhile_eq_nil_iff.mpr spaces

end Python
