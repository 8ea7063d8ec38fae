import Mathlib.Data.List.Basic

/-! Quoted literals with an escape. A reader that ends a literal at the first quote
after an even run of escapes, the decoding of a literal's body, and the escaping that
makes any value the body of one literal. -/
namespace Quoting

variable {α : Type*}

/-- A stretch of a text: outside of literals, or the body of one. -/
inductive Segment (α : Type*) where
  | plain (text : List α)
  | literal (body : List α)
  deriving DecidableEq, Repr

/-- Where a reader stands: inside of a literal, with the parity of the run of escapes
that it has just passed. -/
inductive Place where
  | outside
  | inside (odd : Bool)
  deriving DecidableEq, Repr

/-- The stretch read first begins with one more element. -/
def grow (c : α) : List (Segment α) → List (Segment α)
  | .plain text :: rest => .plain (c :: text) :: rest
  | .literal body :: rest => .literal (c :: body) :: rest
  | [] => []

section
variable [DecidableEq α] (esc quote : α)

/-- The stretches of a text, unless its last literal does not end. -/
def segments : Place → List α → Option (List (Segment α))
  | .outside, [] => some [.plain []]
  | .inside _, [] => none
  | .outside, c :: rest =>
    if c = quote then (segments (.inside false) rest).map (.plain [] :: ·)
    else (segments .outside rest).map (grow c)
  | .inside odd, c :: rest =>
    if c = quote ∧ odd = false then (segments .outside rest).map (.literal [] :: ·)
    else (segments (.inside (decide (c = esc) && !odd)) rest).map (grow c)

/-- The value of a literal: a pair of escapes stands for one, and an escaped quote for
the quote. -/
def decode : List α → List α
  | [] => []
  | [c] => [c]
  | c :: d :: rest =>
    if c = esc ∧ (d = esc ∨ d = quote) then d :: decode rest else c :: decode (d :: rest)

/-- The body of the literal that stands for the value. -/
def escape (value : List α) : List α :=
  value.flatMap fun c => if c = esc ∨ c = quote then [esc, c] else [c]

variable {esc quote} {value text rest : List α}

@[simp] theorem escape_nil : escape esc quote [] = [] := rfl

theorem escape_append (a b : List α) :
    escape esc quote (a ++ b) = escape esc quote a ++ escape esc quote b :=
  List.flatMap_append

/-- A value without escapes and quotes is its own body. -/
theorem escape_plain (clear : ∀ c ∈ value, c ≠ esc ∧ c ≠ quote) :
    escape esc quote value = value := by
  induction value with
  | nil => rfl
  | cons c value ih =>
    rw [List.forall_mem_cons] at clear
    rw [escape, List.flatMap_cons, if_neg (not_or.mpr clear.1)]
    exact congrArg (c :: ·) (ih clear.2)

theorem decode_escape_append (value rest : List α) :
    decode esc quote (escape esc quote value ++ rest) = value ++ decode esc quote rest := by
  induction value with
  | nil => rfl
  | cons c value ih =>
    rw [escape, List.flatMap_cons]
    by_cases special : c = esc ∨ c = quote
    · rw [if_pos special]
      change decode esc quote (esc :: c :: (escape esc quote value ++ rest)) = _
      rw [decode, if_pos ⟨rfl, special⟩, ih, List.cons_append]
    · rw [if_neg special]
      change decode esc quote (c :: (escape esc quote value ++ rest)) = _
      have other : c ≠ esc := fun same => special (.inl same)
      cases later : escape esc quote value ++ rest with
      | nil =>
        rw [later] at ih
        rw [List.cons_append, ← ih]
        rfl
      | cons d more =>
        rw [decode, if_neg fun both => other both.1, ← later, ih, List.cons_append]

/-- Decoding takes the escaping back. -/
theorem decode_escape (value : List α) : decode esc quote (escape esc quote value) = value := by
  have whole : decode esc quote (escape esc quote value ++ []) = value ++ decode esc quote [] :=
    decode_escape_append value []
  simpa [decode] using whole

/-- A literal that holds an escaped value ends at the quote put after it. -/
theorem segments_body (apart : esc ≠ quote) (value rest : List α) :
    segments esc quote (.inside false) (escape esc quote value ++ quote :: rest) =
      (segments esc quote .outside rest).map (.literal (escape esc quote value) :: ·) := by
  induction value with
  | nil => simp [segments]
  | cons c value ih =>
    rw [escape, List.flatMap_cons]
    by_cases special : c = esc ∨ c = quote
    · rw [if_pos special]
      change segments esc quote (.inside false)
        (esc :: c :: (escape esc quote value ++ quote :: rest)) = _
      have after :
          segments esc quote (.inside true) (c :: (escape esc quote value ++ quote :: rest)) =
          (segments esc quote (.inside false)
            (escape esc quote value ++ quote :: rest)).map (grow c) := by
        simp [segments]
      rw [segments, if_neg (by simp [apart]), decide_eq_true rfl, Bool.not_false, Bool.and_true,
        after, ih]
      simp only [Option.map_map]
      rfl
    · rw [if_neg special]
      change segments esc quote (.inside false) (c :: (escape esc quote value ++ quote :: rest)) = _
      rw [not_or] at special
      rw [segments, if_neg (by simp [special.2]), decide_eq_false special.1, Bool.false_and, ih]
      simp only [Option.map_map]
      rfl

theorem segments_plain (clear : quote ∉ text) :
    segments esc quote .outside text = some [.plain text] := by
  induction text with
  | nil => rfl
  | cons c text ih =>
    rw [List.mem_cons, not_or] at clear
    rw [segments, if_neg (Ne.symm clear.1), ih clear.2]
    rfl

theorem segments_opening (clear : quote ∉ text) (rest : List α) :
    segments esc quote .outside (text ++ quote :: rest) =
      (segments esc quote (.inside false) rest).map (.plain text :: ·) := by
  induction text with
  | nil => simp [segments]
  | cons c text ih =>
    rw [List.mem_cons, not_or] at clear
    rw [List.cons_append, segments, if_neg (Ne.symm clear.1), ih clear.2, Option.map_map]
    rfl

/-- A text with an escaped value between quotes has one literal there. -/
theorem segments_literal (apart : esc ≠ quote) (clear : quote ∉ text) (value rest : List α) :
    segments esc quote .outside (text ++ quote :: (escape esc quote value ++ quote :: rest)) =
      (segments esc quote .outside rest).map
        (fun later => .plain text :: .literal (escape esc quote value) :: later) := by
  rw [segments_opening clear, segments_body apart, Option.map_map]
  rfl

end
end Quoting
