import Mathlib.Data.List.Basic
import Mathlib.Data.List.TakeWhile

/-! `int(text)` of a text whose characters are single bytes (Latin-1). A sign, and digits
with single underscores between them, may have blanks around them; a text of more than
4300 digits is refused. -/
namespace Python

/-- The characters below 256 that `int` takes for blanks. -/
def isIntSpace (c : Char) : Bool :=
  (9 ≤ c.toNat && c.toNat ≤ 13) || c.toNat ∈ [0x20, 0x85, 0xa0]

def stripIntSpace (text : List Char) : List Char :=
  ((text.dropWhile isIntSpace).reverse.dropWhile isIntSpace).reverse

/-- The digits of a literal, the underscores between them taken out. -/
def literalDigits : List Char → Option (List Char)
  | [] => none
  | [c] => if c.isDigit then some [c] else none
  | c :: '_' :: rest => if c.isDigit then (literalDigits rest).map (c :: ·) else none
  | c :: rest => if c.isDigit then (literalDigits rest).map (c :: ·) else none

def digitsValue (digits : List Char) : ℕ :=
  digits.foldl (fun n c => 10 * n + (c.toNat - '0'.toNat)) 0

def readDigits (text : List Char) : Option ℕ := do
  let digits ← literalDigits text
  if digits.length ≤ 4300 then some (digitsValue digits) else none

/-- `int(text)`, with `none` for `ValueError`. -/
def parseInt (text : List Char) : Option ℤ :=
  match stripIntSpace text with
  | '-' :: rest => (readDigits rest).map fun n => -Int.ofNat n
  | '+' :: rest => (readDigits rest).map Int.ofNat
  | rest => (readDigits rest).map Int.ofNat

example : parseInt [' ', '-', '1', '_', '0', '\n'] = some (-10) := by decide

/-- The characters of a text that `int` reads. -/
def isIntChar (c : Char) : Bool := isIntSpace c || c.isDigit || c ∈ ['_', '+', '-']

theorem isIntChar_of_literalDigits {text digits : List Char} (read : literalDigits text = some digits) :
    ∀ c ∈ text, isIntChar c = true := by
  fun_induction literalDigits text generalizing digits with
  | case1 => cases read
  | case2 c digit => simp [isIntChar, digit]
  | case3 => cases read
  | case4 c rest digit ih =>
    obtain ⟨later, found, -⟩ := Option.map_eq_some_iff.mp read
    simp only [List.forall_mem_cons]
    exact ⟨by simp [isIntChar, digit], by decide, ih found⟩
  | case5 => cases read
  | case6 c rest _ _ digit ih =>
    obtain ⟨later, found, -⟩ := Option.map_eq_some_iff.mp read
    simp only [List.forall_mem_cons]
    exact ⟨by simp [isIntChar, digit], ih found⟩
  | case7 => cases read

theorem isIntChar_of_readDigits {text : List Char} {n : ℕ} (read : readDigits text = some n) :
    ∀ c ∈ text, isIntChar c = true := by
  obtain ⟨digits, found, -⟩ := Option.bind_eq_some_iff.mp read
  exact isIntChar_of_literalDigits found

theorem mem_dropWhile_or {text : List Char} {c : Char} (member : c ∈ text) :
    c ∈ text.dropWhile isIntSpace ∨ isIntSpace c = true := by
  rw [← List.takeWhile_append_dropWhile (p := isIntSpace) (l := text), List.mem_append] at member
  rcases member with blank | inside
  · exact .inr (List.mem_takeWhile_imp blank)
  · exact .inl inside

/-- What is stripped are blanks. -/
theorem mem_stripIntSpace {text : List Char} {c : Char} (member : c ∈ text) :
    c ∈ stripIntSpace text ∨ isIntSpace c = true := by
  rcases mem_dropWhile_or member with inside | blank
  · rw [stripIntSpace, List.mem_reverse]
    exact mem_dropWhile_or (List.mem_reverse.mpr inside)
  · exact .inr blank

theorem isIntChar_of_parseInt {text : List Char} {n : ℤ} (read : parseInt text = some n) :
    ∀ c ∈ text, isIntChar c = true := by
  have body : ∀ c ∈ stripIntSpace text, isIntChar c = true := by
    unfold parseInt at read
    split at read
    all_goals
      obtain ⟨value, found, -⟩ := Option.map_eq_some_iff.mp read
      have digits := isIntChar_of_readDigits found
    · rename_i rest stripped
      rw [stripped, List.forall_mem_cons]
      exact ⟨by decide, digits⟩
    · rename_i rest stripped
      rw [stripped, List.forall_mem_cons]
      exact ⟨by decide, digits⟩
    · exact digits
  intro c member
  rcases mem_stripIntSpace member with inside | blank
  · exact body c inside
  · simp [isIntChar, blank]

end Python
