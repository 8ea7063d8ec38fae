import Mathlib.Data.List.GetD
import Mathlib.Tactic.NormNum

/-! `binascii`: lowercase hex, and base64 as `b64decode` reads it, which skips foreign
characters and stops at the padding. -/
namespace Python

def hexDigits : List Char := "0123456789abcdef".toList

def hexChar (d : ℕ) : Char := hexDigits.getD d '0'

/-- `binascii.hexlify`. -/
def hexlify (bytes : List UInt8) : List Char :=
  bytes.flatMap fun b => [hexChar (b.toNat / 16), hexChar (b.toNat % 16)]

/-- The bytes that pairs of hex digits spell. -/
def unhexlify : List Char → List UInt8
  | high :: low :: rest => UInt8.ofNat (16 * hexDigits.idxOf high + hexDigits.idxOf low) :: unhexlify rest
  | _ => []

theorem hexChar_idxOf {c : Char} (digit : c ∈ hexDigits) : hexChar (hexDigits.idxOf c) = c := by
  have inside : hexDigits.idxOf c < hexDigits.length := List.idxOf_lt_length_iff.mpr digit
  rw [hexChar, List.getD_eq_getElem _ _ inside, List.getElem_idxOf]

/-- An even number of lowercase hex digits. -/
def IsHex (text : List Char) : Prop := text.length % 2 = 0 ∧ ∀ c ∈ text, c ∈ hexDigits

theorem hexlify_unhexlify {text : List Char} (hex : IsHex text) : hexlify (unhexlify text) = text := by
  obtain ⟨even, digits⟩ := hex
  fun_induction unhexlify text with
  | case1 high low rest ih =>
    simp only [List.forall_mem_cons] at digits
    have upper : hexDigits.idxOf high < 16 := List.idxOf_lt_length_iff.mpr digits.1
    have lower : hexDigits.idxOf low < 16 := List.idxOf_lt_length_iff.mpr digits.2.1
    have value : (UInt8.ofNat (16 * hexDigits.idxOf high + hexDigits.idxOf low)).toNat =
        16 * hexDigits.idxOf high + hexDigits.idxOf low :=
      UInt8.toNat_ofNat_of_lt' (by norm_num [UInt8.size]; omega)
    have first : (16 * hexDigits.idxOf high + hexDigits.idxOf low) / 16 = hexDigits.idxOf high := by omega
    have second : (16 * hexDigits.idxOf high + hexDigits.idxOf low) % 16 = hexDigits.idxOf low := by omega
    have shorter : rest.length % 2 = 0 := by
      rw [List.length_cons, List.length_cons] at even
      omega
    have later := ih shorter digits.2.2
    rw [hexlify] at later
    rw [hexlify, List.flatMap_cons, later, value, first, second, hexChar_idxOf digits.1,
      hexChar_idxOf digits.2.1]
    rfl
  | case2 text short =>
    match text, short, even with
    | [], _, _ => rfl
    | [_], _, even => simp at even
    | a :: b :: rest, short, _ => exact absurd rfl (short a b rest)

theorem hexlify_hex (bytes : List UInt8) : ∀ c ∈ hexlify bytes, c ∈ hexDigits := by
  have digit : ∀ d < 16, hexChar d ∈ hexDigits := by decide
  intro c member
  obtain ⟨b, -, inPair⟩ := List.mem_flatMap.mp member
  have high : b.toNat / 16 < 16 := by
    have := b.toNat_lt
    omega
  simp only [List.mem_cons, List.not_mem_nil, or_false] at inPair
  rcases inPair with rfl | rfl
  · exact digit _ high
  · exact digit _ (Nat.mod_lt _ (by decide))

theorem hexlify_injective : Function.Injective hexlify := by
  have digit : ∀ d < 16, ∀ e < 16, hexChar d = hexChar e → d = e := by decide
  intro a b same
  induction a generalizing b with
  | nil => cases b with
    | nil => rfl
    | cons y ys => cases same
  | cons x xs ih =>
    cases b with
    | nil => cases same
    | cons y ys =>
      simp only [hexlify, List.flatMap_cons, List.cons_append, List.nil_append, List.cons.injEq] at same
      obtain ⟨highs, lows, rest⟩ := same
      have xBound := x.toNat_lt
      have yBound := y.toNat_lt
      have high := digit _ (by omega) _ (by omega) highs
      have low := digit _ (Nat.mod_lt _ (by decide)) _ (Nat.mod_lt _ (by decide)) lows
      have bytes : x = y := UInt8.toNat_inj.mp (by omega)
      rw [bytes, ih rest]

def base64Alphabet : List Char :=
  "ABCDEFGHIJKLMNOPQRSTUVWXYZabcdefghijklmnopqrstuvwxyz0123456789+/".toList

def base64Char (d : ℕ) : Char := base64Alphabet.getD d '='

/-- `base64.b64encode`. -/
def b64encode : List UInt8 → List Char
  | [] => []
  | [a] => [base64Char (a.toNat / 4), base64Char (a.toNat % 4 * 16), '=', '=']
  | [a, b] =>
    [base64Char (a.toNat / 4), base64Char (a.toNat % 4 * 16 + b.toNat / 16),
      base64Char (b.toNat % 16 * 4), '=']
  | a :: b :: c :: rest =>
    [base64Char (a.toNat / 4), base64Char (a.toNat % 4 * 16 + b.toNat / 16),
      base64Char (b.toNat % 16 * 4 + c.toNat / 64), base64Char (c.toNat % 64)] ++ b64encode rest

/-- `binascii.a2b_base64` in its lenient mode, after `quad` digits of a group whose
unused bits are `left`, and `pads` signs of padding. -/
def a2b (quad left pads : ℕ) : List Char → Option (List UInt8)
  | [] => if quad = 0 then some [] else none
  | c :: rest =>
    if c = '=' then
      if 2 ≤ quad then
        if 4 ≤ quad + (pads + 1) then some [] else a2b quad left (pads + 1) rest
      else a2b quad left pads rest
    else
      match base64Alphabet.idxOf? c with
      | none => a2b quad left pads rest
      | some d =>
        match quad with
        | 0 => a2b 1 d 0 rest
        | 1 => (a2b 2 (d % 16) 0 rest).map (UInt8.ofNat (left * 4 + d / 16) :: ·)
        | 2 => (a2b 3 (d % 4) 0 rest).map (UInt8.ofNat (left * 16 + d / 4) :: ·)
        | _ => (a2b 0 0 0 rest).map (UInt8.ofNat (left * 64 + d) :: ·)

/-- `base64.b64decode(text)`, where it does not raise. -/
def b64decode (text : List Char) : Option (List UInt8) :=
  if text.all fun c => c.toNat < 128 then a2b 0 0 0 text else none

theorem base64Char_spec {d : ℕ} (small : d < 64) :
    base64Char d ≠ '=' ∧ base64Alphabet.idxOf? (base64Char d) = some d ∧
      (base64Char d).toNat < 128 := by
  have all : ∀ d < 64, base64Char d ≠ '=' ∧ base64Alphabet.idxOf? (base64Char d) = some d ∧
      (base64Char d).toNat < 128 := by
    decide +kernel
  exact all d small

theorem a2b_base64Char {quad left pads d : ℕ} (small : d < 64) (rest : List Char) :
    a2b quad left pads (base64Char d :: rest) =
      match quad with
      | 0 => a2b 1 d 0 rest
      | 1 => (a2b 2 (d % 16) 0 rest).map (UInt8.ofNat (left * 4 + d / 16) :: ·)
      | 2 => (a2b 3 (d % 4) 0 rest).map (UInt8.ofNat (left * 16 + d / 4) :: ·)
      | _ => (a2b 0 0 0 rest).map (UInt8.ofNat (left * 64 + d) :: ·) := by
  obtain ⟨digit, value, -⟩ := base64Char_spec small
  rw [a2b, if_neg digit, value]

theorem ofNat_eq_of_toNat {n : ℕ} {b : UInt8} (same : n = b.toNat) : UInt8.ofNat n = b := by
  rw [same, UInt8.ofNat_toNat]

theorem a2b_b64encode (bytes : List UInt8) : a2b 0 0 0 (b64encode bytes) = some bytes := by
  fun_induction b64encode bytes with
  | case1 => rfl
  | case2 a =>
    have := a.toNat_lt
    simp only [a2b_base64Char (show a.toNat / 4 < 64 by omega),
      a2b_base64Char (show a.toNat % 4 * 16 < 64 by omega)]
    rw [ofNat_eq_of_toNat (show a.toNat / 4 * 4 + a.toNat % 4 * 16 / 16 = a.toNat by omega)]
    rfl
  | case3 a b =>
    have := a.toNat_lt
    have := b.toNat_lt
    simp only [a2b_base64Char (show a.toNat / 4 < 64 by omega),
      a2b_base64Char (show a.toNat % 4 * 16 + b.toNat / 16 < 64 by omega),
      a2b_base64Char (show b.toNat % 16 * 4 < 64 by omega)]
    rw [ofNat_eq_of_toNat
        (show a.toNat / 4 * 4 + (a.toNat % 4 * 16 + b.toNat / 16) / 16 = a.toNat by omega),
      ofNat_eq_of_toNat
        (show (a.toNat % 4 * 16 + b.toNat / 16) % 16 * 16 + b.toNat % 16 * 4 / 4 = b.toNat by omega)]
    rfl
  | case4 a b c rest ih =>
    have := a.toNat_lt
    have := b.toNat_lt
    have := c.toNat_lt
    simp only [List.cons_append, List.nil_append,
      a2b_base64Char (show a.toNat / 4 < 64 by omega),
      a2b_base64Char (show a.toNat % 4 * 16 + b.toNat / 16 < 64 by omega),
      a2b_base64Char (show b.toNat % 16 * 4 + c.toNat / 64 < 64 by omega),
      a2b_base64Char (show c.toNat % 64 < 64 by omega), ih]
    rw [ofNat_eq_of_toNat
        (show a.toNat / 4 * 4 + (a.toNat % 4 * 16 + b.toNat / 16) / 16 = a.toNat by omega),
      ofNat_eq_of_toNat
        (show (a.toNat % 4 * 16 + b.toNat / 16) % 16 * 16 +
          (b.toNat % 16 * 4 + c.toNat / 64) / 4 = b.toNat by omega),
      ofNat_eq_of_toNat
        (show (b.toNat % 16 * 4 + c.toNat / 64) % 4 * 64 + c.toNat % 64 = c.toNat by omega)]
    rfl

theorem b64encode_ascii (bytes : List UInt8) : ∀ c ∈ b64encode bytes, c.toNat < 128 := by
  have digit : ∀ {d}, d < 64 → (base64Char d).toNat < 128 := fun small => (base64Char_spec small).2.2
  fun_induction b64encode bytes with
  | case1 => simp
  | case2 a =>
    have := a.toNat_lt
    simp only [List.forall_mem_cons]
    exact ⟨digit (by omega), digit (by omega), by decide, by decide, by simp⟩
  | case3 a b =>
    have := a.toNat_lt
    have := b.toNat_lt
    simp only [List.forall_mem_cons]
    exact ⟨digit (by omega), digit (by omega), digit (by omega), by decide, by simp⟩
  | case4 a b c rest ih =>
    have := a.toNat_lt
    have := b.toNat_lt
    have := c.toNat_lt
    simp only [List.forall_mem_append, List.forall_mem_cons]
    exact ⟨⟨digit (by omega), digit (by omega), digit (by omega), digit (by omega), by simp⟩, ih⟩

/-- What is encoded is decoded. -/
@[simp] theorem b64decode_b64encode (bytes : List UInt8) : b64decode (b64encode bytes) = some bytes := by
  have ascii : ((b64encode bytes).all fun c => c.toNat < 128) = true := by
    simpa using b64encode_ascii bytes
  rw [b64decode, if_pos ascii, a2b_b64encode]

end Python
