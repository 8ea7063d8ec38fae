import Mathlib.Data.Nat.Digits.Defs
import Sentinel.Python.Exn
import Sentinel.Transition.Framing

/-! `struct.pack(">I", n)` and its inverse, and text as UTF-8 bytes. -/
namespace Python
open Transition

/-- The last `width` digits of `n` in base 256, the highest first. -/
def bigEndian : ℕ → ℕ → List UInt8
  | 0, _ => []
  | width + 1, n => UInt8.ofNat (n / 256 ^ width % 256) :: bigEndian width n

def ofBigEndian (bytes : List UInt8) : ℕ := bytes.foldl (fun n byte => n * 256 + byte.toNat) 0

theorem length_bigEndian (width n : ℕ) : (bigEndian width n).length = width := by
  induction width with
  | zero => rfl
  | succ width ih => rw [bigEndian, List.length_cons, ih]

theorem foldl_bigEndian (width n start : ℕ) :
    (bigEndian width n).foldl (fun n byte => n * 256 + byte.toNat) start =
      start * 256 ^ width + n % 256 ^ width := by
  induction width generalizing start with
  | zero => simp [bigEndian, Nat.mod_one]
  | succ width ih =>
    have digit : (UInt8.ofNat (n / 256 ^ width % 256)).toNat = n / 256 ^ width % 256 :=
      UInt8.toNat_ofNat_of_lt' (Nat.mod_lt _ (by decide))
    rw [bigEndian, List.foldl_cons, ih, digit, Nat.pow_succ, Nat.mod_mul]
    ring

/-- The format `>I`. -/
def unsignedInt : LengthCodec UInt8 where
  width := 4
  bound := 2 ^ 32
  encode := bigEndian 4
  decode := ofBigEndian
  length_encode := length_bigEndian 4
  decode_encode n small := by
    rw [ofBigEndian, foldl_bigEndian, Nat.zero_mul, Nat.zero_add]
    exact Nat.mod_eq_of_lt small

/-- `struct.pack(">I", n)`. -/
def packI (n : ℕ) : Py (List UInt8) :=
  if n < 2 ^ 32 then .ok (bigEndian 4 n)
  else .error ⟨"error", "'I' format requires 0 <= number <= 4294967295", false⟩

/-- `struct.unpack(">I", bytes)`. -/
def unpackI (bytes : List UInt8) : Py ℕ :=
  if bytes.length = 4 then .ok (ofBigEndian bytes)
  else .error ⟨"error", "unpack requires a buffer of 4 bytes", false⟩

/-- `text.encode("utf-8")`. -/
def encodeUtf8 (text : List Char) : List UInt8 := text.flatMap String.utf8EncodeChar

/-- `bytes.decode("utf-8")`. -/
def decodeUtf8 (bytes : List UInt8) : Py (List Char) :=
  match bytes.toByteArray.utf8Decode? with
  | some text => .ok text.toList
  | none => .error ⟨"UnicodeDecodeError", "invalid utf-8", false⟩

@[simp] theorem decodeUtf8_encodeUtf8 (text : List Char) :
    decodeUtf8 (encodeUtf8 text) = .ok text := by
  have bytes : (encodeUtf8 text).toByteArray = text.utf8Encode := rfl
  rw [decodeUtf8, bytes, List.utf8Decode?_utf8Encode]

end Python
