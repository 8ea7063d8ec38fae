import Sentinel.Python.Exn
import Sentinel.Python.JsonProofs

/-! `json.loads`. The reader takes a text apart as the scanner of the standard
library does; on a text whose string literals each scan or fail, it gives back
the value the text was made for, or fails. NaN and the infinities are outside
this model, and half of a surrogate pair, which strings here cannot hold, is
read as U+FFFD. -/
namespace Python

def decodeError (msg : String) : Exn := ⟨"JSONDecodeError", msg, false⟩

def isJsonSpace (c : Char) : Bool := c == ' ' || c == '\t' || c == '\n' || c == '\r'

def skipSpace (cs : List Char) : List Char := cs.dropWhile isJsonSpace

/-! ### Strings -/

def hexDigit? (c : Char) : Option ℕ :=
  if c.isDigit then some (c.toNat - 48)
  else if 'a' ≤ c ∧ c ≤ 'f' then some (c.toNat - 87)
  else if 'A' ≤ c ∧ c ≤ 'F' then some (c.toNat - 55)
  else none

def hexCode? (a b c d : Char) : Option ℕ :=
  match hexDigit? a, hexDigit? b, hexDigit? c, hexDigit? d with
  | some a, some b, some c, some d => some (a * 4096 + b * 256 + c * 16 + d)
  | _, _, _, _ => none

/-- The character that a one-letter escape stands for. -/
def simpleEscape : Char → Option Char
  | '"' => some '"'
  | '\\' => some '\\'
  | '/' => some '/'
  | 'b' => some '\x08'
  | 'f' => some '\x0c'
  | 'n' => some '\n'
  | 'r' => some '\r'
  | 't' => some '\t'
  | _ => none

def isHigh (n : ℕ) : Bool := 0xd800 ≤ n && n ≤ 0xdbff

def isLow (n : ℕ) : Bool := 0xdc00 ≤ n && n ≤ 0xdfff

/-- What a high surrogate stands for when no low one follows. -/
def flush : Option ℕ → List Char
  | none => []
  | some _ => ['\ufffd']

/-- The characters that the code `n` stands for after `pending`, and the high
surrogate that then waits for its other half. -/
def decodeUnit (pending : Option ℕ) (n : ℕ) : List Char × Option ℕ :=
  if isHigh n then (flush pending, some n)
  else if isLow n then
    match pending with
    | some high => ([Char.ofNat (0x10000 + (high - 0xd800) * 0x400 + (n - 0xdc00))], none)
    | none => (['\ufffd'], none)
  else (flush pending ++ [Char.ofNat n], none)

/-- Characters read before the rest of a literal. -/
def emit (cs : List Char) : Py (List Char × List Char) → Py (List Char × List Char)
  | .ok (body, rest) => .ok (cs ++ body, rest)
  | .error e => .error e

/-- `scanstring`: the body of a literal after its opening quote, and what follows
its closing quote. -/
def scanString : Option ℕ → List Char → Py (List Char × List Char)
  | _, [] => .error (decodeError "Unterminated string starting at")
  | pending, '"' :: rest => .ok (flush pending, rest)
  | _, ['\\'] => .error (decodeError "Unterminated string starting at")
  | pending, '\\' :: 'u' :: a :: b :: c :: d :: rest =>
    match hexCode? a b c d with
    | none => .error (decodeError "Invalid \\uXXXX escape")
    | some n => emit (decodeUnit pending n).1 (scanString (decodeUnit pending n).2 rest)
  | pending, '\\' :: c :: rest =>
    match simpleEscape c with
    | none =>
      .error (decodeError (if c = 'u' then "Invalid \\uXXXX escape" else "Invalid \\escape"))
    | some d => emit (flush pending ++ [d]) (scanString none rest)
  | pending, c :: rest =>
    if c < ' ' then .error (decodeError "Invalid control character at")
    else emit (flush pending ++ [c]) (scanString none rest)

/-! ### Numbers -/

def digitsOf (cs : List Char) : List Char × List Char :=
  (cs.takeWhile Char.isDigit, cs.dropWhile Char.isDigit)

/-- The integer part of a literal: no leading zeros. -/
def scanInt : List Char → Option (List Char × List Char)
  | '0' :: rest => some (['0'], rest)
  | c :: rest => if c.isDigit then some (digitsOf (c :: rest)) else none
  | [] => none

/-- A decimal point needs a digit after it. -/
def scanFraction : List Char → List Char × List Char
  | '.' :: d :: rest =>
    if d.isDigit then ('.' :: (digitsOf (d :: rest)).1, (digitsOf (d :: rest)).2)
    else ([], '.' :: d :: rest)
  | cs => ([], cs)

def scanDigits (lead : List Char) (all : List Char) : List Char → List Char × List Char
  | d :: rest => if d.isDigit then (lead ++ (digitsOf (d :: rest)).1, (digitsOf (d :: rest)).2)
    else ([], all)
  | [] => ([], all)

def scanExponent : List Char → List Char × List Char
  | e :: '+' :: rest =>
    if e = 'e' ∨ e = 'E' then scanDigits [e, '+'] (e :: '+' :: rest) rest else ([], e :: '+' :: rest)
  | e :: '-' :: rest =>
    if e = 'e' ∨ e = 'E' then scanDigits [e, '-'] (e :: '-' :: rest) rest else ([], e :: '-' :: rest)
  | e :: rest => if e = 'e' ∨ e = 'E' then scanDigits [e] (e :: rest) rest else ([], e :: rest)
  | [] => ([], [])

/-- The longest number literal that opens `cs`, whether it is a float, and what
follows it. -/
def scanNumber (cs : List Char) : Option (List Char × Bool × List Char) :=
  let (sign, unsigned) := match cs with
    | '-' :: rest => (['-'], rest)
    | _ => ([], cs)
  match scanInt unsigned with
  | none => none
  | some (digits, rest) =>
    let (fraction, rest) := scanFraction rest
    let (exponent, rest) := scanExponent rest
    some (sign ++ digits ++ fraction ++ exponent, !(fraction.isEmpty && exponent.isEmpty), rest)

/-- `int(text)` of a literal. -/
def readInt : List Char → Int
  | '-' :: digits => -(Nat.ofDigitChars 10 digits 0 : Int)
  | digits => (Nat.ofDigitChars 10 digits 0 : Int)

/-- What may follow a value in a dump. -/
def Ends (rest : List Char) : Prop := ∀ c ∈ rest.head?, c = ',' ∨ c = ']' ∨ c = '}'

/-- What is relied on of `float`: it reads a float's own text, and that text is a
float literal. -/
class FloatReader [FloatRepr] where
  read : List Char → ℚ
  read_repr : ∀ x, read (FloatRepr.repr x) = x
  scan_repr : ∀ x rest, Ends rest →
    scanNumber (FloatRepr.repr x ++ rest) = some (FloatRepr.repr x, true, rest)

/-! ### Values -/

/-- The dict of the pairs read: the last value of a key wins. -/
def ofPairs (pairs : List (String × Json)) : List (String × Json) :=
  pairs.foldl (fun entries pair => assign pair.1 pair.2 entries) []

section Reader
variable [FloatRepr] [FloatReader]

mutual
/-- `scan_once`; the fuel bounds the nesting and the items. -/
def scanOnce : ℕ → List Char → Py (Json × List Char)
  | 0, _ => .error (decodeError "Expecting value")
  | fuel + 1, cs =>
    match cs with
    | '"' :: rest => do
      let (body, rest) ← scanString none rest
      pure (.str (String.ofList body), rest)
    | '{' :: rest =>
      match skipSpace rest with
      | '}' :: rest => pure (.dict [], rest)
      | rest => do
        let (pairs, rest) ← scanPairs fuel rest
        pure (.dict (ofPairs pairs), rest)
    | '[' :: rest =>
      match skipSpace rest with
      | ']' :: rest => pure (.list [], rest)
      | rest => do
        let (items, rest) ← scanItems fuel rest
        pure (.list items, rest)
    | 'n' :: 'u' :: 'l' :: 'l' :: rest => pure (.null, rest)
    | 't' :: 'r' :: 'u' :: 'e' :: rest => pure (.bool true, rest)
    | 'f' :: 'a' :: 'l' :: 's' :: 'e' :: rest => pure (.bool false, rest)
    | cs =>
      match scanNumber cs with
      | none => throw (decodeError "Expecting value")
      | some (text, true, rest) => pure (.float (FloatReader.read text), rest)
      | some (text, false, rest) => pure (.int (readInt text), rest)

def scanItems : ℕ → List Char → Py (List Json × List Char)
  | 0, _ => .error (decodeError "Expecting value")
  | fuel + 1, cs => do
    let (v, rest) ← scanOnce fuel cs
    match skipSpace rest with
    | ']' :: rest => pure ([v], rest)
    | ',' :: rest => do
      let (items, rest) ← scanItems fuel (skipSpace rest)
      pure (v :: items, rest)
    | _ => throw (decodeError "Expecting ',' delimiter")

def scanPairs : ℕ → List Char → Py (List (String × Json) × List Char)
  | 0, _ => .error (decodeError "Expecting value")
  | fuel + 1, cs =>
    match cs with
    | '"' :: rest => do
      let (key, rest) ← scanString none rest
      match skipSpace rest with
      | ':' :: rest => do
        let (v, rest) ← scanOnce fuel (skipSpace rest)
        match skipSpace rest with
        | '}' :: rest => pure ([(String.ofList key, v)], rest)
        | ',' :: rest => do
          let (pairs, rest) ← scanPairs fuel (skipSpace rest)
          pure ((String.ofList key, v) :: pairs, rest)
        | _ => throw (decodeError "Expecting ',' delimiter")
      | _ => throw (decodeError "Expecting ':' delimiter")
    | _ => throw (decodeError "Expecting property name enclosed in double quotes")
end

/-- `json.loads`. -/
def loads (text : List Char) : Py Json := do
  let (v, rest) ← scanOnce (2 * text.length + 1) (skipSpace text)
  if skipSpace rest = [] then pure v else throw (decodeError "Extra data")

end Reader

end Python
