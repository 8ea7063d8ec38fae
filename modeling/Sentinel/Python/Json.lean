import Mathlib.Data.Rat.Defs
import Mathlib.Data.List.Sort
import Mathlib.Data.String.Basic
import Sentinel.Python.Dict

/-! JSON values as Python holds them, and the text `json.dumps` writes for
them with its default options (ASCII only, `", "` and `": "` separators). A
float is its exact rational value; only its text is left to `FloatRepr`. NaN,
the infinities, lone surrogates and the interpreter's limits on nesting and on the
digits of an int are outside this model. -/
namespace Python

inductive Json where
  | null
  | bool (b : Bool)
  | int (n : Int)
  | float (x : ℚ)
  | str (s : String)
  | list (items : List Json)
  | dict (entries : List (String × Json))

namespace Json

/-- Python truthiness. -/
def truthy : Json → Bool
  | null => false
  | bool b => b
  | int n => n != 0
  | float x => decide (x ≠ 0)
  | str s => s != ""
  | list items => !items.isEmpty
  | dict entries => !entries.isEmpty

/-- `isinstance(v, dict)`. -/
def isDict : Json → Bool
  | dict _ => true
  | _ => false

/-- The entries of a dict, and none for any other value. -/
def entries : Json → List (String × Json)
  | dict entries => entries
  | _ => []

def ofOption : Option ℚ → Json
  | some x => float x
  | none => null

end Json

/-- Characters of an int or float literal. None of them opens another kind of
JSON value, and none of them may follow a value. -/
def isToken (c : Char) : Bool :=
  c.isDigit || c == '-' || c == '+' || c == '.' || c == 'e'

/-- `int.__repr__`. -/
def intRepr : Int → List Char
  | .ofNat n => Nat.toDigits 10 n
  | .negSucc n => '-' :: Nat.toDigits 10 (n + 1)

/-- What is relied on of `float.__repr__`: distinct floats have distinct texts,
made of literal characters, and never the text of an int. -/
class FloatRepr where
  repr : ℚ → List Char
  repr_injective : Function.Injective repr
  repr_token : ∀ x, ∀ c ∈ repr x, isToken c = true
  repr_ne_nil : ∀ x, repr x ≠ []
  repr_ne_int : ∀ x n, repr x ≠ intRepr n

def hexDigit (n : Nat) : Char :=
  if n < 10 then Char.ofNat ('0'.toNat + n) else Char.ofNat ('a'.toNat + (n - 10))

def unicodeEscape (n : Nat) : List Char :=
  ['\\', 'u', hexDigit (n / 4096 % 16), hexDigit (n / 256 % 16), hexDigit (n / 16 % 16),
    hexDigit (n % 16)]

/-- One character of a string literal, as `ensure_ascii` writes it. A character
outside the basic plane becomes a surrogate pair. -/
def escape (c : Char) : List Char :=
  if c = '"' then ['\\', '"']
  else if c = '\\' then ['\\', '\\']
  else if c = '\n' then ['\\', 'n']
  else if c = '\r' then ['\\', 'r']
  else if c = '\t' then ['\\', 't']
  else if c = '\x08' then ['\\', 'b']
  else if c = '\x0c' then ['\\', 'f']
  else if ' ' ≤ c ∧ c ≤ '~' then [c]
  else if c.toNat < 0x10000 then unicodeEscape c.toNat
  else unicodeEscape (0xd800 + (c.toNat - 0x10000) / 0x400) ++
    unicodeEscape (0xdc00 + (c.toNat - 0x10000) % 0x400)

def quote (s : String) : List Char := '"' :: (s.toList.flatMap escape ++ ['"'])

section Dumps
variable [FloatRepr]

mutual
/-- `json.dumps(v)`. -/
def dumps : Json → List Char
  | .null => ['n', 'u', 'l', 'l']
  | .bool true => ['t', 'r', 'u', 'e']
  | .bool false => ['f', 'a', 'l', 's', 'e']
  | .int n => intRepr n
  | .float x => FloatRepr.repr x
  | .str s => quote s
  | .list [] => ['[', ']']
  | .list (v :: rest) => '[' :: (dumps v ++ dumpsItems rest)
  | .dict [] => ['{', '}']
  | .dict ((k, v) :: rest) => '{' :: (quote k ++ ':' :: ' ' :: (dumps v ++ dumpsEntries rest))

def dumpsItems : List Json → List Char
  | [] => [']']
  | v :: rest => ',' :: ' ' :: (dumps v ++ dumpsItems rest)

def dumpsEntries : List (String × Json) → List Char
  | [] => ['}']
  | (k, v) :: rest => ',' :: ' ' :: (quote k ++ ':' :: ' ' :: (dumps v ++ dumpsEntries rest))
end

end Dumps

/-- `sorted` on dict items, whose keys are distinct. -/
def sortEntries {ν : Type*} (entries : List (String × ν)) : List (String × ν) :=
  entries.insertionSort fun a b => a.1 ≤ b.1

mutual
/-- The value whose plain dump is the dump under `sort_keys=True`. -/
def sortKeys : Json → Json
  | .list items => .list (sortItems items)
  | .dict entries => .dict (sortEntries (sortValues entries))
  | v => v

def sortItems : List Json → List Json
  | [] => []
  | v :: rest => sortKeys v :: sortItems rest

def sortValues : List (String × Json) → List (String × Json)
  | [] => []
  | (k, v) :: rest => (k, sortKeys v) :: sortValues rest
end

end Python
