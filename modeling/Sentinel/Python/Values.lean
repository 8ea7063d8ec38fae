import Mathlib.Data.List.Infix
import Sentinel.Python.Exn
import Sentinel.Python.Json

/-! What Python code that expects particular JSON values does on any of them:
attribute access, `==`, `in`, `set(..)` and `str(..)`, with the exceptions they
raise on values of the wrong type. -/
namespace Python
namespace Json

def typeName : Json → String
  | null => "NoneType"
  | bool _ => "bool"
  | int _ => "int"
  | float _ => "float"
  | str _ => "str"
  | list _ => "list"
  | dict _ => "dict"

/-- The value of a key, if this is a dict with that key. -/
def lookup (v : Json) (key : String) : Option Json := v.entries.lookup key

/-- `v.get(key)`, `None` standing for an absent key. -/
def get (v : Json) (key : String) : Py Json :=
  match v with
  | dict entries => .ok ((entries.lookup key).getD null)
  | _ => .error ⟨"AttributeError", s!"'{v.typeName}' object has no attribute 'get'", false⟩

/-- `v[key]`. -/
def item (v : Json) (key : String) : Py Json :=
  match v with
  | dict entries =>
    match entries.lookup key with
    | some w => .ok w
    | none => .error ⟨"KeyError", s!"'{key}'", false⟩
  | list _ => .error ⟨"TypeError", "list indices must be integers or slices, not str", false⟩
  | str _ => .error ⟨"TypeError", "string indices must be integers, not 'str'", false⟩
  | _ => .error ⟨"TypeError", s!"'{v.typeName}' object is not subscriptable", false⟩

/-- `v[key] = value`. -/
def setItem (v : Json) (key : String) (value : Json) : Py Json :=
  match v with
  | dict entries => .ok (dict (assign key value entries))
  | list _ => .error ⟨"TypeError", "list indices must be integers or slices, not str", false⟩
  | _ => .error
    ⟨"TypeError", s!"'{v.typeName}' object does not support item assignment", false⟩

/-- `v or {}`. -/
def orEmptyDict (v : Json) : Json := if v.truthy then v else dict []

/-- `v or []`. -/
def orEmptyList (v : Json) : Json := if v.truthy then v else list []

def number : Json → Option ℚ
  | bool b => some (if b then 1 else 0)
  | int n => some n
  | float x => some x
  | _ => none

mutual
/-- `==`. Numbers compare by value and dicts without regard to order. -/
def pyEq : Json → Json → Bool
  | null, null => true
  | str s, str t => s == t
  | list xs, list ys => itemsEq xs ys
  | dict xs, dict ys => xs.length == ys.length && entriesEq xs ys
  | v, w =>
    match v.number, w.number with
    | some x, some y => decide (x = y)
    | _, _ => false

def itemsEq : List Json → List Json → Bool
  | [], [] => true
  | x :: xs, y :: ys => pyEq x y && itemsEq xs ys
  | _, _ => false

def entriesEq : List (String × Json) → List (String × Json) → Bool
  | [], _ => true
  | (k, v) :: rest, ys =>
    (match ys.lookup k with
      | some w => pyEq v w
      | none => false) && entriesEq rest ys
end

def hashable : Json → Bool
  | list _ | dict _ => false
  | _ => true

def unhashable (v : Json) : Exn := ⟨"TypeError", s!"unhashable type: '{v.typeName}'", false⟩

/-- `v in container`. -/
def isIn (v container : Json) : Py Bool :=
  match container with
  | list items => .ok (items.any (pyEq v))
  | dict entries => if v.hashable then .ok (entries.any fun e => pyEq v (str e.1)) else .error v.unhashable
  | str text =>
    match v with
    | str s => .ok (decide (s.toList <:+: text.toList))
    | _ => .error ⟨"TypeError", s!"'in <string>' requires string as left operand, not {v.typeName}", false⟩
  | _ => .error ⟨"TypeError", s!"argument of type '{container.typeName}' is not iterable", false⟩

/-- The elements of `set(v)`. -/
def toSet : Json → Py (List Json)
  | list items =>
    match items.find? fun item => !item.hashable with
    | some item => .error item.unhashable
    | none => .ok items
  | dict entries => .ok (entries.map fun e => str e.1)
  | str text => .ok (text.toList.map fun c => str (String.singleton c))
  | v => .error ⟨"TypeError", s!"'{v.typeName}' object is not iterable", false⟩

/-- `str(v)` of a value that is no container. -/
def display [FloatRepr] : Json → String
  | null => "None"
  | bool true => "True"
  | bool false => "False"
  | str s => s
  | v => String.ofList (dumps v)

end Json

/-- `text.replace(old, new)`, left to right without overlaps; `skip` characters
of the last match are still to be dropped. -/
def replaceFrom (old new : List Char) : Nat → List Char → List Char
  | _, [] => []
  | skip + 1, _ :: rest => replaceFrom old new skip rest
  | 0, c :: rest =>
    if old <+: c :: rest then new ++ replaceFrom old new (old.length - 1) rest
    else c :: replaceFrom old new 0 rest

def replaceAll (old new text : List Char) : List Char := replaceFrom old new 0 text

/-- The characters `str.strip()` removes. -/
def isSpace (c : Char) : Bool :=
  let n := c.toNat
  (9 ≤ n && n ≤ 13) || (28 ≤ n && n ≤ 32) || n == 0x85 || n == 0xa0 || n == 0x1680 ||
    (0x2000 ≤ n && n ≤ 0x200a) || n == 0x2028 || n == 0x2029 || n == 0x202f || n == 0x205f ||
    n == 0x3000

def strip (text : List Char) : List Char :=
  ((text.dropWhile isSpace).reverse.dropWhile isSpace).reverse

/-- The characters `str.splitlines()` ends a line at. -/
def isLineBreak (c : Char) : Bool :=
  c.toNat ∈ [0x0a, 0x0b, 0x0c, 0x0d, 0x1c, 0x1d, 0x1e, 0x85, 0x2028, 0x2029]

/-- `text.splitlines()`. A carriage return and the line feed after it end one
line, and the end of the text opens none. -/
def splitlines : List Char → List (List Char)
  | [] => []
  | '\r' :: '\n' :: rest => [] :: splitlines rest
  | c :: rest =>
    if isLineBreak c then [] :: splitlines rest
    else
      match splitlines rest with
      | [] => [[c]]
      | line :: lines => (c :: line) :: lines

/-- `text.find(sub)`, with `none` for `-1`. -/
def find (sub : List Char) : List Char → Option ℕ
  | [] => if sub = [] then some 0 else none
  | c :: rest => if sub <+: c :: rest then some 0 else (find sub rest).map (· + 1)

end Python
