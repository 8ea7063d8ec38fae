import Sentinel.Lgtm.Store
import Sentinel.Python.Base64
import Sentinel.Python.Rounding

/-! How the live store reads a trace document: ids come as base64, times in nanoseconds,
and the service from the resource that the spans are grouped under. -/
namespace Sentinel.Lgtm
open Python Fixtures Tools Newrelic

/-- An attribute of a span or a resource; the value is a dict of one typed entry. -/
structure Attribute where
  key : String
  value : List (String × Json)

/-- A span in OTLP; the times are the integers that their texts spell. -/
structure OtlpSpan where
  traceId : String := ""
  spanId : String := ""
  parentSpanId : Option String := none
  name : Option String := none
  kind : ℕ := 0
  startTimeUnixNano : Option ℤ := none
  endTimeUnixNano : Option ℤ := none
  statusCode : Option Json := none
  attributes : List Attribute := []

/-- The spans of one resource, by scope. -/
structure ResourceSpans where
  resource : List Attribute
  scopeSpans : List (List OtlpSpan)

/-- `_hexid`. -/
def hexid (value : String) : String :=
  match b64decode value.toList with
  | some bytes => String.ofList (hexlify bytes)
  | none => value

/-- `v or w`. -/
def orElse (v w : Json) : Json := if v.truthy then v else w

/-- `_attr`; `None` is null. -/
def attr (attrs : List Attribute) (key : String) : Json :=
  match attrs.find? fun a => a.key = key with
  | some a =>
    let get := fun name => (a.value.lookup name).getD .null
    orElse (orElse (get "stringValue") (get "intValue")) (get "boolValue")
  | none => .null

def serviceOf (resource : List Attribute) : Json := orElse (attr resource "service.name") (.str "unknown")

/-- `n / 1e6`. -/
def perMillion (n : ℤ) : ℚ := rnd (rnd n / 10 ^ 6)

def statusOf (code : Json) : String :=
  if code.pyEq (.int 2) || code.pyEq (.str "STATUS_CODE_ERROR") then "ERROR" else "OK"

/-- The row of one span. -/
def parseSpan (s : LgtmStore) (svc : Json) (sp : OtlpSpan) : Py TraceRow :=
  let startNs := sp.startTimeUnixNano.getD 0
  let endNs := sp.endTimeUnixNano.getD startNs
  let kind := orElse (attr sp.attributes "span.kind") (.str "internal")
  let row := (strField svc).bind fun service =>
    traceRow (hexid sp.traceId) (hexid sp.spanId) ((given sp.parentSpanId).map hexid)
      (relSeconds (truncate (perMillion startNs)) s.startMs) service (sp.name.getD "unknown")
      (max 0 (perMillion (endNs - startNs))) (statusOf (sp.statusCode.getD .null))
      [("span.kind", kind)]
  match row with
  | some row => .ok row
  | none => .error ⟨"ValidationError", "", false⟩

/-- `_parse_trace`. -/
def LgtmStore.parseTrace (s : LgtmStore) (doc : List ResourceSpans) : Py (List TraceRow) := do
  let rows ← doc.mapM fun batch => batch.scopeSpans.flatten.mapM (parseSpan s (serviceOf batch.resource))
  pure rows.flatten

/-- The spans of a document, each with its resource. -/
def spansOf (doc : List ResourceSpans) : List (List Attribute × OtlpSpan) :=
  doc.flatMap fun batch => batch.scopeSpans.flatten.map fun sp => (batch.resource, sp)

theorem parseTrace_eq {s : LgtmStore} {doc : List ResourceSpans}
    (each : ∀ p ∈ spansOf doc, Returns (parseSpan s (serviceOf p.1) p.2)) :
    s.parseTrace doc =
      .ok ((spansOf doc).filterMap fun p => (parseSpan s (serviceOf p.1) p.2).toOption) := by
  have batches : ∀ batch ∈ doc,
      batch.scopeSpans.flatten.mapM (parseSpan s (serviceOf batch.resource)) =
        .ok (batch.scopeSpans.flatten.filterMap fun sp =>
          (parseSpan s (serviceOf batch.resource) sp).toOption) := by
    intro batch member
    refine mapM_eq_filterMap fun sp inBatch => each (batch.resource, sp) ?_
    exact List.mem_flatMap.mpr ⟨batch, member, List.mem_map_of_mem inBatch⟩
  rw [LgtmStore.parseTrace, mapM_eq_map batches, spansOf, List.filterMap_flatMap]
  simp only [List.filterMap_map, Function.comp_def, List.flatMap_def]
  rfl

/-- `int(start_ns / 1e6)` for a start at so many milliseconds. -/
def readMs (ms : ℤ) : ℤ := truncate (perMillion (ms * 10 ^ 6))

/-- The start is rounded down by half a place of its nanoseconds, and that is more than
half a place of its milliseconds. -/
def ReadEarly (ms : ℤ) : Prop :=
  2 ^ 59 ≤ ms * 10 ^ 6 ∧ ms < 2 ^ 40 ∧ ms % 4 = 1 ∨ 2 ^ 60 ≤ ms * 10 ^ 6 ∧ ms % 8 = 2

instance (ms : ℤ) : Decidable (ReadEarly ms) := inferInstanceAs (Decidable (_ ∨ _))

/-- Starts below 2^59 nanoseconds are floats. -/
theorem readMs_exact {m : ℤ} (lower : -2 ^ 59 < m * 10 ^ 6) (upper : m * 10 ^ 6 < 2 ^ 59) :
    readMs m = m := by
  have start : rnd ((m * 10 ^ 6 : ℤ) : ℚ) = m * 10 ^ 6 := by
    have split : ((m * 10 ^ 6 : ℤ) : ℚ) = ((15625 * m : ℤ) : ℚ) * 2 ^ 6 := by
      push_cast
      ring
    rw [split, rnd_eq_self (abs_lt.mpr ⟨by omega, by omega⟩)]
    push_cast
    ring
  have whole : rnd (m : ℚ) = m := by
    have exact := rnd_eq_self (a := m) (k := 0) (abs_lt.mpr ⟨by omega, by omega⟩)
    simpa using exact
  rw [readMs, perMillion, start, mul_div_cancel_right₀ _ (by norm_num), whole, truncate_intCast]

/-- Starts between 2^59 and 2^60 nanoseconds become multiples of 128. -/
theorem rnd_startNs_before {m : ℤ} (lower : 2 ^ 59 ≤ m * 10 ^ 6) (upper : m * 10 ^ 6 < 2 ^ 60) :
    rnd ((m * 10 ^ 6 : ℤ) : ℚ) =
      (m * 10 ^ 6 + (if m % 4 = 1 then -64 else if m % 4 = 3 then 64 else 0) : ℤ) := by
  have rounded : rnd ((m * 10 ^ 6 : ℤ) : ℚ) =
      roundEven (((m * 10 ^ 6 : ℤ) : ℚ) / 2 ^ (7 : ℤ)) * 2 ^ (7 : ℤ) := by
    refine rnd_of_bounds (e := 59) ?_ ?_
    · exact_mod_cast lower
    · exact_mod_cast upper
  obtain ⟨k, j, split, low, high⟩ : ∃ k j : ℤ, m = 4 * k + j ∧ 0 ≤ j ∧ j < 4 :=
    ⟨m / 4, m % 4, by omega, by omega, by omega⟩
  have scaled : ((m * 10 ^ 6 : ℤ) : ℚ) / 2 ^ (7 : ℤ) = (31250 * k : ℤ) + 15625 * j / 2 := by
    rw [split]
    push_cast
    ring
  have residue : m % 4 = j := by omega
  rw [rounded, scaled, roundEven_add (by omega), residue, split]
  obtain rfl | rfl | rfl | rfl : j = 0 ∨ j = 1 ∨ j = 2 ∨ j = 3 := by omega
  all_goals
    norm_num [roundEven]
    ring

/-- Starts between 2^60 and 2^61 nanoseconds become multiples of 256. -/
theorem rnd_startNs {m : ℤ} (lower : 2 ^ 60 ≤ m * 10 ^ 6) (upper : m < 2 ^ 41) :
    ∃ d : ℤ, rnd ((m * 10 ^ 6 : ℤ) : ℚ) = (m * 10 ^ 6 + d : ℤ) ∧
      if m % 8 = 2 then d = -128 else -64 ≤ d ∧ d ≤ 64 ∨ d = 128 := by
  have rounded : rnd ((m * 10 ^ 6 : ℤ) : ℚ) =
      roundEven (((m * 10 ^ 6 : ℤ) : ℚ) / 2 ^ (8 : ℤ)) * 2 ^ (8 : ℤ) := by
    refine rnd_of_bounds (e := 60) ?_ ?_
    · exact_mod_cast lower
    · have : m * 10 ^ 6 < 2 ^ 61 := by omega
      exact_mod_cast this
  obtain ⟨k, j, split, low, high⟩ : ∃ k j : ℤ, m = 8 * k + j ∧ 0 ≤ j ∧ j < 8 :=
    ⟨m / 8, m % 8, by omega, by omega, by omega⟩
  have scaled : ((m * 10 ^ 6 : ℤ) : ℚ) / 2 ^ (8 : ℤ) = (31250 * k : ℤ) + 15625 * j / 4 := by
    rw [split]
    push_cast
    ring
  rw [scaled, roundEven_add (by omega)] at rounded
  refine ⟨256 * roundEven (15625 * j / 4) - 10 ^ 6 * j, ?_, ?_⟩
  · rw [rounded, split]
    push_cast
    ring
  · have residue : m % 8 = j := by omega
    rw [residue]
    obtain rfl | rfl | rfl | rfl | rfl | rfl | rfl | rfl : j = 0 ∨ j = 1 ∨ j = 2 ∨ j = 3 ∨ j = 4 ∨
        j = 5 ∨ j = 6 ∨ j = 7 := by omega
    all_goals norm_num [roundEven]

/-- The second rounding is to a multiple of 2^-k ms. -/
theorem readMs_near {m d n : ℤ} {k : ℕ} (rounded : rnd ((m * 10 ^ 6 : ℤ) : ℚ) = (m * 10 ^ 6 + d : ℤ))
    (places : k ≠ 0) (small : d ≤ 128) (lower : 2 ^ (52 - k : ℤ) ≤ (m + d / 10 ^ 6 : ℚ))
    (upper : (m + 1 : ℚ) ≤ 2 ^ (53 - k : ℤ)) (nearby : roundEven (2 ^ k * (d / 10 ^ 6)) = n)
    (unit : |n| ≤ 1) (positive : 0 < m) : readMs m = if n = -1 then m - 1 else m := by
  have most : (d : ℚ) ≤ 128 := by exact_mod_cast small
  have inside : ((m * 10 ^ 6 + d : ℤ) : ℚ) / 10 ^ 6 = m + d / 10 ^ 6 := by
    push_cast
    ring
  have place : (0 : ℚ) < 1 / 2 ^ k ∧ (1 / 2 ^ k : ℚ) < 1 :=
    ⟨by positivity, (div_lt_one (by positivity)).mpr (one_lt_pow₀ one_lt_two places)⟩
  rw [readMs, perMillion, rounded, inside,
    rnd_add_int places lower (lt_of_lt_of_le (by linarith) upper), nearby]
  obtain ⟨low, high⟩ := abs_le.mp unit
  obtain rfl | rfl | rfl : n = -1 ∨ n = 0 ∨ n = 1 := by omega
  · rw [if_pos rfl]
    refine truncate_of_bounds (by omega) ?_ ?_ <;>
    · push_cast
      rw [neg_div]
      linarith
  · rw [if_neg (by decide)]
    refine truncate_of_bounds (by omega) ?_ ?_ <;> simp
  · rw [if_neg (by decide)]
    refine truncate_of_bounds (by omega) ?_ ?_ <;>
    · push_cast
      linarith

theorem roundEven_near_zero {k : ℕ} {d : ℤ} (near : 2 ^ k * |d| < 500000) :
    roundEven (2 ^ k * (d / 10 ^ 6)) = 0 := by
  have near' : (2 : ℚ) ^ k * |(d : ℚ)| < 500000 := by exact_mod_cast near
  refine roundEven_of_near ?_
  rw [Int.cast_zero, sub_zero, abs_mul, abs_div, abs_of_pos (by positivity : (0 : ℚ) < 2 ^ k),
    abs_of_pos (by norm_num : (0 : ℚ) < 10 ^ 6)]
  linarith

/-- What is read back is the start, or a millisecond less. -/
theorem readMs_eq {m : ℤ} (lower : -2 ^ 59 < m * 10 ^ 6) (upper : m < 2 ^ 41) :
    readMs m = if ReadEarly m then m - 1 else m := by
  rcases lt_or_ge (m * 10 ^ 6) (2 ^ 59) with early | later
  · rw [readMs_exact lower early, if_neg (by unfold ReadEarly; omega)]
  rcases lt_or_ge (m * 10 ^ 6) (2 ^ 60) with before | after
  · have rounded := rnd_startNs_before later before
    generalize offset : (if m % 4 = 1 then -64 else if m % 4 = 3 then 64 else 0 : ℤ) = d at rounded
    have small : -64 ≤ d ∧ d ≤ 64 := by split_ifs at offset <;> omega
    have small' : (-64 : ℚ) ≤ d := by exact_mod_cast small.1
    rcases lt_or_ge m (2 ^ 40) with low | high
    · have least : (576460752304 : ℚ) ≤ m := by exact_mod_cast (by omega : 576460752304 ≤ m)
      have most : (m + 1 : ℚ) ≤ 2 ^ (40 : ℤ) := by exact_mod_cast (by omega : m + 1 ≤ 2 ^ 40)
      have nearby : roundEven (2 ^ 13 * (d / 10 ^ 6)) =
          if m % 4 = 1 then -1 else if m % 4 = 3 then 1 else 0 := by
        rw [← offset]
        split_ifs <;> norm_num [roundEven]
      rw [readMs_near rounded (by decide) (by omega) (by norm_num; linarith) (by simpa using most)
        nearby (by split_ifs <;> decide) (by omega)]
      congr 1
      rw [ReadEarly, eq_iff_iff]
      constructor <;> intro test <;> split_ifs at test ⊢ <;> omega
    · have least : (2 ^ 40 : ℚ) ≤ m + d / 10 ^ 6 := by
        rcases eq_or_lt_of_le high with rfl | above
        · norm_num at offset
          rw [← offset]
          norm_num
        · have above' : (2 ^ 40 + 1 : ℚ) ≤ m := by exact_mod_cast (by omega : 2 ^ 40 + 1 ≤ m)
          linarith
      have most : (m + 1 : ℚ) ≤ 2 ^ (41 : ℤ) := by exact_mod_cast (by omega : m + 1 ≤ 2 ^ 41)
      have nearby := roundEven_near_zero (k := 12) (d := d) (by
        have := abs_le.mpr small
        omega)
      rw [readMs_near rounded (by decide) (by omega) (by simpa using least) (by simpa using most)
        nearby (by decide) (by omega), if_neg (by decide), if_neg (by unfold ReadEarly; omega)]
  · obtain ⟨d, rounded, offset⟩ := rnd_startNs after upper
    have least : (1152921504607 : ℚ) ≤ m := by exact_mod_cast (by omega : 1152921504607 ≤ m)
    have most : (m + 1 : ℚ) ≤ 2 ^ (41 : ℤ) := by exact_mod_cast (by omega : m + 1 ≤ 2 ^ 41)
    have bounds : -128 ≤ d ∧ d ≤ 128 := by split at offset <;> omega
    have low' : (-128 : ℚ) ≤ d := by exact_mod_cast bounds.1
    have nearby : roundEven (2 ^ 12 * (d / 10 ^ 6)) = if m % 8 = 2 then -1 else if d = 128 then 1 else 0 := by
      split at offset
      · rename_i residue
        rw [if_pos residue, offset]
        norm_num [roundEven]
      · rename_i residue
        rw [if_neg residue]
        rcases offset with within | rfl
        · rw [if_neg (by omega)]
          have := abs_le.mpr within
          exact roundEven_near_zero (by omega)
        · norm_num [roundEven]
    rw [readMs_near rounded (by decide) bounds.2 (by norm_num; linarith) (by simpa using most)
      nearby (by split_ifs <;> decide) (by omega)]
    congr 1
    rw [ReadEarly, eq_iff_iff]
    constructor <;> intro test <;> split_ifs at test ⊢ <;> omega

end Sentinel.Lgtm
