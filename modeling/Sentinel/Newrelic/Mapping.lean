import Mathlib.Algebra.Order.Ring.Int
import Sentinel.Fixtures.Schemas
import Sentinel.Python.Rounding
import Sentinel.Python.Values

/-! Mapping of NRQL result rows into fixture rows. A row that cannot be typed maps to
none; an integer that no float holds raises. -/
namespace Sentinel.Newrelic
open Python Fixtures

/-- What `int(text)` and `float(text)` read, where they do not raise. -/
class NumberText where
  int : String → Option ℤ
  float : String → Option ℚ

/-- `int(v)`. -/
def intOf [NumberText] : Json → Option ℤ
  | .int n => some n
  | .bool b => some (if b then 1 else 0)
  | .float x => some (x.num.tdiv x.den)
  | .str s => NumberText.int s
  | .null | .list _ | .dict _ => none

/-- `float(v)`, none where it raises `ValueError` or `TypeError`. -/
def floatOf [NumberText] : Json → Py (Option ℚ)
  | .int n => some <$> toFloat n
  | .bool b => pure (some (if b then 1 else 0))
  | .float x => pure (some x)
  | .str s => pure (NumberText.float s)
  | .null | .list _ | .dict _ => pure none

/-- A row of an NRQL result. -/
abbrev Entry := Dict String Json

def spanAttrKeys : List String := ["span.kind", "rpc.method", "rpc.service"]

/-- `d.get(key) or default`. -/
def getOr (d : Entry) (key : String) (default : Json) : Json :=
  let v := (d.get? key).getD .null
  if v.truthy then v else default

def relSeconds (tsMs : ℤ) (windowStartMs : ℤ) : ℤ := max 0 ((tsMs - windowStartMs) / 1000)

/-- A `str` field. -/
def strField : Json → Option String
  | .str s => some s
  | _ => none

/-- A `str | None` field. -/
def optionalField : Json → Option (Option String)
  | .null => some none
  | .str s => some (some s)
  | _ => none

/-- The model's checks on the converted fields. -/
def traceRow (traceId spanId : String) (parentSpanId : Option String) (time : ℤ)
    (service operation : String) (durationMs : ℚ) (status : String)
    (attributes : List (String × Json)) : Option TraceRow :=
  if named : traceId ≠ "" ∧ spanId ≠ "" ∧ service ≠ "" ∧ operation ≠ "" ∧ status ≠ "" then
    if nonneg : 0 ≤ time ∧ 0 ≤ durationMs then
      some { traceId, spanId, parentSpanId, time, service, operation, durationMs, status,
             attributes, named, nonneg }
    else none
  else none

/-- The row of an entry whose numbers are converted, if its texts are texts. -/
def typedTraceRow (d : Entry) (time : ℤ) (durationMs : ℚ) : Option TraceRow := do
  let attributes := spanAttrKeys.filterMap fun k =>
    match d.get? k with
    | none | some .null => none
    | some v => some (k, v)
  let status := if ((d.get? "otel.status_code").getD .null).pyEq (.str "ERROR") then "ERROR" else "OK"
  let traceId ← strField (getOr d "trace.id" (.str ""))
  let spanId ← strField (getOr d "id" (.str ""))
  let parentSpanId ← optionalField (getOr d "parent.id" .null)
  let service ← strField (getOr d "service.name" (.str ""))
  let operation ← strField (getOr d "name" (.str ""))
  traceRow traceId spanId parentSpanId time service operation durationMs status attributes

/-- A duration that is an integer is one that a float holds. -/
def InRange (d : Entry) : Prop :=
  ∀ n, d.get? "duration.ms" = some (.int n) → |n| < 2 ^ 1024 - 2 ^ 970

section
variable [NumberText]

def toTraceRow (d : Entry) (windowStartMs : ℤ) : Py (Option TraceRow) := do
  let some ts := intOf ((d.get? "timestamp").getD (.int windowStartMs)) | pure none
  let some durationMs ← floatOf (getOr d "duration.ms" (.float 0)) | pure none
  pure (typedTraceRow d (relSeconds ts windowStartMs) durationMs)

/-- The rows of the entries that map to one. -/
def toTraceRows (entries : List Entry) (windowStartMs : ℤ) : Py (List TraceRow) := do
  let rows ← entries.mapM fun d => toTraceRow d windowStartMs
  pure (rows.filterMap id)

theorem floatOf_returns {d : Entry} (inRange : InRange d) :
    Returns (floatOf (getOr d "duration.ms" (.float 0))) := by
  cases found : d.get? "duration.ms" with
  | none => exact ⟨some 0, by simp [getOr, found, Json.truthy, floatOf, pure, Except.pure]⟩
  | some v =>
    simp only [getOr, found, Option.getD_some]
    split
    · cases v with
      | int n => exact ⟨some (rnd n), by rw [floatOf, toFloat, if_neg (not_le.mpr (inRange n found))]; rfl⟩
      | _ => exact ⟨_, rfl⟩
    · exact ⟨_, rfl⟩

theorem toTraceRow_returns {d : Entry} (inRange : InRange d) (windowStartMs : ℤ) :
    Returns (toTraceRow d windowStartMs) := by
  obtain ⟨duration, converted⟩ := floatOf_returns inRange
  unfold toTraceRow
  split
  · rw [converted]
    cases duration <;> exact ⟨_, rfl⟩
  · exact ⟨none, rfl⟩

/-- The row that an entry maps to, if it maps to one. -/
def rowOf (windowStartMs : ℤ) (d : Entry) : Option TraceRow :=
  (toTraceRow d windowStartMs).toOption.join

theorem rowOf_eq_some {d : Entry} {windowStartMs : ℤ} {row : TraceRow} :
    rowOf windowStartMs d = some row ↔ toTraceRow d windowStartMs = .ok (some row) := by
  unfold rowOf
  cases toTraceRow d windowStartMs <;> simp [Except.toOption]

theorem toTraceRows_eq {entries : List Entry} {windowStartMs : ℤ}
    (each : ∀ d ∈ entries, Returns (toTraceRow d windowStartMs)) :
    toTraceRows entries windowStartMs = .ok (entries.filterMap (rowOf windowStartMs)) := by
  rw [toTraceRows, mapM_eq_filterMap each]
  refine congrArg Except.ok ?_
  rw [List.filterMap_filterMap]
  refine List.filterMap_congr fun d _ => ?_
  rw [rowOf]
  cases (toTraceRow d windowStartMs).toOption <;> rfl

theorem rows_of_toTraceRows {entries : List Entry} {windowStartMs : ℤ} {rows : List TraceRow}
    (mapped : toTraceRows entries windowStartMs = .ok rows) :
    rows = entries.filterMap (rowOf windowStartMs) := by
  obtain ⟨found, returned, -⟩ := bind_ok_iff.mp mapped
  rw [toTraceRows_eq (mapM_returns_iff.mp ⟨found, returned⟩)] at mapped
  exact (Except.ok.inj mapped).symm

end

end Sentinel.Newrelic
