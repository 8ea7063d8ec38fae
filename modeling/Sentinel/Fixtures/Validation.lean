import Sentinel.Fixtures.Dumps
import Sentinel.Python.LayoutRoundtrip

/-! `model_validate` of the fixture models on JSON values. A model is built only from
fields that pass their checks; unknown fields are refused. -/
namespace Sentinel.Fixtures
open Python Tools Tools.Validated

/-- The lax conversion of a JSON value to an `int` and to a `float` field. What is relied on
is that an int and a float are taken as they are. -/
class LaxNumbers extends LaxInt where
  parseFloat : Json → Except String ℚ
  parse_int : ∀ n, parse (.int n) = .ok n
  parse_float : ∀ x, parseFloat (.float x) = .ok x

/-- `model_type.model_validate(..)`; the text of its error is not kept. -/
def validated {α : Type} (result : Validated α) : Py α :=
  match result with
  | .ok a => .ok a
  | .error errors => .error ⟨"ValidationError", s!"{errors.length} validation errors", false⟩

/-- `str = Field(min_length=1)`. -/
def validateNamed (v : Json) : Validated { s : String // s ≠ "" } :=
  match validateStr v with
  | .ok s => if named : s ≠ "" then .ok ⟨s, named⟩ else fail "String should have at least 1 character"
  | .error errors => .error errors

/-- `list[...] = Field(min_length=1)`. -/
def validateFilled {α : Type} (validate : Json → Validated α) (v : Json) :
    Validated { items : List α // items ≠ [] } :=
  match validateList validate v with
  | .ok items =>
    if filled : items ≠ [] then .ok ⟨items, filled⟩
    else fail "List should have at least 1 item after validation, not 0"
  | .error errors => .error errors

/-- `dict[str, JsonValue]`. -/
def validateDict : Json → Validated (List (String × Json))
  | .dict entries => .ok entries
  | _ => fail "Input should be a valid dictionary"

def validateTexts : List (String × Json) → Validated (List (String × String))
  | [] => .ok []
  | (key, v) :: rest =>
    (both (within key (validateStr v)) (validateTexts rest)).map fun p => (key, p.1) :: p.2

/-- `dict[str, str]`. -/
def validateTextDict : Json → Validated (List (String × String))
  | .dict entries => validateTexts entries
  | _ => fail "Input should be a valid dictionary"

def Severity.validate : Json → Validated Severity
  | .str "warning" => .ok .warning
  | .str "critical" => .ok .critical
  | _ => fail "Input should be 'warning' or 'critical'"

section
variable [LaxNumbers]

/-- `int = Field(ge=0)`. -/
def validateNonneg (v : Json) : Validated { n : ℤ // 0 ≤ n } :=
  match validateInt v with
  | .ok n => if nonneg : 0 ≤ n then .ok ⟨n, nonneg⟩ else fail "Input should be greater than or equal to 0"
  | .error errors => .error errors

/-- `int = Field(gt=0)`. -/
def validatePositive (v : Json) : Validated { n : ℤ // 0 < n } :=
  match validateInt v with
  | .ok n => if positive : 0 < n then .ok ⟨n, positive⟩ else fail "Input should be greater than 0"
  | .error errors => .error errors

def validateFloat (v : Json) : Validated ℚ :=
  match LaxNumbers.parseFloat v with
  | .ok x => .ok x
  | .error msg => fail msg

/-- `float = Field(ge=0)`. -/
def validateNonnegFloat (v : Json) : Validated { x : ℚ // 0 ≤ x } :=
  match validateFloat v with
  | .ok x => if nonneg : 0 ≤ x then .ok ⟨x, nonneg⟩ else fail "Input should be greater than or equal to 0"
  | .error errors => .error errors

def TimeWindow.validate (v : Json) : Validated TimeWindow :=
  if v.isDict then
    match both (required "start" validateNonneg v)
        (both (required "end" validatePositive v) (refuseExtra ["start", "end"] v)) with
    | .ok (start, stop, _) =>
      if follows : start.1 < stop.1 then .ok ⟨start.1, stop.1, start.2, follows⟩
      else fail "Value error, window.end must be greater than window.start"
    | .error errors => .error errors
  else fail "Input should be a valid dictionary or instance of TimeWindow"

def DerivedAlert.validate (v : Json) : Validated DerivedAlert :=
  if v.isDict then
    (both (required "alertname" validateNamed v)
      (both (required "severity" Severity.validate v)
        (both (required "starts_at_second" validateNonneg v)
          (both (defaulted "labels" validateTextDict [] v)
            (both (defaulted "annotations" validateTextDict [] v)
              (both (required "value" validateFloat v)
                (both (required "expr" validateNamed v)
                  (both (required "fingerprint" validateNamed v)
                    (refuseExtra ["alertname", "severity", "starts_at_second", "labels",
                      "annotations", "value", "expr", "fingerprint"] v))))))))).map
      fun (alertname, severity, startsAtSecond, labels, annotations, value, expr, fingerprint, _) =>
        { alertname := alertname.1, severity, startsAtSecond := startsAtSecond.1, labels
          annotations, value, expr := expr.1, fingerprint := fingerprint.1
          named := ⟨alertname.2, expr.2, fingerprint.2⟩, nonneg := startsAtSecond.2 }
  else fail "Input should be a valid dictionary or instance of DerivedAlert"

def PublicManifest.validate (v : Json) : Validated PublicManifest :=
  if v.isDict then
    (both (required "scenario_id" validateNamed v)
      (both (required "source" validateNamed v)
        (both (required "time_unit" validateNamed v)
          (both (required "window" TimeWindow.validate v)
            (both (required "symptom" validateNamed v)
              (both (required "available_signals" (validateFilled validateStr) v)
                (both (defaulted "notes" (validateList validateStr) [] v)
                  (both (required "alerts" (validateFilled DerivedAlert.validate) v)
                    (refuseExtra ["scenario_id", "source", "time_unit", "window", "symptom",
                      "available_signals", "notes", "alerts"] v))))))))).map
      fun (scenarioId, source, timeUnit, window, symptom, availableSignals, notes, alerts, _) =>
        { scenarioId := scenarioId.1, source := source.1, timeUnit := timeUnit.1, window
          symptom := symptom.1, availableSignals := availableSignals.1, notes, alerts := alerts.1
          named := ⟨scenarioId.2, source.2, timeUnit.2, symptom.2⟩
          signals := availableSignals.2, firing := alerts.2 }
  else fail "Input should be a valid dictionary or instance of PublicManifest"

def MetricRow.validate (v : Json) : Validated MetricRow :=
  if v.isDict then
    (both (defaulted "attributes" validateDict [] v)
      (both (required "time" validateNonneg v)
        (both (required "service" validateNamed v)
          (both (required "metric" validateNamed v)
            (both (required "value" validateFloat v)
              (both (required "unit" validateNamed v)
                (refuseExtra ["attributes", "time", "service", "metric", "value", "unit"] v))))))).map
      fun (attributes, time, service, metric, value, unit, _) =>
        { time := time.1, service := service.1, metric := metric.1, value, unit := unit.1, attributes
          named := ⟨service.2, metric.2, unit.2⟩, nonneg := time.2 }
  else fail "Input should be a valid dictionary or instance of MetricRow"

def LogRow.validate (v : Json) : Validated LogRow :=
  if v.isDict then
    (both (defaulted "attributes" validateDict [] v)
      (both (required "time" validateNonneg v)
        (both (required "service" validateNamed v)
          (both (required "severity" validateNamed v)
            (both (required "message" validateNamed v)
              (both (defaulted "trace_id" validateOptionalStr none v)
                (refuseExtra ["attributes", "time", "service", "severity", "message", "trace_id"] v))))))).map
      fun (attributes, time, service, severity, message, traceId, _) =>
        { time := time.1, service := service.1, severity := severity.1, message := message.1, traceId
          attributes, named := ⟨service.2, severity.2, message.2⟩, nonneg := time.2 }
  else fail "Input should be a valid dictionary or instance of LogRow"

def TraceRow.validate (v : Json) : Validated TraceRow :=
  if v.isDict then
    (both (defaulted "attributes" validateDict [] v)
      (both (required "trace_id" validateNamed v)
        (both (required "span_id" validateNamed v)
          (both (defaulted "parent_span_id" validateOptionalStr none v)
            (both (required "time" validateNonneg v)
              (both (required "service" validateNamed v)
                (both (required "operation" validateNamed v)
                  (both (required "duration_ms" validateNonnegFloat v)
                    (both (required "status" validateNamed v)
                      (refuseExtra ["attributes", "trace_id", "span_id", "parent_span_id", "time",
                        "service", "operation", "duration_ms", "status"] v)))))))))).map
      fun (attributes, traceId, spanId, parentSpanId, time, service, operation, durationMs, status, _) =>
        { traceId := traceId.1, spanId := spanId.1, parentSpanId, time := time.1
          service := service.1, operation := operation.1, durationMs := durationMs.1
          status := status.1, attributes
          named := ⟨traceId.2, spanId.2, service.2, operation.2, status.2⟩
          nonneg := ⟨time.2, durationMs.2⟩ }
  else fail "Input should be a valid dictionary or instance of TraceRow"

def ChangeEvent.validate (v : Json) : Validated ChangeEvent :=
  if v.isDict then
    (both (required "id" validateNamed v)
      (both (required "time" validateNonneg v)
        (both (required "service" validateNamed v)
          (both (required "kind" validateNamed v)
            (both (required "summary" validateNamed v)
              (both (defaulted "diff_touches" (validateList validateStr) [] v)
                (refuseExtra ["id", "time", "service", "kind", "summary", "diff_touches"] v))))))).map
      fun (id, time, service, kind, summary, diffTouches, _) =>
        { id := id.1, time := time.1, service := service.1, kind := kind.1, summary := summary.1
          diffTouches, named := ⟨id.2, service.2, kind.2, summary.2⟩, nonneg := time.2 }
  else fail "Input should be a valid dictionary or instance of ChangeEvent"

end

/-! ### What a model dumps is valid, with its keys sorted -/

/-- The attributes in the order of their keys. -/
def sortedDict (entries : List (String × Json)) : List (String × Json) :=
  sortEntries (sortValues entries)

def MetricRow.sorted (row : MetricRow) : MetricRow := { row with attributes := sortedDict row.attributes }

def LogRow.sorted (row : LogRow) : LogRow := { row with attributes := sortedDict row.attributes }

def TraceRow.sorted (row : TraceRow) : TraceRow := { row with attributes := sortedDict row.attributes }

def DerivedAlert.sorted (alert : DerivedAlert) : DerivedAlert :=
  { alert with labels := sortEntries alert.labels, annotations := sortEntries alert.annotations }

def PublicManifest.sorted (manifest : PublicManifest) : PublicManifest :=
  { manifest with
    alerts := manifest.alerts.map DerivedAlert.sorted
    firing := fun none => manifest.firing (List.map_eq_nil_iff.mp none) }

section Fields
variable {entries : List (String × Json)} {field : String} {w : Json}

theorem required_sorted {α : Type} {validate : Json → Validated α} {a : α}
    (unique : (entries.map Prod.fst).Nodup) (here : entries.lookup field = some w)
    (valid : validate (sortKeys w) = .ok a) :
    required field validate (sortKeys (.dict entries)) = .ok a :=
  required_ok.mpr ⟨sortKeys w, by rw [lookup_sortKeys unique, here, Option.map_some], valid⟩

theorem defaulted_sorted {α : Type} {validate : Json → Validated α} {default a : α}
    (unique : (entries.map Prod.fst).Nodup) (here : entries.lookup field = some w)
    (valid : validate (sortKeys w) = .ok a) :
    defaulted field validate default (sortKeys (.dict entries)) = .ok a :=
  defaulted_ok.mpr (.inr ⟨sortKeys w, by rw [lookup_sortKeys unique, here, Option.map_some], valid⟩)

theorem refuseExtra_sorted {fields : List String} (known : ∀ key ∈ entries.map Prod.fst, key ∈ fields) :
    refuseExtra fields (sortKeys (.dict entries)) = .ok () := by
  have all : ∀ entry ∈ sortEntries (sortValues entries), entry.1 ∈ fields := fun entry member =>
    known _ ((keys_sortEntries entries).mem_iff.mp (List.mem_map_of_mem member))
  have none : (sortEntries (sortValues entries)).filter (fun entry => !(fields.contains entry.1)) = [] := by
    rw [List.filter_eq_nil_iff]
    intro entry member
    simpa using all entry member
  change (sortKeys (.dict entries)).entries.filter (fun entry => !(fields.contains entry.1)) = [] at none
  rw [refuseExtra, none]

theorem validateNamed_str {s : String} (named : s ≠ "") : validateNamed (.str s) = .ok ⟨s, named⟩ :=
  dif_pos named

theorem validateOptionalStr_dump (s : Option String) :
    validateOptionalStr (sortKeys (textOrNull s)) = .ok s := by
  cases s <;> rfl

theorem sortItems_eq_map (items : List Json) : sortItems items = items.map sortKeys := by
  induction items with
  | nil => rfl
  | cons v rest ih => rw [sortItems, ih, List.map_cons]

theorem validateList_dump {α : Type} {validate : Json → Validated α} {dump : α → Json} {f : α → α}
    {as : List α} (each : ∀ a ∈ as, validate (sortKeys (dump a)) = .ok (f a)) :
    validateList validate (sortKeys (.list (as.map dump))) = .ok (as.map f) := by
  rw [sortKeys, sortItems_eq_map, List.map_map, validateList, validateItems_ok,
    List.forall₂_map_left_iff, List.forall₂_map_right_iff, List.forall₂_same]
  exact each

theorem validateStrs_dump (items : List String) :
    validateList validateStr (sortKeys (texts items)) = .ok items := by
  have valid : validateList validateStr (sortKeys (texts items)) = .ok (items.map id) :=
    validateList_dump fun _ _ => rfl
  rwa [List.map_id] at valid

theorem validateFilled_ok {α : Type} {validate : Json → Validated α} {v : Json} {as : List α}
    (valid : validateList validate v = .ok as) (filled : as ≠ []) :
    validateFilled validate v = .ok ⟨as, filled⟩ := by
  rw [validateFilled, valid]
  exact dif_pos filled

theorem validateTexts_map (entries : List (String × String)) :
    validateTexts (entries.map fun entry => (entry.1, .str entry.2)) = .ok entries := by
  induction entries with
  | nil => rfl
  | cons entry rest ih => rw [List.map_cons, validateTexts, ih]; rfl

theorem validateTextDict_dump (entries : List (String × String)) :
    validateTextDict (sortKeys (textDict entries)) = .ok (sortEntries entries) := by
  have values : sortValues (entries.map fun entry => (entry.1, Json.str entry.2)) =
      entries.map fun entry => (entry.1, .str entry.2) := by
    rw [sortValues_eq_map, List.map_map]
    rfl
  have commute : sortEntries (entries.map fun entry => (entry.1, Json.str entry.2)) =
      (sortEntries entries).map fun entry => (entry.1, .str entry.2) := by
    unfold sortEntries
    exact (List.map_insertionSort (fun a b => a.1 ≤ b.1) (fun a b => a.1 ≤ b.1)
      (fun entry => (entry.1, Json.str entry.2)) entries fun _ _ _ _ => Iff.rfl).symm
  rw [textDict, sortKeys, values, commute]
  exact validateTexts_map _

theorem Severity.validate_value (severity : Severity) :
    Severity.validate (sortKeys (.str severity.value)) = .ok severity := by
  cases severity <;> rfl

end Fields

section Dumped
variable [LaxNumbers]

theorem validateNonneg_int {n : ℤ} (nonneg : 0 ≤ n) : validateNonneg (.int n) = .ok ⟨n, nonneg⟩ := by
  rw [validateNonneg, validateInt, LaxNumbers.parse_int]
  exact dif_pos nonneg

theorem validatePositive_int {n : ℤ} (positive : 0 < n) :
    validatePositive (.int n) = .ok ⟨n, positive⟩ := by
  rw [validatePositive, validateInt, LaxNumbers.parse_int]
  exact dif_pos positive

theorem validateFloat_float (x : ℚ) : validateFloat (.float x) = .ok x := by
  rw [validateFloat, LaxNumbers.parse_float]

theorem validateNonnegFloat_float {x : ℚ} (nonneg : 0 ≤ x) :
    validateNonnegFloat (.float x) = .ok ⟨x, nonneg⟩ := by
  rw [validateNonnegFloat, validateFloat_float]
  exact dif_pos nonneg

theorem MetricRow.validate_dump (row : MetricRow) :
    MetricRow.validate (sortKeys row.modelDump) = .ok row.sorted := by
  have unique : List.Nodup ["attributes", "time", "service", "metric", "value", "unit"] := by decide
  refine Validated.map_ok.mpr ⟨(sortedDict row.attributes, ⟨row.time, row.nonneg⟩,
    ⟨row.service, row.named.1⟩, ⟨row.metric, row.named.2.1⟩, row.value, ⟨row.unit, row.named.2.2⟩, ()),
    ?_, rfl⟩
  simp only [both_ok]
  refine ⟨defaulted_sorted unique rfl rfl, required_sorted unique rfl (validateNonneg_int row.nonneg),
    required_sorted unique rfl (validateNamed_str row.named.1),
    required_sorted unique rfl (validateNamed_str row.named.2.1),
    required_sorted unique rfl (validateFloat_float row.value),
    required_sorted unique rfl (validateNamed_str row.named.2.2), refuseExtra_sorted fun _ member => member⟩

theorem LogRow.validate_dump (row : LogRow) : LogRow.validate (sortKeys row.modelDump) = .ok row.sorted := by
  have unique : List.Nodup ["attributes", "time", "service", "severity", "message", "trace_id"] := by
    decide
  refine Validated.map_ok.mpr ⟨(sortedDict row.attributes, ⟨row.time, row.nonneg⟩,
    ⟨row.service, row.named.1⟩, ⟨row.severity, row.named.2.1⟩, ⟨row.message, row.named.2.2⟩,
    row.traceId, ()), ?_, rfl⟩
  simp only [both_ok]
  refine ⟨defaulted_sorted unique rfl rfl, required_sorted unique rfl (validateNonneg_int row.nonneg),
    required_sorted unique rfl (validateNamed_str row.named.1),
    required_sorted unique rfl (validateNamed_str row.named.2.1),
    required_sorted unique rfl (validateNamed_str row.named.2.2),
    defaulted_sorted unique rfl (validateOptionalStr_dump row.traceId), refuseExtra_sorted fun _ member => member⟩

theorem TraceRow.validate_dump (row : TraceRow) :
    TraceRow.validate (sortKeys row.modelDump) = .ok row.sorted := by
  have unique : List.Nodup ["attributes", "trace_id", "span_id", "parent_span_id", "time", "service",
    "operation", "duration_ms", "status"] := by decide
  refine Validated.map_ok.mpr ⟨(sortedDict row.attributes, ⟨row.traceId, row.named.1⟩,
    ⟨row.spanId, row.named.2.1⟩, row.parentSpanId, ⟨row.time, row.nonneg.1⟩,
    ⟨row.service, row.named.2.2.1⟩, ⟨row.operation, row.named.2.2.2.1⟩,
    ⟨row.durationMs, row.nonneg.2⟩, ⟨row.status, row.named.2.2.2.2⟩, ()), ?_, rfl⟩
  simp only [both_ok]
  refine ⟨defaulted_sorted unique rfl rfl, required_sorted unique rfl (validateNamed_str row.named.1),
    required_sorted unique rfl (validateNamed_str row.named.2.1),
    defaulted_sorted unique rfl (validateOptionalStr_dump row.parentSpanId),
    required_sorted unique rfl (validateNonneg_int row.nonneg.1),
    required_sorted unique rfl (validateNamed_str row.named.2.2.1),
    required_sorted unique rfl (validateNamed_str row.named.2.2.2.1),
    required_sorted unique rfl (validateNonnegFloat_float row.nonneg.2),
    required_sorted unique rfl (validateNamed_str row.named.2.2.2.2), refuseExtra_sorted fun _ member => member⟩

theorem ChangeEvent.validate_dump (change : ChangeEvent) :
    ChangeEvent.validate (sortKeys change.modelDump) = .ok change := by
  have unique : List.Nodup ["id", "time", "service", "kind", "summary", "diff_touches"] := by decide
  refine Validated.map_ok.mpr ⟨(⟨change.id, change.named.1⟩, ⟨change.time, change.nonneg⟩,
    ⟨change.service, change.named.2.1⟩, ⟨change.kind, change.named.2.2.1⟩,
    ⟨change.summary, change.named.2.2.2⟩, change.diffTouches, ()), ?_, rfl⟩
  simp only [both_ok]
  refine ⟨required_sorted unique rfl (validateNamed_str change.named.1),
    required_sorted unique rfl (validateNonneg_int change.nonneg),
    required_sorted unique rfl (validateNamed_str change.named.2.1),
    required_sorted unique rfl (validateNamed_str change.named.2.2.1),
    required_sorted unique rfl (validateNamed_str change.named.2.2.2),
    defaulted_sorted unique rfl (validateStrs_dump change.diffTouches), refuseExtra_sorted fun _ member => member⟩

theorem TimeWindow.validate_dump (window : TimeWindow) :
    TimeWindow.validate (sortKeys window.modelDump) = .ok window := by
  have unique : List.Nodup ["start", "end"] := by decide
  have positive : 0 < window.stop := window.nonneg.trans_lt window.follows
  have fields : both (required "start" validateNonneg (sortKeys window.modelDump))
      (both (required "end" validatePositive (sortKeys window.modelDump))
        (refuseExtra ["start", "end"] (sortKeys window.modelDump))) =
      .ok (⟨window.start, window.nonneg⟩, ⟨window.stop, positive⟩, ()) := by
    simp only [both_ok]
    exact ⟨required_sorted unique rfl (validateNonneg_int window.nonneg),
      required_sorted unique rfl (validatePositive_int positive), refuseExtra_sorted fun _ member => member⟩
  rw [TimeWindow.validate, fields]
  exact (if_pos rfl).trans (dif_pos window.follows)

theorem DerivedAlert.validate_dump (alert : DerivedAlert) :
    DerivedAlert.validate (sortKeys alert.modelDump) = .ok alert.sorted := by
  have unique : List.Nodup ["alertname", "severity", "starts_at_second", "labels", "annotations",
    "value", "expr", "fingerprint"] := by decide
  refine Validated.map_ok.mpr ⟨(⟨alert.alertname, alert.named.1⟩, alert.severity,
    ⟨alert.startsAtSecond, alert.nonneg⟩, sortEntries alert.labels, sortEntries alert.annotations,
    alert.value, ⟨alert.expr, alert.named.2.1⟩, ⟨alert.fingerprint, alert.named.2.2⟩, ()), ?_, rfl⟩
  simp only [both_ok]
  refine ⟨required_sorted unique rfl (validateNamed_str alert.named.1),
    required_sorted unique rfl (Severity.validate_value alert.severity),
    required_sorted unique rfl (validateNonneg_int alert.nonneg),
    defaulted_sorted unique rfl (validateTextDict_dump alert.labels),
    defaulted_sorted unique rfl (validateTextDict_dump alert.annotations),
    required_sorted unique rfl (validateFloat_float alert.value),
    required_sorted unique rfl (validateNamed_str alert.named.2.1),
    required_sorted unique rfl (validateNamed_str alert.named.2.2), refuseExtra_sorted fun _ member => member⟩

theorem PublicManifest.validate_dump (manifest : PublicManifest) :
    PublicManifest.validate (sortKeys manifest.modelDump) = .ok manifest.sorted := by
  have unique : List.Nodup ["scenario_id", "source", "time_unit", "window", "symptom",
    "available_signals", "notes", "alerts"] := by decide
  have firing : manifest.alerts.map DerivedAlert.sorted ≠ [] := manifest.sorted.firing
  refine Validated.map_ok.mpr ⟨(⟨manifest.scenarioId, manifest.named.1⟩,
    ⟨manifest.source, manifest.named.2.1⟩, ⟨manifest.timeUnit, manifest.named.2.2.1⟩, manifest.window,
    ⟨manifest.symptom, manifest.named.2.2.2⟩, ⟨manifest.availableSignals, manifest.signals⟩,
    manifest.notes, ⟨manifest.alerts.map DerivedAlert.sorted, firing⟩, ()), ?_, rfl⟩
  simp only [both_ok]
  refine ⟨required_sorted unique rfl (validateNamed_str manifest.named.1),
    required_sorted unique rfl (validateNamed_str manifest.named.2.1),
    required_sorted unique rfl (validateNamed_str manifest.named.2.2.1),
    required_sorted unique rfl manifest.window.validate_dump,
    required_sorted unique rfl (validateNamed_str manifest.named.2.2.2),
    required_sorted unique rfl (validateFilled_ok (validateStrs_dump _) manifest.signals),
    defaulted_sorted unique rfl (validateStrs_dump manifest.notes),
    required_sorted unique rfl (validateFilled_ok (validateList_dump fun alert _ => alert.validate_dump) firing),
    refuseExtra_sorted fun _ member => member⟩

end Dumped

/-- Numbers that are taken as they are, and no other values. -/
@[reducible] def plainNumbers : LaxNumbers where
  parse
    | .int n => .ok n
    | _ => .error "Input should be a valid integer"
  parseFloat
    | .float x => .ok x
    | _ => .error "Input should be a valid number"
  parse_int _ := rfl
  parse_float _ := rfl

end Sentinel.Fixtures
