import Sentinel.Labs.Otel.Redactor
import Sentinel.Python.FloatText
import Sentinel.Python.JsonProofs
import Sentinel.Sequences.Selection
import Sentinel.Tools.Attribution

/-! Normalization of Jaeger traces into span rows. A trace is an object of any JSON values;
the tables of Unicode and `str(v)` of a list or dict are parameters. -/
namespace Sentinel.Labs.Otel
open Python Tools Sequences

/-- `str(v)` of a list or dict. -/
class ContainerText where
  text : Json → String
  text_ne_empty : ∀ v, text v ≠ ""

/-- A `TraceRow`, whose duration may be infinite. -/
structure SpanRow where
  traceId : String
  spanId : String
  parentSpanId : Option String
  time : ℤ
  service : String
  operation : String
  durationMs : FloatValue
  status : String
  attributes : List (String × Json)
  named : traceId ≠ "" ∧ spanId ≠ "" ∧ service ≠ "" ∧ operation ≠ "" ∧ status ≠ ""
  nonneg : 0 ≤ time ∧ (FloatValue.finite 0).le durationMs

/-- `d.get(key, default)`. -/
def getD (d : List (String × Json)) (key : String) (default : Json) : Json :=
  (d.lookup key).getD default

theorem lookup_of_getD {d : List (String × Json)} {key : String} {default v : Json}
    (found : getD d key default = v) (other : v ≠ default) : d.lookup key = some v := by
  unfold getD at found
  cases entry : d.lookup key with
  | none => exact absurd found.symm (by simpa [entry] using other)
  | some w => simpa [entry] using found

theorem exists_of_getD_truthy {d : List (String × Json)} {key : String}
    (truthy : (getD d key .null).truthy) : ∃ v, d.lookup key = some v ∧ v.truthy :=
  ⟨_, lookup_of_getD rfl fun null => by simp [null, Json.truthy] at truthy, truthy⟩

/-- `v or w`. -/
def orElse (v w : Json) : Json := if v.truthy then v else w

theorem truthy_orElse {v w : Json} (truthy : w.truthy) : (orElse v w).truthy := by
  unfold orElse
  split
  · assumption
  · exact truthy

/-- The service of a span's process, null where there is none. -/
def serviceOf (processes : List (String × Json)) (processId : Json) : Json :=
  let process := match processId with
    | .str id => getD processes id (.dict [])
    | _ => .dict []
  getD process.entries "serviceName" .null

/-- The span names a process that is known, with a service name. -/
def KnownService (processes span : List (String × Json)) : Prop :=
  ∃ id process name, span.lookup "processID" = some (.str id) ∧
    processes.lookup id = some (.dict process) ∧ process.lookup "serviceName" = some name ∧ name.truthy

theorem knownService_iff {processes span : List (String × Json)} :
    KnownService processes span ↔ (serviceOf processes (getD span "processID" .null)).truthy := by
  constructor
  · rintro ⟨id, process, name, atId, known, named, truthy⟩
    simpa [serviceOf, getD, atId, known, Json.entries, named] using truthy
  · intro truthy
    unfold serviceOf at truthy
    obtain ⟨name, named, truthy⟩ := exists_of_getD_truthy truthy
    cases processId : getD span "processID" .null with
    | str id =>
      simp only [processId] at named
      have atId := lookup_of_getD processId (by simp)
      cases process : getD processes id (.dict []) with
      | dict entries =>
        rw [process] at named
        refine ⟨id, entries, name, atId, lookup_of_getD process fun empty => ?_, named, truthy⟩
        cases empty
        cases named
      | _ =>
        rw [process] at named
        cases named
    | _ =>
      simp only [processId] at named
      cases named

section Numbers
variable [FloatText]

def microsecondsToSeconds (value : Json) : Py FloatValue := do
  let micros ← value.asFloat
  pure (micros.map fun x => rnd (x / 10 ^ 6))

def relativeSecond (seconds : FloatValue) (windowStart : ℚ) : Py ℤ := do
  let offset ← (seconds.map fun x => rnd (x - windowStart)).round
  pure (max 0 offset)

/-- A finite number, or a text of one. -/
def Numeric (v : Json) : Prop := ∃ x, v.asFloat = .ok (.finite x)

theorem relativeSecond_returns_iff {value : Json} (windowStart : ℚ) :
    Returns (microsecondsToSeconds value >>= (relativeSecond · windowStart)) ↔ Numeric value := by
  unfold microsecondsToSeconds relativeSecond Numeric
  cases value.asFloat with
  | error e => simp [Returns, bind, Except.bind]
  | ok v =>
    cases v <;>
      simp [Returns, FloatValue.map, FloatValue.round, bind, Except.bind, pure, Except.pure]

end Numbers

theorem le_map_div (d : FloatValue) :
    (FloatValue.finite 0).le (d.map fun x => rnd (x / 1000)) = (FloatValue.finite 0).le d := by
  cases d with
  | finite x =>
    have sign : rnd (x / 1000) < 0 ↔ x < 0 := by
      constructor
      · intro negative
        by_contra nonneg
        exact absurd (rnd_nonneg (div_nonneg (not_lt.mp nonneg) (by norm_num))) (not_le.mpr negative)
      · intro negative
        have below : x / 1000 < 0 := div_neg_of_neg_of_pos negative (by norm_num)
        exact lt_of_le_of_ne (rnd_nonpos below.le) (rnd_ne_zero below.ne)
    simp [FloatValue.map, FloatValue.le, FloatValue.lt, sign]
  | infinite negative => rfl
  | nan => rfl

section Text
variable [FloatRepr] [ContainerText]

/-- `str(v)`. -/
def strOf : Json → String
  | .list items => ContainerText.text (.list items)
  | .dict entries => ContainerText.text (.dict entries)
  | v => v.display

theorem strOf_ne_empty {v : Json} (text : v ≠ .str "") : strOf v ≠ "" := by
  cases v with
  | null => exact (by decide : "None" ≠ "")
  | bool b => cases b with
    | false => exact (by decide : "False" ≠ "")
    | true => exact (by decide : "True" ≠ "")
  | int n => exact fun empty => intRepr_ne_nil n (String.ofList_eq_empty_iff.mp empty)
  | float x => exact fun empty => FloatRepr.repr_ne_nil x (String.ofList_eq_empty_iff.mp empty)
  | str s => exact fun empty => text (congrArg Json.str empty)
  | list items => exact ContainerText.text_ne_empty _
  | dict entries => exact ContainerText.text_ne_empty _

theorem strOf_of_truthy {v : Json} (truthy : v.truthy) : strOf v ≠ "" :=
  strOf_ne_empty fun empty => by simp [empty, Json.truthy] at truthy

def containsBannedPublicToken (v : Json) : Bool :=
  match v with
  | .null => false
  | v => bannedPublicTokens.any fun token => token.toList <:+: (strOf v).toList

def isPublicAttribute (key : String) (value : Json) : Bool :=
  !containsBannedPublicToken (.str key) && !containsBannedPublicToken value

def optionalString : Json → Option String
  | .null => none
  | v => if strOf v = "" then none else some (strOf v)

def tagMap : Json → List (String × Json)
  | .list tags => tags.foldl (fun values tag =>
      match tag.lookup "key" with
      | none => values
      | some key =>
        let value := getD tag.entries "value" .null
        if isPublicAttribute (strOf key) value then assign (strOf key) value values else values) []
  | _ => []

def publicAttributes (attributes : List (String × Json)) : List (String × Json) :=
  attributes.filter fun (key, value) => isPublicAttribute key value

def parentSpanId (span : List (String × Json)) : Option String :=
  match getD span "references" (.list []) with
  | .list references =>
    match references.find? fun reference =>
        (reference.lookup "refType").any (·.pyEq (.str "CHILD_OF")) with
    | some reference => optionalString (getD reference.entries "spanID" .null)
    | none => none
  | _ => none

/-- `v is True`. -/
def isTrueFlag : Json → Bool
  | .bool b => b
  | _ => false

/-- `http_status is not None and int(http_status) >= 500`. -/
def httpFailed [IntText] (httpStatus : Json) : Py Bool :=
  match httpStatus with
  | .null => .ok false
  | v => do
    let code ← v.asInt
    pure (500 ≤ code)

/-- An id that is neither missing nor null nor empty. -/
def Identified (span : List (String × Json)) (key : String) : Prop :=
  ∃ v, span.lookup key = some v ∧ v ≠ .null ∧ v ≠ .str ""

theorem text_of_identified {span : List (String × Json)} {key : String}
    (identified : Identified span key) : strOf (getD span key (.str "")) ≠ "" := by
  obtain ⟨v, found, _, text⟩ := identified
  rw [getD, found]
  exact strOf_ne_empty text

/-- The error flag or the gRPC status tells of an error. -/
def errorTagged (tags : List (String × Json)) : Bool :=
  let grpcStatus := getD tags "rpc.grpc.status_code" .null
  isTrueFlag (getD tags "error" .null) || (!grpcStatus.pyEq .null && strOf grpcStatus ≠ "0")

def httpStatus (tags : List (String × Json)) : Json :=
  orElse (getD tags "http.response.status_code" .null) (getD tags "http.status_code" .null)

variable [IntText]

/-- The status is read unless the HTTP status has to be read and is not a number. -/
def StatusReadable (tags : List (String × Json)) : Prop :=
  errorTagged tags ∨ Returns (httpFailed (httpStatus tags))

variable [UpperCase]

def spanStatus (tags : List (String × Json)) : Py String := do
  if errorTagged tags then return "ERROR"
  if ← httpFailed (httpStatus tags) then return "ERROR"
  if UpperCase.upper (strOf (getD tags "otel.status_code" .null)) = "ERROR" then return "ERROR"
  return "OK"

theorem spanStatus_returns_iff {tags : List (String × Json)} :
    Returns (spanStatus tags) ↔ StatusReadable tags := by
  unfold spanStatus StatusReadable
  by_cases tagged : errorTagged tags
  · simp [tagged, Returns, pure, Except.pure]
  · cases httpFailed (httpStatus tags) with
    | error e => simp [tagged, Returns, bind, Except.bind]
    | ok failed =>
      simp only [tagged, Returns, bind, Except.bind, pure, Except.pure]
      split_ifs <;> simp

theorem spanStatus_ne_empty {tags : List (String × Json)} {status : String}
    (read : spanStatus tags = .ok status) : status ≠ "" := by
  unfold spanStatus at read
  cases failed : httpFailed (httpStatus tags) <;>
    simp only [failed, bind, Except.bind, pure, Except.pure] at read <;>
    split_ifs at read <;> cases read <;> decide

variable [FloatText]

def validationError : Exn := ⟨"ValidationError", "", false⟩

/-- The row of a span of a known service. -/
def traceRow (span : List (String × Json)) (service : Json) (windowStart : ℚ) : Py SpanRow := do
  let tags := tagMap (getD span "tags" (.list []))
  let traceId := strOf (getD span "traceID" (.str ""))
  let spanId := strOf (getD span "spanID" (.str ""))
  let seconds ← microsecondsToSeconds (getD span "startTime" .null)
  let time ← relativeSecond seconds windowStart
  let operation := strOf (orElse (getD span "operationName" .null) (.str "unknown"))
  let duration ← (getD span "duration" (.int 0)).asFloat
  let durationMs := duration.map fun x => rnd (x / 1000)
  let status ← spanStatus tags
  if named : traceId ≠ "" ∧ spanId ≠ "" ∧ strOf service ≠ "" ∧ operation ≠ "" ∧ status ≠ "" then
    if nonneg : 0 ≤ time ∧ (FloatValue.finite 0).le durationMs then
      return {
        traceId, spanId, parentSpanId := parentSpanId span, time, service := strOf service, operation
        durationMs, status, attributes := publicAttributes tags, named, nonneg }
    else .error validationError
  else .error validationError

/-- One turn of the loop over the spans. -/
def spanRow (windowStart : ℚ) (processes : List (String × Json)) (span : Json) :
    Py (Option SpanRow) :=
  match span with
  | .dict span => do
    let processId := getD span "processID" .null
    if !processId.hashable then .error processId.unhashable
    else
      let service := serviceOf processes processId
      if service.truthy then some <$> traceRow span service windowStart else pure none
  | _ => pure none

/-- The rows of one trace. -/
def traceRows (windowStart : ℚ) (trace : List (String × Json)) : Py (List SpanRow) :=
  match getD trace "processes" (.dict []), getD trace "spans" (.list []) with
  | .dict processes, .list spans => do
    let rows ← spans.mapM (spanRow windowStart processes)
    pure rows.reduceOption
  | _, _ => pure []

def normalizeJaegerTraces (traces : List (List (String × Json))) (windowStart : ℚ) :
    Py (List SpanRow) := do
  let rows ← traces.mapM (traceRows windowStart)
  pure (rows.flatten.filter fun row => row.traceId ≠ "" ∧ row.spanId ≠ "")

/-- A row can be typed. -/
structure Typed (span : List (String × Json)) : Prop where
  traceId : strOf (getD span "traceID" (.str "")) ≠ ""
  spanId : strOf (getD span "spanID" (.str "")) ≠ ""
  started : Numeric (getD span "startTime" .null)
  lasted : ∃ d, (getD span "duration" (.int 0)).asFloat = .ok d ∧ (FloatValue.finite 0).le d
  status : StatusReadable (tagMap (getD span "tags" (.list [])))

theorem traceRow_returns_iff {span : List (String × Json)} {service : Json} (known : service.truthy)
    (windowStart : ℚ) : Returns (traceRow span service windowStart) ↔ Typed span := by
  constructor
  · rintro ⟨row, typed⟩
    obtain ⟨seconds, read, typed⟩ := bind_ok_iff.mp typed
    obtain ⟨time, relative, typed⟩ := bind_ok_iff.mp typed
    obtain ⟨duration, lasted, typed⟩ := bind_ok_iff.mp typed
    obtain ⟨status, settled, typed⟩ := bind_ok_iff.mp typed
    have started := (relativeSecond_returns_iff windowStart).mp
      ⟨time, bind_ok_iff.mpr ⟨seconds, read, relative⟩⟩
    split at typed
    · rename_i named
      split at typed
      · rename_i nonneg
        exact ⟨named.1, named.2.1, started, ⟨duration, lasted, le_map_div duration ▸ nonneg.2⟩,
          spanStatus_returns_iff.mp ⟨status, settled⟩⟩
      · cases typed
    · cases typed
  · rintro ⟨traceId, spanId, started, ⟨duration, lasted, nonneg⟩, readable⟩
    obtain ⟨time, read⟩ := (relativeSecond_returns_iff windowStart).mpr started
    obtain ⟨seconds, read, relative⟩ := bind_ok_iff.mp read
    obtain ⟨status, settled⟩ := spanStatus_returns_iff.mpr readable
    have operation : strOf (orElse (getD span "operationName" .null) (.str "unknown")) ≠ "" :=
      strOf_of_truthy (truthy_orElse (by decide))
    have after : 0 ≤ time := by
      obtain ⟨offset, _, clamped⟩ := bind_ok_iff.mp relative
      cases clamped
      exact le_max_left 0 offset
    simp only [traceRow, read, relative, lasted, settled, bind, Except.bind]
    rw [dif_pos ⟨traceId, spanId, strOf_of_truthy known, operation, spanStatus_ne_empty settled⟩,
      dif_pos ⟨after, (le_map_div duration).symm ▸ nonneg⟩]
    exact returns_ok _

/-- The spans that are looked at, with the processes of their traces. -/
def traceSpans (trace : List (String × Json)) : List (List (String × Json) × Json) :=
  match getD trace "processes" (.dict []), getD trace "spans" (.list []) with
  | .dict processes, .list spans => spans.map fun span => (processes, span)
  | _, _ => []

/-- The row of a span, where it has one. -/
def rowOf (windowStart : ℚ) (c : List (String × Json) × Json) : Option SpanRow :=
  (spanRow windowStart c.1 c.2).toOption.join

theorem rowOf_eq_some {windowStart : ℚ} {c : List (String × Json) × Json} {row : SpanRow} :
    rowOf windowStart c = some row ↔ spanRow windowStart c.1 c.2 = .ok (some row) := by
  unfold rowOf
  cases spanRow windowStart c.1 c.2 <;> simp [Except.toOption]

theorem traceRows_eq_mapM (windowStart : ℚ) (trace : List (String × Json)) :
    traceRows windowStart trace = (do
      let rows ← (traceSpans trace).mapM fun c => spanRow windowStart c.1 c.2
      pure rows.reduceOption) := by
  unfold traceRows traceSpans
  split
  · rw [List.mapM_map]
    rfl
  · rfl

theorem traceRows_returns_iff {windowStart : ℚ} {trace : List (String × Json)} :
    Returns (traceRows windowStart trace) ↔
      ∀ c ∈ traceSpans trace, Returns (spanRow windowStart c.1 c.2) := by
  rw [traceRows_eq_mapM, ← mapM_returns_iff]
  simp [Returns, bind_ok_iff, pure, Except.pure]

theorem traceRows_eq {windowStart : ℚ} {trace : List (String × Json)}
    (each : ∀ c ∈ traceSpans trace, Returns (spanRow windowStart c.1 c.2)) :
    traceRows windowStart trace = .ok ((traceSpans trace).filterMap (rowOf windowStart)) := by
  rw [traceRows_eq_mapM, mapM_eq_filterMap each]
  change Except.ok (List.filterMap id _) = _
  rw [List.filterMap_filterMap]
  refine congrArg Except.ok (List.filterMap_congr fun c member => ?_)
  unfold rowOf
  cases (spanRow windowStart c.1 c.2).toOption <;> rfl

def jaegerSpans (traces : List (List (String × Json))) : List (List (String × Json) × Json) :=
  traces.flatMap traceSpans

theorem normalizeJaegerTraces_returns_iff {traces : List (List (String × Json))}
    {windowStart : ℚ} : Returns (normalizeJaegerTraces traces windowStart) ↔
      ∀ c ∈ jaegerSpans traces, Returns (spanRow windowStart c.1 c.2) := by
  have traces_ : (∀ c ∈ jaegerSpans traces, Returns (spanRow windowStart c.1 c.2)) ↔
      Returns (traces.mapM (traceRows windowStart)) := by
    rw [mapM_returns_iff, jaegerSpans, List.forall_mem_flatMap]
    simp only [traceRows_returns_iff]
  rw [traces_]
  simp [normalizeJaegerTraces, Returns, bind_ok_iff, pure, Except.pure]

/-- No row is without ids, so the last filter drops none. -/
theorem normalizeJaegerTraces_eq {traces : List (List (String × Json))} {windowStart : ℚ}
    (each : ∀ c ∈ jaegerSpans traces, Returns (spanRow windowStart c.1 c.2)) :
    normalizeJaegerTraces traces windowStart =
      .ok ((jaegerSpans traces).filterMap (rowOf windowStart)) := by
  have rows : ∀ trace ∈ traces, traceRows windowStart trace =
      .ok ((traceSpans trace).filterMap (rowOf windowStart)) := fun trace member =>
    traceRows_eq fun c inTrace => each c (List.mem_flatMap.mpr ⟨trace, member, inTrace⟩)
  rw [normalizeJaegerTraces, mapM_eq_map rows, jaegerSpans, List.filterMap_flatMap, List.flatMap_def]
  refine congrArg Except.ok (List.filter_eq_self.mpr fun row _ => ?_)
  exact decide_eq_true ⟨row.named.1, row.named.2.1⟩

/-- A missing duration counts as zero. -/
structure WellFormed (processes span : List (String × Json)) : Prop where
  service : KnownService processes span
  traceId : Identified span "traceID"
  spanId : Identified span "spanID"
  started : Numeric (getD span "startTime" .null)
  lasted : Numeric (getD span "duration" (.int 0))

/-- The process of a span can be looked up, and the row of a span of a known service can be
typed from values that are there. -/
structure Clean (processes span : List (String × Json)) : Prop where
  hashable : (getD span "processID" .null).hashable
  identified : KnownService processes span → Identified span "traceID" ∧ Identified span "spanID"
  started : KnownService processes span → Numeric (getD span "startTime" .null)
  lasted : KnownService processes span →
    ∃ x, 0 ≤ x ∧ (getD span "duration" (.int 0)).asFloat = .ok (.finite x)
  status : KnownService processes span → StatusReadable (tagMap (getD span "tags" (.list [])))

theorem spanRow_returns_iff {processes span : List (String × Json)} (windowStart : ℚ) :
    Returns (spanRow windowStart processes (.dict span)) ↔
      (getD span "processID" .null).hashable ∧ (KnownService processes span → Typed span) := by
  rw [spanRow, knownService_iff]
  by_cases hashable : (getD span "processID" .null).hashable
  · by_cases truthy : (serviceOf processes (getD span "processID" .null)).truthy
    · rw [← traceRow_returns_iff truthy windowStart]
      cases row : traceRow span (serviceOf processes (getD span "processID" .null)) windowStart <;>
        simp [hashable, truthy, row, Returns]
    · simp [hashable, truthy, Returns, pure, Except.pure]
  · simp [hashable, Returns]

theorem rowOf_isSome_iff {processes span : List (String × Json)} {windowStart : ℚ}
    (returns : Returns (spanRow windowStart processes (.dict span))) :
    (rowOf windowStart (processes, .dict span)).isSome ↔ KnownService processes span := by
  have hashable := ((spanRow_returns_iff windowStart).mp returns).1
  obtain ⟨row, found⟩ := returns
  rw [rowOf, found, knownService_iff]
  rw [spanRow] at found
  by_cases truthy : (serviceOf processes (getD span "processID" .null)).truthy
  · cases typed : traceRow span (serviceOf processes (getD span "processID" .null)) windowStart <;>
      simp [hashable, truthy, typed] at found
    simp [← found, truthy, Except.toOption]
  · simp [hashable, truthy, pure, Except.pure] at found
    simp [← found, truthy, Except.toOption]

theorem clean_iff {processes span : List (String × Json)} (windowStart : ℚ) :
    Clean processes span ↔ Returns (spanRow windowStart processes (.dict span)) ∧
      (KnownService processes span → WellFormed processes span) := by
  rw [spanRow_returns_iff]
  constructor
  · intro clean
    refine ⟨⟨clean.hashable, fun known => ?_⟩, fun known => ?_⟩
    · obtain ⟨x, nonneg, lasted⟩ := clean.lasted known
      exact ⟨text_of_identified (clean.identified known).1,
        text_of_identified (clean.identified known).2, clean.started known,
        ⟨.finite x, lasted, by simpa [FloatValue.le, FloatValue.lt] using nonneg⟩, clean.status known⟩
    · obtain ⟨x, -, lasted⟩ := clean.lasted known
      exact ⟨known, (clean.identified known).1, (clean.identified known).2, clean.started known,
        ⟨x, lasted⟩⟩
  · rintro ⟨⟨hashable, typed⟩, wellFormed⟩
    refine ⟨hashable, fun known => ⟨(wellFormed known).traceId, (wellFormed known).spanId⟩,
      fun known => (wellFormed known).started, fun known => ?_, fun known => (typed known).status⟩
    obtain ⟨x, lasted⟩ := (wellFormed known).lasted
    obtain ⟨d, lasted', nonneg⟩ := (typed known).lasted
    cases lasted.symm.trans lasted'
    exact ⟨x, by simpa [FloatValue.le, FloatValue.lt] using nonneg, lasted⟩

/-- The rows are those of the well-formed spans exactly where every span is clean. -/
theorem normalizeJaegerTraces_iff (traces : List (List (String × Json))) (windowStart : ℚ) :
    (∃ rows, normalizeJaegerTraces traces windowStart = .ok rows ∧
      Selects (fun c => ∃ span, c.2 = .dict span ∧ WellFormed c.1 span)
        (fun c row => spanRow windowStart c.1 c.2 = .ok (some row)) (jaegerSpans traces) rows) ↔
      ∀ c ∈ jaegerSpans traces, ∀ span, c.2 = .dict span → Clean c.1 span := by
  have other {processes : List (String × Json)} {v : Json} (object : ∀ span, v ≠ .dict span) :
      spanRow windowStart processes v = .ok none := by
    unfold spanRow
    split
    · exact absurd rfl (object _)
    · rfl
  have defined : (∀ c ∈ jaegerSpans traces, Returns (spanRow windowStart c.1 c.2)) →
      ∀ c ∈ jaegerSpans traces, (∃ span, c.2 = .dict span ∧ WellFormed c.1 span) →
        (rowOf windowStart c).isSome := by
    rintro each ⟨processes, _⟩ member ⟨span, rfl, wellFormed⟩
    exact (rowOf_isSome_iff (each _ member)).mpr wellFormed.service
  simp only [← rowOf_eq_some]
  constructor
  · rintro ⟨rows, normalized, selects⟩ ⟨processes, _⟩ member span rfl
    have each := normalizeJaegerTraces_returns_iff.mp ⟨rows, normalized⟩
    cases (normalizeJaegerTraces_eq each).symm.trans normalized
    have wanted := (selects_filterMap_iff (defined each)).mp selects
    refine (clean_iff windowStart).mpr ⟨each _ member, fun known => ?_⟩
    obtain ⟨_, same, wellFormed⟩ := wanted _ member ((rowOf_isSome_iff (each _ member)).mpr known)
    cases same
    exact wellFormed
  · intro clean
    have each : ∀ c ∈ jaegerSpans traces, Returns (spanRow windowStart c.1 c.2) := by
      rintro ⟨processes, v⟩ member
      by_cases object : ∃ span, v = .dict span
      · obtain ⟨span, rfl⟩ := object
        exact ((clean_iff windowStart).mp (clean _ member span rfl)).1
      · exact ⟨none, other (not_exists.mp object)⟩
    refine ⟨_, normalizeJaegerTraces_eq each, (selects_filterMap_iff (defined each)).mpr ?_⟩
    rintro ⟨processes, v⟩ member some_
    by_cases object : ∃ span, v = .dict span
    · obtain ⟨span, rfl⟩ := object
      have known := (rowOf_isSome_iff (each _ member)).mp some_
      exact ⟨span, rfl, ((clean_iff windowStart).mp (clean _ member span rfl)).2 known⟩
    · simp [rowOf, other (not_exists.mp object), Except.toOption] at some_

end Text

section Anonymous

@[reducible] def bracketText : ContainerText := ⟨fun _ => "[]", fun _ => by decide⟩

@[reducible] def noIntText : IntText := ⟨fun _ => none⟩

@[reducible] def noFloatText : FloatText := ⟨fun _ => none⟩

attribute [local instance] fractionRepr bracketText noIntText noFloatText asciiUpperCase

def checkoutProcesses : List (String × Json) := [("p1", .dict [("serviceName", .str "checkout")])]

/-- A span without the id of its trace. -/
def anonymousSpan : List (String × Json) :=
  [("spanID", .str "span-1"), ("processID", .str "p1"), ("startTime", .int 1000000000),
    ("duration", .int 42000)]

def anonymousTrace : List (String × Json) :=
  [("processes", .dict checkoutProcesses), ("spans", .list [.dict anonymousSpan])]

/-- The span is not dropped: it fails the whole call. -/
theorem normalizeJaegerTraces_anonymous :
    ¬ ∃ rows, normalizeJaegerTraces [anonymousTrace] 1000 = .ok rows ∧
      Selects (fun c => ∃ span, c.2 = .dict span ∧ WellFormed c.1 span)
        (fun c row => spanRow 1000 c.1 c.2 = .ok (some row)) (jaegerSpans [anonymousTrace]) rows := by
  rintro ⟨rows, normalized, -⟩
  have each := normalizeJaegerTraces_returns_iff.mp ⟨rows, normalized⟩
  have typed := ((spanRow_returns_iff 1000).mp
    (each (checkoutProcesses, .dict anonymousSpan) (List.mem_singleton.mpr rfl))).2
  exact (typed ⟨"p1", _, .str "checkout", rfl, rfl, rfl, rfl⟩).traceId rfl

end Anonymous

end Sentinel.Labs.Otel
