import Sentinel.Lgtm.Feed

/-! Spans fed and read back. Ids, services and kinds survive; the second of a span
survives unless the float division of its start comes out a millisecond early. -/
namespace Sentinel.Lgtm
open Python Fixtures Tools Newrelic

/-- Rows as the trace loader makes them. -/
structure LoadedTraces (traces : List TraceRow) : Prop where
  traceIds : ∀ r ∈ traces, r.traceId.length = 32 ∧ ∀ c ∈ r.traceId.toList, c ∈ hexDigits
  spanIds : ∀ r ∈ traces, r.spanId.length = 16 ∧ ∀ c ∈ r.spanId.toList, c ∈ hexDigits
  parents : ∀ r ∈ traces, ∀ parent ∈ r.parentSpanId, parent ≠ "" ∧ IsHex parent.toList
  distinct : (traces.map TraceRow.spanId).Nodup
  statuses : ∀ r ∈ traces, r.status = "OK" ∨ r.status = "ERROR"
  kinds : ∀ r ∈ traces, ∃ kind ∈ ["client", "server", "internal"],
    r.attributes = [("span.kind", .str kind)]

/-- An id as Tempo returns it. -/
def storedId (id : String) : String := String.ofList (b64encode (unhexlify id.toList))

def stored (p : List Attribute × OtlpSpan) : List Attribute × OtlpSpan :=
  (p.1, { p.2 with traceId := storedId p.2.traceId, spanId := storedId p.2.spanId
                   parentSpanId := p.2.parentSpanId.map storedId })

/-- The document holds the fed spans of the trace, under their resources. -/
def Returned (fed : List (List ResourceSpans)) (traceId : String) (doc : List ResourceSpans) : Prop :=
  (spansOf doc).Perm (((spansOf fed.flatten).filter fun p => p.2.traceId = traceId).map stored)

/-- What is compared of a row. -/
def spanFields (r : TraceRow) :
    String × String × Option String × ℤ × String × String × String × Option Json :=
  (r.traceId, r.spanId, r.parentSpanId, r.time, r.service, r.operation, r.status,
    r.attributes.lookup "span.kind")

def RoundTrips (traces : List TraceRow) (baseMs : ℤ) : Prop :=
  ∀ (s : LgtmStore) (traceId : String) (doc : List ResourceSpans), s.startMs = baseMs →
    Returned (feedTraces traces baseMs) traceId doc →
      ∃ rows, s.parseTrace doc = .ok rows ∧
        (rows.map spanFields).Perm ((traces.filter fun r => r.traceId = traceId).map spanFields)

/-- The start that is read back lies in the second that was fed; before the window there
is only second 0. -/
def SecondKept (baseMs time : ℤ) : Prop :=
  (time = 0 ∨ baseMs + time * 1000 ≤ readMs (baseMs + time * 1000)) ∧
    readMs (baseMs + time * 1000) < baseMs + time * 1000 + 1000

theorem relSeconds_readMs {baseMs time : ℤ} (nonneg : 0 ≤ time) :
    relSeconds (readMs (baseMs + time * 1000)) baseMs = time ↔ SecondKept baseMs time := by
  unfold relSeconds SecondKept
  omega

/-- Up to the year 2039 the start alone decides. -/
theorem secondKept_iff {baseMs time : ℤ} (nonneg : 0 ≤ time)
    (lower : -2 ^ 59 < (baseMs + time * 1000) * 10 ^ 6) (upper : baseMs + time * 1000 < 2 ^ 41) :
    SecondKept baseMs time ↔ time = 0 ∨ ¬ ReadEarly (baseMs + time * 1000) := by
  unfold SecondKept
  rw [readMs_eq lower upper]
  split_ifs with early
  · simp only [early, not_true_eq_false, or_false]
    omega
  · simp only [early, not_false_eq_true, or_true, iff_true]
    omega

theorem hexid_storedId {id : String} (hex : IsHex id.toList) : hexid (storedId id) = id := by
  rw [hexid, storedId, String.toList_ofList, b64decode_b64encode]
  simp only [hexlify_unhexlify hex, String.ofList_toList]

/-- The row that is read back. -/
def readBack (baseMs : ℤ) (r : TraceRow) : TraceRow :=
  { r with
    time := relSeconds (readMs (baseMs + r.time * 1000)) baseMs
    durationMs := max 0 (perMillion (truncate (rnd (r.durationMs * 10 ^ 6))))
    nonneg := ⟨le_max_left _ _, le_max_left _ _⟩ }

theorem serviceOf_svcRes {service : String} (named : service ≠ "") :
    serviceOf (svcRes service) = .str service := by
  simp [serviceOf, svcRes, attr, orElse, Json.truthy, named]

theorem hexid_parent {parent : Option String} (hex : ∀ id ∈ parent, id ≠ "" ∧ IsHex id.toList) :
    (given ((parent.filter fun id => id ≠ "").map storedId)).map hexid = parent := by
  cases parent with
  | none => rfl
  | some id =>
    obtain ⟨named, digits⟩ := hex id rfl
    have back := hexid_storedId digits
    have kept : storedId id ≠ "" := by
      intro empty
      rw [empty] at back
      exact named back.symm
    simp [given, Option.filter, named, kept, back]

theorem isHex_of_length {id : String} {n : ℕ} (length : id.length = 2 * n)
    (digits : ∀ c ∈ id.toList, c ∈ hexDigits) : IsHex id.toList := by
  refine ⟨?_, digits⟩
  rw [String.length_toList, length]
  omega

theorem parseSpan_stored {traces : List TraceRow} (loaded : LoadedTraces traces) {r : TraceRow}
    (member : r ∈ traces) {s : LgtmStore} {baseMs : ℤ} (start : s.startMs = baseMs) :
    parseSpan s (serviceOf (stored (fedPair baseMs r)).1) (stored (fedPair baseMs r)).2 =
      .ok (readBack baseMs r) := by
  obtain ⟨kind, known, attributes⟩ := loaded.kinds r member
  have kindKept : orElse (attr (fedSpan baseMs r).attributes "span.kind") (.str "internal") =
      .str kind := by
    have named : kind ≠ "" := by
      rintro rfl
      simp at known
    simp [fedSpan, attributes, attr, orElse, Json.truthy, named]
  have traceId := hexid_storedId (isHex_of_length (n := 16) (loaded.traceIds r member).1
    (loaded.traceIds r member).2)
  have spanId := hexid_storedId (isHex_of_length (n := 8) (loaded.spanIds r member).1
    (loaded.spanIds r member).2)
  have parent := hexid_parent (loaded.parents r member)
  have status : statusOf (.int (if r.status = "ERROR" then 2 else 0)) = r.status := by
    rcases loaded.statuses r member with ok | error
    · rw [ok]
      rfl
    · rw [error]
      rfl
  have made : traceRow r.traceId r.spanId r.parentSpanId (readBack baseMs r).time r.service
      r.operation (readBack baseMs r).durationMs r.status [("span.kind", .str kind)] =
        some (readBack baseMs r) := by
    rw [← attributes, traceRow, dif_pos r.named, dif_pos (readBack baseMs r).nonneg]
    rfl
  rw [stored, fedPair, serviceOf_svcRes r.named.2.2.1]
  simp only [parseSpan, kindKept, strField, Option.bind_some]
  simp only [fedSpan, Option.getD_some, traceId, spanId, parentOf, parent, status, start,
    add_sub_cancel_left]
  simp only [readBack, readMs] at made
  rw [made]
  rfl

/-- A returned document reads as the rows of its trace. -/
theorem parseTrace_returned {traces : List TraceRow} (loaded : LoadedTraces traces) {s : LgtmStore}
    {baseMs : ℤ} (start : s.startMs = baseMs) {traceId : String} {doc : List ResourceSpans}
    (returned : Returned (feedTraces traces baseMs) traceId doc) :
    ∃ rows, s.parseTrace doc = .ok rows ∧
      rows.Perm ((traces.filter fun r => r.traceId = traceId).map (readBack baseMs)) := by
  have spans : (spansOf doc).Perm ((traces.filter fun r => r.traceId = traceId).map
      fun r => stored (fedPair baseMs r)) := by
    have fed := ((spansOf_feedTraces traces baseMs).filter fun p => p.2.traceId = traceId).map stored
    rw [List.filter_map, List.map_map] at fed
    exact returned.trans fed
  have parsed : ∀ r ∈ traces.filter fun r => r.traceId = traceId,
      parseSpan s (serviceOf (stored (fedPair baseMs r)).1) (stored (fedPair baseMs r)).2 =
        .ok (readBack baseMs r) :=
    fun r member => parseSpan_stored loaded (List.mem_of_mem_filter member) start
  have each : ∀ p ∈ spansOf doc, Returns (parseSpan s (serviceOf p.1) p.2) := by
    intro p member
    obtain ⟨r, inTrace, rfl⟩ := List.mem_map.mp (spans.mem_iff.mp member)
    exact ⟨_, parsed r inTrace⟩
  refine ⟨_, parseTrace_eq each, (spans.filterMap _).trans (List.Perm.of_eq ?_)⟩
  rw [List.filterMap_map, ← List.filterMap_eq_map]
  exact List.filterMap_congr fun r inTrace => by
    rw [Function.comp_apply, parsed r inTrace]
    rfl

theorem spanFields_readBack {baseMs : ℤ} {r : TraceRow} (kept : SecondKept baseMs r.time) :
    spanFields (readBack baseMs r) = spanFields r := by
  have time : (readBack baseMs r).time = r.time := (relSeconds_readMs r.nonneg.1).mpr kept
  simp only [spanFields, time]
  rfl

/-- What Tempo returns for one span fed alone under its resource. -/
def returnedDoc (baseMs : ℤ) (traces : List TraceRow) (traceId : String) : List ResourceSpans :=
  (traces.filter fun r => r.traceId = traceId).map fun r =>
    ⟨svcRes r.service, [[(stored (fedPair baseMs r)).2]]⟩

theorem returnedDoc_returned (baseMs : ℤ) (traces : List TraceRow) (traceId : String) :
    Returned (feedTraces traces baseMs) traceId (returnedDoc baseMs traces traceId) := by
  have fed := ((spansOf_feedTraces traces baseMs).filter fun p => p.2.traceId = traceId).map stored
  rw [List.filter_map, List.map_map] at fed
  refine (List.Perm.of_eq ?_).trans fed.symm
  rw [spansOf, returnedDoc, List.flatMap_map, ← List.flatMap_pure_eq_map]
  rfl

theorem secondKept_of_roundTrips {traces : List TraceRow} (loaded : LoadedTraces traces)
    {baseMs : ℤ} (trips : RoundTrips traces baseMs) : ∀ r ∈ traces, SecondKept baseMs r.time := by
  intro r member
  let s : LgtmStore := ⟨⟨fun _ _ _ _ => .ok []⟩, baseMs, baseMs⟩
  have returned := returnedDoc_returned baseMs traces r.traceId
  obtain ⟨rows, parsed, same⟩ := trips s r.traceId _ rfl returned
  obtain ⟨rows', parsed', read⟩ := parseTrace_returned loaded (s := s) rfl returned
  obtain rfl := Except.ok.inj (parsed.symm.trans parsed')
  have inTrace : r ∈ traces.filter fun row => row.traceId = r.traceId :=
    List.mem_filter.mpr ⟨member, by simp⟩
  have back : spanFields (readBack baseMs r) ∈ rows.map spanFields :=
    List.mem_map_of_mem (read.mem_iff.mpr (List.mem_map_of_mem inTrace))
  obtain ⟨r', inTrace', fields⟩ := List.mem_map.mp (same.mem_iff.mp back)
  simp only [spanFields, readBack, Prod.mk.injEq] at fields
  obtain ⟨-, spanId, -, time, -⟩ := fields
  obtain rfl := List.inj_on_of_nodup_map loaded.distinct (List.mem_of_mem_filter inTrace') member spanId
  exact (relSeconds_readMs r'.nonneg.1).mp time.symm

/-- The fed rows come back exactly where every second is kept. Up to 2039 a second is lost
where the start is one that reads early, and is not the base itself. -/
theorem span_round_trip_iff {traces : List TraceRow} (loaded : LoadedTraces traces) (baseMs : ℤ) :
    (RoundTrips traces baseMs ↔ ∀ r ∈ traces, SecondKept baseMs r.time) ∧
      ∀ time, 0 ≤ time → -2 ^ 59 < (baseMs + time * 1000) * 10 ^ 6 → baseMs + time * 1000 < 2 ^ 41 →
        (SecondKept baseMs time ↔ time = 0 ∨ ¬ ReadEarly (baseMs + time * 1000)) := by
  refine ⟨⟨secondKept_of_roundTrips loaded, fun kept => ?_⟩, fun time nonneg lower upper =>
    secondKept_iff nonneg lower upper⟩
  intro s traceId doc start returned
  obtain ⟨rows, parsed, same⟩ := parseTrace_returned loaded start returned
  refine ⟨rows, parsed, (same.map spanFields).trans (List.Perm.of_eq ?_)⟩
  rw [List.map_map]
  exact List.map_congr_left fun r inTrace => spanFields_readBack (kept r (List.mem_of_mem_filter inTrace))

def checkoutSpan : TraceRow where
  traceId := "4bf92f3577b34da6a3ce929d0e0e4736"
  spanId := "00f067aa0ba902b7"
  parentSpanId := some "53995c3f42cd8ad8"
  time := 720
  service := "checkoutservice"
  operation := "PlaceOrder"
  durationMs := 12
  status := "ERROR"
  attributes := [("span.kind", .str "server")]

theorem digits_of_all {text : List Char} (checked : text.all (hexDigits.contains ·) = true) :
    ∀ c ∈ text, c ∈ hexDigits := by
  simpa using checked

theorem checkoutSpan_loaded : LoadedTraces [checkoutSpan] where
  traceIds := List.forall_mem_singleton.mpr ⟨by rfl, digits_of_all (by rfl)⟩
  spanIds := List.forall_mem_singleton.mpr ⟨by rfl, digits_of_all (by rfl)⟩
  parents r member parent named := by
    obtain rfl := List.mem_singleton.mp member
    cases named
    exact ⟨by decide, isHex_of_length (n := 8) rfl (digits_of_all (by rfl))⟩
  distinct := List.nodup_singleton _
  statuses := by simp [checkoutSpan]
  kinds := by simp [checkoutSpan]

theorem span_round_trip_iff_checkout : RoundTrips [checkoutSpan] 1700000000000 := by
  obtain ⟨trips, decided⟩ := span_round_trip_iff checkoutSpan_loaded 1700000000000
  refine trips.mpr fun r member => ?_
  obtain rfl := List.mem_singleton.mp member
  exact (decided 720 (by decide) (by decide) (by decide)).mpr (.inr (by decide))

/-- A span that comes back a second early. -/
theorem span_a_second_early : ¬ ∀ (traces : List TraceRow) (baseMs : ℤ), baseMs < 2 ^ 41 →
    LoadedTraces traces → RoundTrips traces baseMs := by
  intro trips
  have kept := secondKept_of_roundTrips checkoutSpan_loaded
    (trips [checkoutSpan] 1700000000002 (by decide) checkoutSpan_loaded) checkoutSpan (by simp)
  rcases (secondKept_iff (by decide) (by decide) (by decide)).mp kept with first | other
  · exact absurd first (by decide)
  · exact other (by decide)

end Sentinel.Lgtm
