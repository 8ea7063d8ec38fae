import Sentinel.Lgtm.Tempo

/-! Feeding the trace rows of a scenario: the spans, by service, in batches of requests. -/
namespace Sentinel.Lgtm
open Python Fixtures Tools Newrelic

def kindInt : List (String × ℕ) :=
  [("internal", 1), ("server", 2), ("client", 3), ("producer", 4), ("consumer", 5)]

def batchSize : ℕ := 2000

def svcRes (service : String) : List Attribute := [⟨"service.name", [("stringValue", .str service)]⟩]

/-- The span made of one row. -/
def fedSpan (baseMs : ℤ) (r : TraceRow) : OtlpSpan :=
  let startNs := (baseMs + r.time * 1000) * 10 ^ 6
  let kind := (r.attributes.lookup "span.kind").getD (.str "internal")
  { traceId := r.traceId
    spanId := r.spanId
    parentSpanId := parentOf r
    name := some r.operation
    kind := (match kind with
      | .str kind => kindInt.lookup kind
      | _ => none).getD 0
    startTimeUnixNano := some startNs
    endTimeUnixNano := some (startNs + truncate (rnd (r.durationMs * 10 ^ 6)))
    statusCode := some (.int (if r.status = "ERROR" then 2 else 0))
    attributes := [⟨"span.kind", [("stringValue", kind)]⟩] }

/-- The payload of one request. -/
def tracePayload (baseMs : ℤ) (chunk : List TraceRow) : List ResourceSpans :=
  (collect (fun r => some r.service) .empty chunk).items.map fun (service, rows) =>
    ⟨svcRes service, [rows.map (fedSpan baseMs)]⟩

/-- The payloads posted for the traces. -/
def feedTraces (traces : List TraceRow) (baseMs : ℤ) : List (List ResourceSpans) :=
  (inBatches batchSize traces).map (tracePayload baseMs)

/-- The span of a row under the resource of its service. -/
def fedPair (baseMs : ℤ) (r : TraceRow) : List Attribute × OtlpSpan := (svcRes r.service, fedSpan baseMs r)

theorem spansOf_tracePayload (baseMs : ℤ) (chunk : List TraceRow) :
    (spansOf (tracePayload baseMs chunk)).Perm (chunk.map (fedPair baseMs)) := by
  have grouped := (collect_pairs TraceRow.service .empty chunk).map
    fun p : String × TraceRow => (svcRes p.1, fedSpan baseMs p.2)
  have made : fedPair baseMs = fun r => (svcRes r.service, fedSpan baseMs r) := rfl
  simpa [spansOf, tracePayload, pairs, made, List.flatMap_map, List.map_flatMap, Function.comp_def,
    Dict.empty] using grouped

/-- Each row is fed once. -/
theorem spansOf_feedTraces (traces : List TraceRow) (baseMs : ℤ) :
    (spansOf (feedTraces traces baseMs).flatten).Perm (traces.map (fedPair baseMs)) := by
  have chunks : ∀ chunks : List (List TraceRow),
      (spansOf (chunks.map (tracePayload baseMs)).flatten).Perm
        (chunks.flatten.map (fedPair baseMs)) := by
    intro chunks
    induction chunks with
    | nil => exact .refl _
    | cons chunk rest ih =>
      rw [List.map_cons, List.flatten_cons, List.flatten_cons, List.map_append, spansOf,
        List.flatMap_append]
      exact (spansOf_tracePayload baseMs chunk).append ih
  have whole := chunks (inBatches batchSize traces)
  rwa [inBatches_flatten (by decide)] at whole

end Sentinel.Lgtm
