import Sentinel.Labs.Otel.Workflow
import Sentinel.Sequences.Windows

/-! The log search of the recorder: a body that asks for the first hits of a time range is
posted, and the hits are read from the payload. The bounds of the range are instants here,
before `_iso_timestamp` writes them. -/
namespace Sentinel.Labs.Otel
open Python Sequences

structure LogSearchBody where
  size : ℤ
  sort : List (String × String)
  rangeField : String
  gte : Option ℚ
  lte : Option ℚ

/-- `_log_search_body`. -/
def logSearchBody (size : ℤ) (start end_ : Option ℚ) : LogSearchBody where
  size := size
  sort := [("observedTimestamp", "asc")]
  rangeField := "observedTimestamp"
  gte := start
  lte := end_

/-- What `search_logs` sends: a size alone, or a body. -/
inductive SearchRequest where
  | get (size : ℤ)
  | post (body : LogSearchBody)

def recorderError (message : String) : Exn := ⟨"RecorderError", message, false⟩

def opensearchHits (payload : Json) : Py (List Json) := do
  match ← payload.get "hits" with
  | .dict hits =>
    match ← (Json.dict hits).get "hits" with
    | .list rows => pure (rows.filter Json.isDict)
    | _ => .error (recorderError "OpenSearch response missing hits.hits list")
  | _ => .error (recorderError "OpenSearch response missing hits object")

section
variable {W : Type}

/-- `OpenSearchClient.search_logs`. -/
def searchLogs (send : SearchRequest → W → Py Json × W) (size : ℤ) (start end_ : Option ℚ) (w : W) :
    Py (List Json) × W :=
  let request :=
    if start.isNone && end_.isNone then .get size else .post (logSearchBody size start end_)
  let (payload, w') := send request w
  (payload >>= opensearchHits, w')

/-- A stored log: when it was observed, its `_id` and the row returned for it. -/
structure LogHit where
  time : ℚ
  id : String
  row : Json
  identified : row.get "_id" = .ok (.str id)

theorem LogHit.isDict_row (hit : LogHit) : hit.row.isDict := by
  obtain ⟨time, id, row, identified⟩ := hit
  cases row with
  | dict entries => rfl
  | _ => exact nomatch identified

theorem LogHit.id_of_row {a b : LogHit} (same : a.row = b.row) : a.id = b.id := by
  have read := b.identified
  rw [← same, a.identified] at read
  exact Json.str.inj (Except.ok.inj read)

/-- What is relied on of a client: a time range, both bounds included, is answered with its
earliest hits up to the size. -/
def AnswersEarliest (search : ℤ → ℚ → ℚ → W → Py (List Json) × W) (store : List LogHit) : Prop :=
  ∀ size start end_ w, 0 < size → ∃ found : List LogHit,
    (search size start end_ w).1 = .ok (found.map LogHit.row) ∧
      FirstBy LogHit.time size.toNat (inWindow LogHit.time (start, end_) store) found

/-- What is relied on of the index: where both bounds are given, a body is answered with
the first matching documents in the order it asks for, up to its size. -/
def IndexAnswers (send : SearchRequest → W → Py Json × W) (store : List LogHit) : Prop :=
  ∀ body start end_ w, 0 < body.size → body.sort = [("observedTimestamp", "asc")] →
    body.rangeField = "observedTimestamp" → body.gte = some start → body.lte = some end_ →
    ∃ (payload : Json) (hits : List (String × Json)) (found : List LogHit),
      (send (.post body) w).1 = .ok payload ∧ payload.get "hits" = .ok (.dict hits) ∧
      (Json.dict hits).get "hits" = .ok (.list (found.map LogHit.row)) ∧
      FirstBy LogHit.time body.size.toNat (inWindow LogHit.time (start, end_) store) found

/-- Over such an index the client answers with the earliest hits. -/
theorem searchLogs_answersEarliest {send : SearchRequest → W → Py Json × W} {store : List LogHit}
    (index : IndexAnswers send store) :
    AnswersEarliest (fun size start end_ => searchLogs send size (some start) (some end_)) store := by
  intro size start end_ w positive
  obtain ⟨payload, hits, found, sent, outer, inner, first⟩ :=
    index (logSearchBody size (some start) (some end_)) start end_ w positive rfl rfl rfl rfl
  have dicts : (found.map LogHit.row).filter Json.isDict = found.map LogHit.row := by
    rw [List.filter_eq_self]
    intro row member
    obtain ⟨hit, _, rfl⟩ := List.mem_map.mp member
    exact hit.isDict_row
  have read : opensearchHits payload = .ok (found.map LogHit.row) := by
    refine bind_ok_iff.mpr ⟨.dict hits, outer, ?_⟩
    refine bind_ok_iff.mpr ⟨.list (found.map LogHit.row), inner, ?_⟩
    exact congrArg Except.ok dicts
  refine ⟨found, ?_, first⟩
  simp only [searchLogs, Option.isNone_some, Bool.and_self, Bool.false_eq_true, if_false, sent]
  exact read

/-- The logs in the range of a body; a bound that is not given excludes none. -/
def LogSearchBody.matching (body : LogSearchBody) (store : List LogHit) : List LogHit :=
  store.filter fun hit : LogHit =>
    body.gte.all (fun start => start ≤ hit.time) && body.lte.all fun end_ => hit.time ≤ end_

/-- An index that keeps its logs in a list. -/
def listIndex (store : List LogHit) (request : SearchRequest) (w : W) : Py Json × W :=
  let found :=
    match request with
    | .get size => store.take size.toNat
    | .post body => (sortedBy LogHit.time (body.matching store)).take body.size.toNat
  (.ok (.dict [("hits", .dict [("hits", .list (found.map LogHit.row))])]), w)

theorem listIndex_answers (store : List LogHit) :
    IndexAnswers (listIndex store : SearchRequest → W → Py Json × W) store := by
  intro body start end_ w _ _ _ gte lte
  have matching : body.matching store = inWindow LogHit.time (start, end_) store := by
    simp [LogSearchBody.matching, inWindow, gte, lte]
  refine ⟨_, [("hits", _)], (sortedBy LogHit.time (body.matching store)).take body.size.toNat,
    rfl, rfl, rfl, ?_⟩
  rw [matching]
  exact firstBy_take_sortedBy LogHit.time _ _

end

end Sentinel.Labs.Otel
