import Sentinel.Newrelic.Hydration

/-! Spans that a backend exports more than once. Both stores index one row of each
span id, but the live store's direct trace query returns the rows as exported. -/
namespace Sentinel.Newrelic
open Python Fixtures Tools

section
variable [NumberText]

/-- The backend of a store that is not hydrated yet returns the rows of the fixture,
each as often and with the same fields for one span id; it answers the pages of the
window and each trace in full. -/
structure Exported (corpus : List Entry) (traces : List TraceRow) (s : NewRelicStore) : Prop where
  rows : ∃ rows, toTraceRows corpus s.startMs = .ok rows ∧ rows.Perm traces
  consistent : ∀ a ∈ traces, ∀ b ∈ traces, a.spanId = b.spanId → a = b
  fresh : s.spans = none
  inside : ∀ entry ∈ corpus, inWindow s.startMs s.endMs entry = true
  answers : Answers corpus s.client
  resolved : ∀ hydrated, s.hydrate = .ok hydrated → ∀ chunk ∈ hydrated.pages, Resolved corpus chunk
  traceSpans : ∀ traceId, (s.client.traceSpans traceId).Perm
    (corpus.filter fun entry => ((entry.get? "trace.id").getD .null).pyEq (.str traceId))

/-- The stores give the same spans, up to order, on each access path, and one row for
each span id. -/
structure SpansAgree (fixture : FixtureStore) (s : NewRelicStore) : Prop where
  spans : ∃ rows, s.allSpans = .ok rows ∧ rows.Perm fixture.allSpans
  children : ∀ id, ∃ rows, s.childrenOf id = .ok rows ∧ rows.Perm (fixture.childrenOf id)
  trace : ∀ traceId, ∃ rows, s.getTrace traceId = .ok rows ∧ rows.Perm (fixture.getTrace traceId)
  unique : ∀ traceId, ∃ rows, s.getTrace traceId = .ok rows ∧ (rows.map TraceRow.spanId).Nodup

variable {corpus : List Entry} {traces : List TraceRow} {s : NewRelicStore}

omit [NumberText] in
/-- A nonempty text comes from the entry, not from the default. -/
theorem getOr_str {d : Entry} {key text : String}
    (read : strField (getOr d key (.str "")) = some text) (nonempty : text ≠ "") :
    d.get? key = some (.str text) := by
  cases found : d.get? key with
  | none =>
    simp [getOr, found, Json.truthy, strField] at read
    exact absurd read nonempty
  | some v =>
    cases v with
    | str s =>
      by_cases empty : s = ""
      · simp [getOr, found, Json.truthy, strField, empty] at read
        exact absurd read nonempty
      · simpa [getOr, found, Json.truthy, strField, empty] using read
    | null | bool | int | float | list | dict =>
      simp only [getOr, found, Option.getD_some] at read
      split at read
      · cases read
      · cases read
        exact absurd rfl nonempty

omit [NumberText] in
theorem traceRow_traceId {traceId spanId service operation status : String} {time : ℤ}
    {parentSpanId : Option String} {durationMs : ℚ} {attributes : List (String × Json)}
    {row : TraceRow} (made : traceRow traceId spanId parentSpanId time service operation durationMs
      status attributes = some row) : row.traceId = traceId ∧ traceId ≠ "" := by
  unfold traceRow at made
  split at made
  · rename_i named
    split at made
    · cases made
      exact ⟨rfl, named.1⟩
    · cases made
  · cases made

omit [NumberText] in
theorem typedTraceRow_traceId {d : Entry} {time : ℤ} {durationMs : ℚ} {row : TraceRow}
    (typed : typedTraceRow d time durationMs = some row) :
    d.get? "trace.id" = some (.str row.traceId) := by
  simp only [typedTraceRow, Option.bind_eq_bind, Option.bind_eq_some_iff] at typed
  obtain ⟨traceId, named, _, _, _, _, _, _, _, _, made⟩ := typed
  obtain ⟨rfl, nonempty⟩ := traceRow_traceId made
  exact getOr_str named nonempty

/-- The trace query selects the entries that map to rows of the trace. -/
theorem rowOf_traceId {entry : Entry} {row : TraceRow} {windowStartMs : ℤ}
    (mapped : rowOf windowStartMs entry = some row) :
    entry.get? "trace.id" = some (.str row.traceId) := by
  rw [rowOf_eq_some, toTraceRow] at mapped
  split at mapped
  · obtain ⟨duration, -, typed⟩ := bind_ok_iff.mp mapped
    cases duration with
    | none => cases typed
    | some durationMs => exact typedTraceRow_traceId (Except.ok.inj typed)
  · cases mapped

theorem Exported.rows_perm (exported : Exported corpus traces s) :
    (corpus.filterMap (rowOf s.startMs)).Perm traces := by
  obtain ⟨rows, mapped, same⟩ := exported.rows
  rwa [← rows_of_toTraceRows mapped]

theorem Exported.mem_fetchedRows (exported : Exported corpus traces s) {row : TraceRow} :
    row ∈ s.fetchedRows ↔ row ∈ traces := by
  have resolved := exported.resolved _ (hydrate_fresh exported.fresh)
  rw [← exported.rows_perm.mem_iff, NewRelicStore.fetchedRows, List.mem_filterMap, List.mem_filterMap]
  refine exists_congr fun entry => and_congr_left fun _ => ?_
  rw [mem_fetchWindow s exported.answers s.pages s.startMs resolved]
  exact and_iff_left_of_imp fun member => exported.inside entry member

theorem Exported.spans (exported : Exported corpus traces s) :
    (keepFirst TraceRow.spanId [] s.fetchedRows).Perm (keepFirst TraceRow.spanId [] traces) := by
  have fetched : ∀ a ∈ s.fetchedRows, ∀ b ∈ s.fetchedRows, a.spanId = b.spanId → a = b :=
    fun a inA b inB => exported.consistent a (exported.mem_fetchedRows.mp inA) b
      (exported.mem_fetchedRows.mp inB)
  refine (List.perm_ext_iff_of_nodup (keepFirst_nodup _ _ _).of_map
    (keepFirst_nodup _ _ _).of_map).mpr fun row => ?_
  rw [mem_keepFirst_iff fetched, mem_keepFirst_iff exported.consistent, exported.mem_fetchedRows]

theorem childrenOf_fresh (fresh : s.spans = none) (id : String) :
    s.childrenOf id = .ok ((keepFirst TraceRow.spanId [] s.fetchedRows).filter
      fun row => parentOf row = some id) := by
  rw [NewRelicStore.childrenOf, hydrate_fresh fresh]
  exact congrArg Except.ok ((get?_collect _ _ _ _).trans (List.nil_append _))

omit [NumberText] in
theorem childrenOf_init (traces : List TraceRow) (id : String) :
    (FixtureStore.init { traces }).childrenOf id =
      (keepFirst TraceRow.spanId [] traces).filter fun row => parentOf row = some id :=
  (get?_collect _ _ _ _).trans (List.nil_append _)

/-- The live trace query has the rows as often as they are exported. -/
theorem Exported.getTrace (exported : Exported corpus traces s) (traceId : String) :
    ∃ rows, s.getTrace traceId = .ok rows ∧
      rows.Perm (traces.filter fun row => row.traceId = traceId) := by
  have mapped := toTraceRows_eq fun d member =>
    toTraceRow_returns (s.client.traceInRange traceId d member) s.startMs
  refine ⟨_, by rw [NewRelicStore.getTrace, mapped]; rfl, ?_⟩
  refine (sortedBy_perm _ _).trans (((exported.traceSpans traceId).filterMap _).trans ?_)
  refine List.Perm.trans (List.Perm.of_eq ?_) (exported.rows_perm.filter _)
  rw [List.filterMap_filter, List.filter_filterMap]
  refine List.filterMap_congr fun entry _ => ?_
  cases mapped : rowOf s.startMs entry with
  | none => simp
  | some row =>
    have named := rowOf_traceId mapped
    by_cases same : row.traceId = traceId <;> simp [named, Json.pyEq, Option.filter, same]

/-- A repeated row is returned twice by the query of its trace. -/
theorem Exported.once (exported : Exported corpus traces s)
    (agree : SpansAgree (.init { traces }) s) : (traces.map TraceRow.spanId).Nodup := by
  by_contra repeated
  obtain ⟨id, twice⟩ : ∃ id, [id, id].Sublist (traces.map TraceRow.spanId) := by
    simpa [List.nodup_iff_sublist] using repeated
  obtain ⟨pair, found, ids⟩ := List.sublist_map_iff.mp twice
  obtain ⟨a, b, rfl⟩ : ∃ a b, pair = [a, b] :=
    List.length_eq_two.mp (by simpa using (congrArg List.length ids).symm)
  simp only [List.map_cons, List.map_nil, List.cons.injEq, and_true] at ids
  obtain ⟨rfl, same⟩ := ids
  obtain rfl := exported.consistent a (found.subset (by simp)) b (found.subset (by simp)) same
  have both : [a, a].Sublist (traces.filter fun row => row.traceId = a.traceId) := by
    simpa using found.filter fun row => decide (row.traceId = a.traceId)
  obtain ⟨rows, returned, exact_⟩ := exported.getTrace a.traceId
  obtain ⟨rows', returned', unique⟩ := agree.unique a.traceId
  obtain rfl := Except.ok.inj (returned.symm.trans returned')
  have once := (exact_.map TraceRow.spanId).nodup_iff.mp unique
  exact List.nodup_iff_sublist.mp once a.spanId (both.map TraceRow.spanId)

/-- The stores agree on every access path exactly when no span id is repeated. -/
theorem spans_agree_iff (exported : Exported corpus traces s) :
    SpansAgree (.init { traces }) s ↔ (traces.map TraceRow.spanId).Nodup := by
  refine ⟨exported.once, fun unique => ⟨?_, fun id => ?_, fun traceId => ?_, fun traceId => ?_⟩⟩
  · exact ⟨_, allSpans_fresh exported.fresh, exported.spans⟩
  · refine ⟨_, childrenOf_fresh exported.fresh id, ?_⟩
    rw [childrenOf_init]
    exact exported.spans.filter _
  · have kept : keepFirst TraceRow.spanId [] traces = traces :=
      keepFirst_eq_self unique fun _ _ => List.not_mem_nil
    obtain ⟨rows, returned, same⟩ := exported.getTrace traceId
    refine ⟨rows, returned, same.trans (List.Perm.symm ?_)⟩
    refine (sortedBy_perm _ _).trans (List.Perm.of_eq ?_)
    show (keepFirst TraceRow.spanId [] traces).filter _ = _
    rw [kept]
  · obtain ⟨rows, returned, same⟩ := exported.getTrace traceId
    refine ⟨rows, returned, ?_⟩
    rw [(same.map TraceRow.spanId).nodup_iff]
    exact unique.sublist (List.filter_sublist.map _)

end

section Sample
attribute [local instance] noNumberText

theorem chunk_positive : (0 : ℤ) < 30000 := by decide

def onePageStore (corpus : List Entry) (inRange : ∀ d ∈ corpus, InRange d) : NewRelicStore :=
  .init (onePage corpus inRange) 1000 61000 30000 200000 chunk_positive

def exportedRows (corpus : List Entry) : List TraceRow := corpus.filterMap (rowOf 1000)

theorem onePageStore_exported {corpus : List Entry} (inRange : ∀ d ∈ corpus, InRange d)
    (small : corpus.length < pageLimit) (inside : ∀ entry ∈ corpus, inWindow 1000 61000 entry = true)
    (consistent : ∀ a ∈ exportedRows corpus, ∀ b ∈ exportedRows corpus,
      a.spanId = b.spanId → a = b) :
    Exported corpus (exportedRows corpus) (onePageStore corpus inRange) where
  rows := ⟨_, toTraceRows_eq fun d member => toTraceRow_returns (inRange d member) _, .refl _⟩
  consistent := consistent
  fresh := rfl
  inside := inside
  answers := onePage_answers small inRange
  resolved _ _ chunk _ _ := few_inWindow small chunk.1 chunk.2
  traceSpans _ := .refl _

def twoSpans : List Entry := [spanEntry 1500 "t1" "s1", spanEntry 2500 "t1" "s2"]

theorem twoSpans_inRange : ∀ d ∈ twoSpans, InRange d := by simp [twoSpans, spanEntry_inRange]

theorem spans_agree_iff_once :
    SpansAgree (.init { traces := exportedRows twoSpans }) (onePageStore twoSpans twoSpans_inRange) := by
  have unique : ((exportedRows twoSpans).map TraceRow.spanId).Nodup := by decide +kernel
  exact (spans_agree_iff (onePageStore_exported twoSpans_inRange (by decide) (by decide +kernel)
    fun _ inA _ inB same => List.inj_on_of_nodup_map unique inA inB same)).mpr unique

def oneSpanTwice : List Entry := [spanEntry 1500 "t1" "s1", spanEntry 1500 "t1" "s1"]

/-- A span exported twice. -/
theorem repeated_span_returned_twice : ∃ (corpus : List Entry) (traces : List TraceRow)
    (s : NewRelicStore), Exported corpus traces s ∧ ¬ SpansAgree (.init { traces }) s := by
  have consistent : ∀ a ∈ exportedRows oneSpanTwice, ∀ b ∈ exportedRows oneSpanTwice,
      a.spanId = b.spanId → a = b := by
    intro a inA b inB _
    obtain ⟨x, atX, mapsA⟩ := List.mem_filterMap.mp inA
    obtain ⟨y, atY, mapsB⟩ := List.mem_filterMap.mp inB
    obtain rfl : x = y := by simp_all [oneSpanTwice]
    exact Option.some.inj (mapsA.symm.trans mapsB)
  have exported := onePageStore_exported (by simp [oneSpanTwice, spanEntry_inRange]) (by decide)
    (by decide +kernel) consistent
  refine ⟨_, _, _, exported, fun agree => ?_⟩
  exact absurd (exported.once agree) (by decide +kernel)

end Sample

end Sentinel.Newrelic
