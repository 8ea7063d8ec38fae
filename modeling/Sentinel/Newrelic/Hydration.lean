import Mathlib.Algebra.Order.Ring.Cast
import Mathlib.Algebra.Order.Ring.Rat
import Sentinel.Newrelic.Store

/-! Completeness of the hydration. The chunks that are not split tile the window, and
each of them comes back whole, unless a narrow one fills its page; so the index holds
one row for each span. -/
namespace Sentinel.Newrelic
open Python Fixtures Tools

/-- The timestamp lies in `[a, b)`. -/
def inWindow (a b : ℤ) (entry : Entry) : Bool :=
  ((entry.get? "timestamp").bind Json.number).any fun t : ℚ => (a : ℚ) ≤ t ∧ t < b

/-- A page holds all entries of its chunk, or as many of them as a page can. -/
structure Answers (corpus : List Entry) (client : Backend) : Prop where
  whole : ∀ n a b, (corpus.filter (inWindow a b)).length < pageLimit →
    (client.spansPage n a b).Perm (corpus.filter (inWindow a b))
  full : ∀ n a b, pageLimit ≤ (corpus.filter (inWindow a b)).length →
    (client.spansPage n a b).length = pageLimit ∧
      (client.spansPage n a b).Subperm (corpus.filter (inWindow a b))

/-- A chunk too narrow to be split fits on a page. -/
def Resolved (corpus : List Entry) (chunk : ℤ × ℤ) : Prop :=
  chunk.2 - chunk.1 ≤ minChunkMs →
    (corpus.filter (inWindow chunk.1 chunk.2)).length < pageLimit

variable {corpus : List Entry} {client : Backend} {a b m : ℤ} {entry : Entry}

theorem inWindow_iff : inWindow a b entry = true ↔
    ∃ t : ℚ, (entry.get? "timestamp").bind Json.number = some t ∧ a ≤ t ∧ t < b := by
  simp [inWindow, Option.any_eq_true]

theorem inWindow_empty (reached : b ≤ a) : inWindow a b entry = false := by
  rw [Bool.eq_false_iff]
  intro inside
  obtain ⟨t, -, low, high⟩ := inWindow_iff.mp inside
  have crossed : (a : ℚ) < b := low.trans_lt high
  exact absurd (Int.cast_lt.mp crossed) (not_lt.mpr reached)

/-- No entry falls between two chunks. -/
theorem inWindow_split (low : a ≤ m) (high : m ≤ b) :
    inWindow a b entry = true ↔ inWindow a m entry = true ∨ inWindow m b entry = true := by
  have low' : (a : ℚ) ≤ m := Int.cast_le.mpr low
  have high' : (m : ℚ) ≤ b := Int.cast_le.mpr high
  simp only [inWindow_iff]
  constructor
  · rintro ⟨t, at_t, above, below⟩
    rcases lt_or_ge t (m : ℚ) with early | late
    · exact .inl ⟨t, at_t, above, early⟩
    · exact .inr ⟨t, at_t, late, below⟩
  · rintro (⟨t, at_t, above, below⟩ | ⟨t, at_t, above, below⟩)
    · exact ⟨t, at_t, above, below.trans_le high'⟩
    · exact ⟨t, at_t, low'.trans above, below⟩

/-- A page that is not full, or not full although narrow, is the whole chunk. -/
theorem page_whole (answers : Answers corpus client) (resolved : Resolved corpus (a, b)) {n : ℕ}
    (kept : ¬ ((client.spansPage n a b).length ≥ pageLimit ∧ b - a > minChunkMs)) :
    (client.spansPage n a b).Perm (corpus.filter (inWindow a b)) := by
  apply answers.whole
  rcases Nat.lt_or_ge (corpus.filter (inWindow a b)).length pageLimit with few | many
  · exact few
  · have full := (answers.full n a b many).1
    have narrow : b - a ≤ minChunkMs := by
      by_contra wide
      exact kept ⟨full.ge, not_le.mp wide⟩
    exact resolved narrow

theorem fetchChunk_pages (pages : List (ℤ × ℤ)) :
    pages <+: (fetchChunk client pages a b).2 := by
  fun_induction fetchChunk client pages a b with
  | case1 pages a b results pages' splits middle first second ih₁ _ ih₂ =>
    exact (List.prefix_append _ _).trans (ih₁.trans ih₂)
  | case2 pages a b results pages' kept => exact List.prefix_append _ _

/-- A chunk is fetched whole if the narrow chunks queried for it fit on their pages. -/
theorem mem_fetchChunk (answers : Answers corpus client) (pages : List (ℤ × ℤ))
    (resolved : ∀ chunk ∈ (fetchChunk client pages a b).2, Resolved corpus chunk) :
    entry ∈ (fetchChunk client pages a b).1 ↔ entry ∈ corpus ∧ inWindow a b entry = true := by
  fun_induction fetchChunk client pages a b with
  | case1 pages a b results pages' splits middle first second ih₁ _ ih₂ =>
    have wide := splits.2
    have positive : (0 : ℤ) < minChunkMs := by decide
    have early := ih₁ fun chunk queried =>
      resolved chunk ((fetchChunk_pages first.2).subset queried)
    have late := ih₂ resolved
    have split : inWindow a b entry = true ↔ _ :=
      inWindow_split (m := middle) (by omega) (by omega)
    rw [List.mem_append, early, late, split, and_or_left]
  | case2 pages a b results pages' kept =>
    have queried : (a, b) ∈ pages' := List.mem_append_right _ (List.mem_singleton_self _)
    rw [(page_whole answers (resolved _ queried) kept).mem_iff, List.mem_filter]

theorem fetchWindow_pages (s : NewRelicStore) (pages : List (ℤ × ℤ)) (cursor : ℤ) :
    pages <+: (s.fetchWindow pages cursor).2 := by
  fun_induction s.fetchWindow pages cursor with
  | case1 pages cursor inside upper chunk rest ih =>
    exact (fetchChunk_pages pages).trans ih
  | case2 pages cursor past => exact List.prefix_refl _

theorem mem_fetchWindow (s : NewRelicStore) (answers : Answers corpus s.client)
    (pages : List (ℤ × ℤ)) (cursor : ℤ)
    (resolved : ∀ chunk ∈ (s.fetchWindow pages cursor).2, Resolved corpus chunk) :
    entry ∈ (s.fetchWindow pages cursor).1 ↔
      entry ∈ corpus ∧ inWindow cursor s.endMs entry = true := by
  fun_induction s.fetchWindow pages cursor with
  | case1 pages cursor inside upper chunk rest ih =>
    have positive := s.positive
    have early : entry ∈ chunk.1 ↔ _ := mem_fetchChunk answers pages fun piece queried =>
      resolved piece ((fetchWindow_pages s chunk.2 upper).subset queried)
    have late := ih resolved
    have split : inWindow cursor s.endMs entry = true ↔ _ :=
      inWindow_split (m := upper) (by omega) (by omega)
    rw [List.mem_append, early, late, split, and_or_left]
  | case2 pages cursor past =>
    simp [inWindow_empty (not_lt.mp past)]

theorem fetchChunk_inRange (pages : List (ℤ × ℤ)) :
    ∀ d ∈ (fetchChunk client pages a b).1, InRange d := by
  fun_induction fetchChunk client pages a b with
  | case1 pages a b results pages' splits middle first second ih₁ _ ih₂ =>
    exact List.forall_mem_append.mpr ⟨ih₁, ih₂⟩
  | case2 pages a b results pages' kept => exact client.pageInRange _ _ _

theorem fetchWindow_inRange (s : NewRelicStore) (pages : List (ℤ × ℤ)) (cursor : ℤ) :
    ∀ d ∈ (s.fetchWindow pages cursor).1, InRange d := by
  fun_induction s.fetchWindow pages cursor with
  | case1 pages cursor inside upper chunk rest ih =>
    exact List.forall_mem_append.mpr ⟨fetchChunk_inRange pages, ih⟩
  | case2 pages cursor past => simp

section
variable [NumberText]

/-- The rows of the fetched entries, repeated as the entries are. -/
def NewRelicStore.fetchedRows (s : NewRelicStore) : List TraceRow :=
  (s.fetchWindow s.pages s.startMs).1.filterMap (rowOf s.startMs)

/-- A store after its hydration. -/
def NewRelicStore.hydrated (s : NewRelicStore) : NewRelicStore :=
  let spans := keepFirst TraceRow.spanId [] s.fetchedRows
  { s with
    spans := some spans
    children := collect parentOf .empty spans
    pages := (s.fetchWindow s.pages s.startMs).2 }

theorem hydrate_fresh {s : NewRelicStore} (fresh : s.spans = none) :
    s.hydrate = .ok s.hydrated := by
  have mapped := toTraceRows_eq fun d member =>
    toTraceRow_returns (fetchWindow_inRange s s.pages s.startMs d member) s.startMs
  rw [NewRelicStore.hydrate, fresh]
  dsimp only
  rw [mapped]
  rfl

theorem allSpans_fresh {s : NewRelicStore} (fresh : s.spans = none) :
    s.allSpans = .ok (keepFirst TraceRow.spanId [] s.fetchedRows) := by
  rw [NewRelicStore.allSpans, hydrate_fresh fresh]
  rfl

/-- The hydration ends, and unless some narrow chunk holds a full page, the index has
exactly one row for each span id among the entries of the window that map to a row,
and no other row. -/
theorem hydration_complete {s : NewRelicStore} (answers : Answers corpus s.client)
    (fresh : s.spans = none) :
    ∃ hydrated spans, s.hydrate = .ok hydrated ∧ s.allSpans = .ok spans ∧
      ((∀ chunk ∈ hydrated.pages, Resolved corpus chunk) →
        (spans.map TraceRow.spanId).Nodup ∧
          (∀ row ∈ spans, ∃ entry ∈ corpus, inWindow s.startMs s.endMs entry = true ∧
            toTraceRow entry s.startMs = .ok (some row)) ∧
          ∀ entry ∈ corpus, inWindow s.startMs s.endMs entry = true →
            ∀ row, toTraceRow entry s.startMs = .ok (some row) →
              ∃ kept ∈ spans, kept.spanId = row.spanId) := by
  refine ⟨_, _, hydrate_fresh fresh, allSpans_fresh fresh, fun resolved => ?_⟩
  refine ⟨keepFirst_nodup _ _ _, fun row kept => ?_, fun entry member inside row mapped => ?_⟩
  · obtain ⟨entry, fetched, mapped⟩ := List.mem_filterMap.mp (mem_keepFirst kept).1
    obtain ⟨member, inside⟩ := (mem_fetchWindow s answers s.pages s.startMs resolved).mp fetched
    exact ⟨entry, member, inside, rowOf_eq_some.mp mapped⟩
  · have fetched := (mem_fetchWindow s answers s.pages s.startMs resolved).mpr ⟨member, inside⟩
    exact keepFirst_covers (List.mem_filterMap.mpr ⟨entry, fetched, rowOf_eq_some.mpr mapped⟩)
      List.not_mem_nil

end

section Sample

/-- Answers from a corpus that fits on one page. -/
def onePage (corpus : List Entry) (inRange : ∀ d ∈ corpus, InRange d) : Backend where
  spansPage _ a b := corpus.filter (inWindow a b)
  traceSpans traceId := corpus.filter fun entry =>
    ((entry.get? "trace.id").getD .null).pyEq (.str traceId)
  pageInRange _ _ _ d member := inRange d (List.mem_of_mem_filter member)
  traceInRange _ d member := inRange d (List.mem_of_mem_filter member)

theorem few_inWindow (small : corpus.length < pageLimit) (a b : ℤ) :
    (corpus.filter (inWindow a b)).length < pageLimit :=
  (List.length_filter_le _ _).trans_lt small

theorem onePage_answers (small : corpus.length < pageLimit) (inRange : ∀ d ∈ corpus, InRange d) :
    Answers corpus (onePage corpus inRange) where
  whole _ _ _ _ := List.Perm.refl _
  full _ a b many := absurd (few_inWindow small a b) (not_lt.mpr many)

@[reducible] def noNumberText : NumberText := ⟨fun _ => none, fun _ => none⟩

attribute [local instance] noNumberText

def spanEntry (timestamp : ℤ) (traceId spanId : String) : Entry where
  items := [("timestamp", .int timestamp), ("trace.id", .str traceId), ("id", .str spanId),
    ("name", .str "charge"), ("service.name", .str "payment"), ("duration.ms", .float 1)]
  unique := by simp

theorem spanEntry_inRange (timestamp : ℤ) (traceId spanId : String) :
    InRange (spanEntry timestamp traceId spanId) := by
  intro n held
  cases held

/-- One span exported twice, one at the end of the window and one without a name. -/
def exportedTwice : List Entry :=
  [spanEntry 1500 "t1" "s1", spanEntry 1500 "t1" "s1", spanEntry 61000 "t1" "s2",
    spanEntry 40000 "t1" ""]

theorem exportedTwice_inRange : ∀ d ∈ exportedTwice, InRange d := by
  simp [exportedTwice, spanEntry_inRange]

def exportedStore : NewRelicStore :=
  .init (onePage exportedTwice exportedTwice_inRange) 1000 61000 30000 200000 (by decide)

theorem hydration_complete_twice : ∃ spans, exportedStore.allSpans = .ok spans ∧
    (spans.map TraceRow.spanId).Nodup ∧ ∃ kept ∈ spans, kept.spanId = "s1" := by
  have small : exportedTwice.length < pageLimit := by decide
  obtain ⟨_, spans, -, listed, complete⟩ :=
    hydration_complete (onePage_answers small exportedTwice_inRange) (rfl : exportedStore.spans = none)
  obtain ⟨unique, -, covered⟩ := complete fun chunk _ _ => few_inWindow small chunk.1 chunk.2
  have maps : (rowOf 1000 (spanEntry 1500 "t1" "s1")).any (fun row => row.spanId == "s1") := by
    decide +kernel
  obtain ⟨row, mapped, named⟩ := (Option.any_eq_true ..).mp maps
  obtain ⟨kept, member, same⟩ :=
    covered _ List.mem_cons_self (by decide +kernel) row (rowOf_eq_some.mp mapped)
  exact ⟨spans, listed, unique, kept, member, same.trans (eq_of_beq named)⟩

end Sample

end Sentinel.Newrelic
