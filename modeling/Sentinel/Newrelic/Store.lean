import Sentinel.Newrelic.Mapping
import Sentinel.Tools.Store

/-! The live store over New Relic: direct trace queries, and the span index that is
hydrated once. The window is cut into chunks, a chunk that fills a page is halved
until it is too narrow. -/
namespace Sentinel.Newrelic
open Python Fixtures Tools

def ingestLagMs : ℤ := 30000
def minChunkMs : ℤ := 2000
def pageLimit : ℕ := 5000

/-- The answers of the client, to the span query of a chunk after so many pages and
to the query of a trace. The backend keeps numbers as floats, so it answers no integer that
is none. -/
structure Backend where
  spansPage : ℕ → ℤ → ℤ → List Entry
  traceSpans : String → List Entry
  pageInRange : ∀ n a b, ∀ d ∈ spansPage n a b, InRange d
  traceInRange : ∀ traceId, ∀ d ∈ traceSpans traceId, InRange d

/-- A store with chunks of a positive width. -/
structure NewRelicStore where
  client : Backend
  startMs : ℤ
  endMs : ℤ
  chunkMs : ℤ
  spans : Option (List TraceRow) := none
  children : Dict String (List TraceRow) := .empty
  -- the chunks queried so far; stats["hydration_pages"] is their number
  pages : List (ℤ × ℤ) := []
  positive : 0 < chunkMs

namespace NewRelicStore

/-- `__init__`, at the time `now`. -/
def init (client : Backend) (windowStartMs windowEndMs chunkMs now : ℤ) (positive : 0 < chunkMs) :
    NewRelicStore :=
  { client, startMs := windowStartMs, endMs := min windowEndMs (now - ingestLagMs), chunkMs, positive }

end NewRelicStore

/-- `_fetch_chunk`, with the chunks queried so far. -/
def fetchChunk (client : Backend) (pages : List (ℤ × ℤ)) (startMs endMs : ℤ) :
    List Entry × List (ℤ × ℤ) :=
  let results := client.spansPage pages.length startMs endMs
  let pages := pages ++ [(startMs, endMs)]
  if results.length ≥ pageLimit ∧ endMs - startMs > minChunkMs then
    let middle := (startMs + endMs) / 2
    let first := fetchChunk client pages startMs middle
    let second := fetchChunk client first.2 middle endMs
    (first.1 ++ second.1, second.2)
  else (results, pages)
termination_by (endMs - startMs).toNat
decreasing_by
  all_goals
    have : (0 : ℤ) < minChunkMs := by decide
    omega

namespace NewRelicStore

/-- The loop of `_hydrate` over the chunks of the window. -/
def fetchWindow (s : NewRelicStore) (pages : List (ℤ × ℤ)) (cursor : ℤ) :
    List Entry × List (ℤ × ℤ) :=
  if cursor < s.endMs then
    let upper := min (cursor + s.chunkMs) s.endMs
    let chunk := fetchChunk s.client pages cursor upper
    let rest := s.fetchWindow chunk.2 upper
    (chunk.1 ++ rest.1, rest.2)
  else ([], pages)
termination_by (s.endMs - cursor).toNat
decreasing_by have := s.positive; omega

section
variable [NumberText]

def hydrate (s : NewRelicStore) : Py NewRelicStore :=
  match s.spans with
  | some _ => pure s
  | none => do
    let raw := s.fetchWindow s.pages s.startMs
    let spans := keepFirst TraceRow.spanId [] (← toTraceRows raw.1 s.startMs)
    pure { s with spans := some spans, children := collect parentOf .empty spans, pages := raw.2 }

def allSpans (s : NewRelicStore) : Py (List TraceRow) := do
  let s ← s.hydrate
  pure (s.spans.getD [])

def childrenOf (s : NewRelicStore) (spanId : String) : Py (List TraceRow) := do
  let s ← s.hydrate
  pure ((s.children.get? spanId).getD [])

def getTrace (s : NewRelicStore) (traceId : String) : Py (List TraceRow) := do
  let spans ← toTraceRows (s.client.traceSpans traceId) s.startMs
  pure (sortedBy traceOrder spans)

end

end NewRelicStore

end Sentinel.Newrelic
