import Sentinel.Python.Exn
import Sentinel.Python.Json

/-! The shared NerdGraph client: NRQL execution behind a cache keyed by the query
text. Its lock covers only the lookup and the store, so a call takes four steps:
it reads the clock, looks up, lets the backend answer and stores the response. -/
namespace Sentinel.Newrelic
open Python

/-- What the client depends on, as functions of the instant. -/
structure Env where
  -- the answer that `_execute(query)` ends with, its retries behind it
  backend : ℕ → String → Py (List Json)
  -- `time.monotonic()`
  monotonic : ℕ → ℚ
  cacheTtlS : ℚ := 120

/-- A cached response, with the instant at which the backend gave it. -/
structure CacheEntry where
  storedAt : ℚ
  results : List Json
  answeredAt : ℕ

abbrev Cache := Dict String CacheEntry

/-- A call of `nrql`, as far as it has come. -/
inductive NrqlCall where
  | entered (query : String)
  | looking (query : String) (now : ℚ)
  | executing (query : String)
  | storing (query : String) (results : List Json) (answeredAt : ℕ)
  | returned (results : List Json) (answeredAt : ℕ)
  | raised (e : Exn)

def NrqlCall.next (env : Env) (cache : Cache) (n : ℕ) : NrqlCall → Cache × NrqlCall
  | .entered query => (cache, .looking query (env.monotonic n))
  | .looking query now =>
    match cache.get? query with
    | some hit =>
      if now - hit.storedAt < env.cacheTtlS then (cache, .returned hit.results hit.answeredAt)
      else (cache, .executing query)
    | none => (cache, .executing query)
  | .executing query =>
    match env.backend n query with
    | .ok results => (cache, .storing query results n)
    | .error e => (cache, .raised e)
  | .storing query results answeredAt =>
    (cache.set query ⟨env.monotonic n, results, answeredAt⟩, .returned results answeredAt)
  | .returned results answeredAt => (cache, .returned results answeredAt)
  | .raised e => (cache, .raised e)

/-- The backend answered `query` with `results`: before the instant `n`, and after
that of `since`. -/
structure Served (env : Env) (query : String) (since : Option ℕ) (n : ℕ) (results : List Json)
    (answeredAt : ℕ) : Prop where
  answer : env.backend answeredAt query = .ok results
  late : ∀ m ∈ since, m < answeredAt
  past : answeredAt < n

/-- Every cached response is what the backend answered to its query. -/
def Truthful (env : Env) (n : ℕ) (cache : Cache) : Prop :=
  ∀ query hit, cache.get? query = some hit → Served env query none n hit.results hit.answeredAt

/-- The call asks `query`, and what it got so far the backend served. -/
def NrqlCall.Asks (env : Env) (query : String) (since : Option ℕ) (n : ℕ) : NrqlCall → Prop
  | .entered q | .looking q _ | .executing q => q = query
  | .storing q results answeredAt => q = query ∧ Served env query since n results answeredAt
  | .returned results answeredAt => Served env query since n results answeredAt
  | .raised _ => True

section
variable {env : Env} {cache : Cache} {query : String} {since : Option ℕ} {n n' : ℕ}

theorem Served.mono {results : List Json} {answeredAt : ℕ}
    (served : Served env query since n results answeredAt) (later : n ≤ n') :
    Served env query since n' results answeredAt :=
  ⟨served.answer, served.late, served.past.trans_le later⟩

theorem Truthful.mono (truthful : Truthful env n cache) (later : n ≤ n') : Truthful env n' cache :=
  fun query hit found => (truthful query hit found).mono later

theorem NrqlCall.Asks.mono {call : NrqlCall} (asks : call.Asks env query since n)
    (later : n ≤ n') : call.Asks env query since n' := by
  cases call with
  | storing q results answeredAt => exact ⟨asks.1, Served.mono asks.2 later⟩
  | returned results answeredAt => exact Served.mono asks later
  | entered | looking | executing | raised => exact asks

theorem truthful_empty : Truthful env n Dict.empty := by
  intro query hit found
  cases found

/-- A step of a call keeps the cache truthful, and its own response late enough if
the cache serves it none from before `since`. -/
theorem next_asks {call : NrqlCall} (asks : call.Asks env query since n)
    (truthful : Truthful env n cache) (now : ∀ m ∈ since, m < n)
    (served : ∀ t, call = .looking query t → ∀ hit ∈ cache.get? query,
      t - hit.storedAt < env.cacheTtlS → ∀ m ∈ since, m < hit.answeredAt) :
    (call.next env cache n).2.Asks env query since (n + 1) ∧
      Truthful env (n + 1) (call.next env cache n).1 := by
  have kept : Truthful env (n + 1) cache := truthful.mono n.le_succ
  cases call with
  | entered q => exact ⟨asks, kept⟩
  | looking q t =>
    obtain rfl : q = query := asks
    simp only [NrqlCall.next]
    split
    · rename_i hit found
      split
      · rename_i young
        have response := kept q hit found
        exact ⟨⟨response.answer, served t rfl hit found young, response.past⟩, kept⟩
      · exact ⟨rfl, kept⟩
    · exact ⟨rfl, kept⟩
  | executing q =>
    obtain rfl : q = query := asks
    simp only [NrqlCall.next]
    split
    · rename_i results answered
      exact ⟨⟨rfl, answered, now, n.lt_succ_self⟩, kept⟩
    · exact ⟨trivial, kept⟩
  | storing q results answeredAt =>
    obtain ⟨rfl, response⟩ := asks
    have late := response.mono n.le_succ
    refine ⟨late, fun query hit found => ?_⟩
    simp only [NrqlCall.next, Dict.get?_set] at found
    split at found
    · rename_i same
      cases found
      rw [same]
      exact ⟨late.answer, nofun, late.past⟩
    · exact kept query hit found
  | returned results answeredAt => exact ⟨Served.mono asks n.le_succ, kept⟩
  | raised e => exact ⟨trivial, kept⟩

end

end Sentinel.Newrelic
