import Mathlib.Data.Finset.Card
import Sentinel.Python.Counter
import Sentinel.Tools.Spans

/-! Trace tools: the dependency graph, the deepest spans of the error frontier with the
fault that each of them speaks for, and the error spans counted by service and kind. -/
namespace Sentinel.Tools
open Python Fixtures

/-- `repr(text)`. -/
class StrRepr where
  repr : String → String

inductive FaultKind where
  | service | edge | unknown
  deriving DecidableEq, Repr

structure Origin where
  classification : FaultKind
  service : Option String := none
  caller : Option String := none
  callee : Option String := none
  spanKind : Option String := none
  firstErrorSecond : Option ℤ := none
  traceId : Option String := none
  evidence : List String := []

inductive Role where
  | server | client
  deriving DecidableEq, Repr

structure FaultObservation where
  service : String
  role : Role
  errorCount : ℕ
  callee : Option String := none
  deriving DecidableEq

structure Topology where
  services : List String
  edges : List (String × String)

/-- The number of steps from a span up to one without a known parent, or seen before. -/
def climb (byId : Dict String TraceRow) (seen : List String) (cur : TraceRow) : ℕ :=
  match found : (parentOf cur).bind byId.get? with
  | none => 0
  | some up => if cur.spanId ∈ seen then 0 else climb byId (cur.spanId :: seen) up + 1
termination_by ((cur.spanId :: byId.values.map TraceRow.spanId).toFinset \ seen.toFinset).card
decreasing_by
  rename_i fresh
  obtain ⟨id, -, known⟩ := Option.bind_eq_some_iff.mp found
  have indexed : up.spanId ∈ byId.values.map TraceRow.spanId :=
    List.mem_map_of_mem (List.mem_map_of_mem (f := Prod.snd) ((Dict.mem_items_iff byId).mpr known))
  refine Finset.card_lt_card (Finset.ssubset_iff.mpr ⟨cur.spanId, by simp, ?_⟩)
  intro id member
  simp only [List.toFinset_cons, Finset.mem_insert, Finset.mem_sdiff, List.mem_toFinset, not_or] at member ⊢
  rcases member with rfl | ⟨rfl | inside, _, unseen⟩
  · exact ⟨.inl rfl, fresh⟩
  · exact ⟨.inr indexed, unseen⟩
  · exact ⟨.inr inside, unseen⟩

/-- `depth`, for the spans of a store by their ids. -/
def depth (spans : List TraceRow) (span : TraceRow) : ℕ :=
  climb (spans.foldl (fun d r => d.set r.spanId r) .empty) [] span

/-- What a span of the frontier votes for: the kind of fault, the service, the caller and
the callee. -/
abbrev Vote := FaultKind × String × String × String

section
variable [LowerCase]

/-- `traces_build_topology`, over the services that the store lists. -/
def buildTopology (listed : List String) (s : FixtureStore) : Topology :=
  let edges := (s.allSpans.filter fun span => spanKind span = some "client").filterMap fun span =>
    (given (s.calleeOf span)).bind fun callee =>
      if callee = span.service then none else some (span.service, callee)
  { services := sortedBy id (keepFirst id [] (listed ++ edges.map Prod.snd))
    edges := sortedBy toLex (keepFirst id [] edges) }

variable [UpperCase]

/-- `_is_error`. -/
def isError (row : TraceRow) : Bool := UpperCase.upper row.status = "ERROR"

def serverErrorServices (s : FixtureStore) : List String :=
  (s.spans.filter fun r => isError r && spanKind r = some "server").map TraceRow.service

/-- Whether a span has the id of an error span. -/
def erring (s : FixtureStore) (r : TraceRow) : Bool :=
  r.spanId ∈ (s.spans.filter isError).map TraceRow.spanId

/-- The error spans without erring children, or all if each has one. -/
def leaves (s : FixtureStore) : List TraceRow :=
  let found := s.spans.filter fun r => erring s r && !(s.childrenOf r.spanId).any (erring s)
  if found.isEmpty then s.spans.filter (erring s) else found

def maxDepth (s : FixtureStore) : ℕ := (((leaves s).map (depth s.spans)).max?).getD 0

def deepest (s : FixtureStore) : List TraceRow :=
  (leaves s).filter fun r => depth s.spans r = maxDepth s

def voteOf (s : FixtureStore) (r : TraceRow) : Vote :=
  if spanKind r = some "client" then
    let callee := (given (s.calleeOf r)).getD "unknown"
    if callee ∈ serverErrorServices s then (.service, callee, "", "") else (.edge, "", r.service, callee)
  else (.service, r.service, "", "")

variable [StrRepr]

/-- `traces_error_origin`. -/
def errorOrigin (s : FixtureStore) : Origin :=
  let errors := s.spans.filter isError
  match minBy traceOrder errors, mostCommon (tally ((deepest s).map (voteOf s))), deepest s with
  | some first, some (kind, service, caller, callee), sample :: _ =>
    let services := sortedBy id (keepFirst id [] (serverErrorServices s))
    { classification := kind
      service := given (some service)
      caller := given (some caller)
      callee := given (some callee)
      spanKind := spanKind sample
      firstErrorSecond := some first.time
      traceId := some sample.traceId
      evidence :=
        [s!"deepest error frontier: {(deepest s).length} span(s) at depth {maxDepth s}",
          "services with erroring server spans: " ++
            if services.isEmpty then "none"
            else "[" ++ String.intercalate ", " (services.map StrRepr.repr) ++ "]"] }
  | _, _, _ => { classification := .unknown, evidence := ["no error spans found"] }

end

section
variable [LowerCase] [UpperCase]

/-- What an error span counts for. -/
def countedAs (s : FixtureStore) (span : TraceRow) : Option (String × Role × Option String) :=
  match spanKind span with
  | some "server" => some (span.service, .server, none)
  | some "client" => some (span.service, .client, s.calleeOf span)
  | _ => none

/-- `traces_error_summary`. -/
def errorSummary (s : FixtureStore) (start : Option ℤ) : List FaultObservation :=
  let counts := tally ((s.findSpans { status := some "ERROR", start }).filterMap (countedAs s))
  let observations := counts.items.map fun ((service, role, callee), n) =>
    ({ service, role, errorCount := n, callee } : FaultObservation)
  sortedBy (fun o => OrderDual.toDual o.errorCount) observations

end

end Sentinel.Tools
