import Sentinel.Tools.OriginSoundness

/-! Where the two ways to attribute a fault agree. One follows the deepest error spans and the
other counts the error spans of each service and call; they name the same fault where the
deepest error spans are all about one fault that also has the most error spans. -/
namespace Sentinel.Tools
open Python Fixtures

section
variable [LowerCase] [UpperCase]

/-- The number of erring server spans of a service. -/
def erringServers (rows : List TraceRow) (name : String) : ℕ :=
  rows.countP fun r => isError r && (spanKind r = some "server" && r.service = name)

/-- The number of erring client spans from a caller to a callee. -/
def erringCalls (rows : List TraceRow) (call : String × Option String) : ℕ :=
  rows.countP fun r =>
    isError r && (spanKind r = some "client" && (r.service, (storeOf rows).calleeOf r) = call)

/-- No span errs; or the deepest error spans all speak for one service, and no other service
has as many erring server spans; or no server span errs, the deepest error spans all speak for
one call, and no other call has as many erring client spans. -/
inductive OneFault (rows : List TraceRow) : Prop
  | clean (none : ∀ r ∈ rows, isError r = false)
  | service (name : String)
      (deepest : ∀ r ∈ rows, Deepest rows r → Supports rows r (.service name))
      (most : ∀ other, other ≠ name → erringServers rows other < erringServers rows name)
  | edge (caller callee : String) (servers : ∀ name, ¬ ServerErrs rows name)
      (deepest : ∀ r ∈ rows, Deepest rows r → Supports rows r (.edge caller callee))
      (most : ∀ other, other ≠ (caller, some callee) →
        erringCalls rows other < erringCalls rows (caller, some callee))

variable {rows : List TraceRow} (distinct : (rows.map TraceRow.spanId).Nodup)
include distinct

theorem errorSpans_perm : (errorSpans (storeOf rows)).Perm (rows.filter isError) := by
  have capitals : UpperCase.upper "ERROR" = "ERROR" := UpperCase.upper_capitals _ (by simp)
  have wanted : ({ status := some "ERROR" } : SpanFilter).wants (storeOf rows).calleeOf = isError := by
    funext r
    simp [SpanFilter.wants, Tools.given, capitals, isError]
  have found := sortedBy_perm spanOrder (rows.filter isError)
  rwa [errorSpans, FixtureStore.findSpans, filterSpans, wanted, spans_storeOf distinct]

theorem count_serverErring (name : String) :
    ((serverErring (storeOf rows)).countP fun other => other = name) = erringServers rows name := by
  rw [serverErring, List.countP_map, List.countP_filter,
    (errorSpans_perm distinct).countP_eq, List.countP_filter, erringServers]
  apply List.countP_congr
  intro r _
  simp [and_comm]

theorem count_callsErring (call : String × Option String) :
    ((callsErring (storeOf rows)).countP fun other => other = call) = erringCalls rows call := by
  rw [callsErring, List.countP_map, List.countP_filter,
    (errorSpans_perm distinct).countP_eq, List.countP_filter, erringCalls]
  apply List.countP_congr
  intro r _
  simp [and_comm]

theorem leads_votes (erred : ∃ r ∈ rows, isError r = true) {a : Answer}
    (all : ∀ r ∈ rows, Deepest rows r → Supports rows r a) :
    Leads ((deepest (storeOf rows)).map (voteOf (storeOf rows))) a.vote := by
  have cast : ∀ vote ∈ votes rows, vote = a.vote := by
    intro vote member
    obtain ⟨r, inFrontier, rfl⟩ := List.mem_map.mp member
    obtain ⟨inRows, deepest⟩ := List.mem_filter.mp inFrontier
    exact ((supports_iff distinct r a).mp (all r inRows (of_decide_eq_true deepest))).1
  have filled : (storeOf rows).spans.filter isError ≠ [] := by
    obtain ⟨r, member, errs⟩ := erred
    rw [spans_storeOf distinct]
    exact List.ne_nil_of_mem (List.mem_filter.mpr ⟨member, errs⟩)
  obtain ⟨r, member⟩ := List.exists_mem_of_ne_nil _ (deepest_nonempty filled)
  rw [deepest_storeOf distinct] at member ⊢
  have met : voteOf (storeOf rows) r ∈ votes rows := List.mem_map_of_mem member
  have same := cast _ met
  exact leads_of_forall (same ▸ met) cast

theorem aligned_of_oneFault (one : OneFault rows) : Aligned (storeOf rows) := by
  by_cases erred : ∃ r ∈ rows, isError r = true
  · cases one with
    | clean none =>
      obtain ⟨r, member, errs⟩ := erred
      exact absurd errs (by simp [none r member])
    | service name deepest most =>
      have another : name ++ "s" ≠ name := by simp
      refine .service name (leads_of_most another fun other ne => ?_)
        (leads_votes distinct erred deepest)
      rw [count_serverErring distinct, count_serverErring distinct]
      exact most other ne
    | edge caller callee servers deepest most =>
      have quiet : serverErring (storeOf rows) = [] := by
        refine List.eq_nil_iff_forall_not_mem.mpr fun name member => ?_
        have positive : 0 < (serverErring (storeOf rows)).countP fun other => other = name :=
          List.countP_pos_iff.mpr ⟨name, member, decide_eq_true rfl⟩
        rw [count_serverErring distinct, erringServers, List.countP_pos_iff] at positive
        obtain ⟨r, inRows, counts⟩ := positive
        simp only [Bool.and_eq_true, decide_eq_true_eq] at counts
        exact servers name ⟨r, inRows, counts⟩
      have another : (caller, none) ≠ (caller, some callee) := by simp
      refine .edge caller callee quiet (leads_of_most another fun other ne => ?_)
        (leads_votes distinct erred deepest)
      rw [count_callsErring distinct, count_callsErring distinct]
      exact most other ne
  · refine .clean ?_
    rw [spans_storeOf distinct, List.filter_eq_nil_iff]
    intro r member errs
    exact erred ⟨r, member, errs⟩

end

section
variable [LowerCase] [UpperCase] [StrRepr]

/-- Where the error spans of a store are about one fault, both tools name it. -/
theorem attribution_paths_agree (fixture : PublicFixture)
    (one : OneFault (FixtureStore.init fixture).spans) : PathsAgree (.init fixture) := by
  have distinct : ((FixtureStore.init fixture).spans.map TraceRow.spanId).Nodup :=
    keepFirst_nodup TraceRow.spanId [] fixture.traces
  -- neither tool reads anything but the spans and their index
  have same : storeOf (FixtureStore.init fixture).spans =
      { FixtureStore.init fixture with
        fixture := { traces := (FixtureStore.init fixture).spans } } := by
    have kept := spans_storeOf distinct
    simp only [storeOf, FixtureStore.init] at kept ⊢
    rw [kept]
  have agree := agree_of_aligned (aligned_of_oneFault distinct one)
  rw [same] at agree
  exact agree

end

section Sample
attribute [local instance] asciiLowerCase asciiUpperCase quoted

/-- A call of checkout to payment that fails because payment does. -/
def failedPayment : PublicFixture where
  traces :=
    [sampleSpan "f1" "" "checkout" "OK" "server" (by decide),
      sampleSpan "f2" "f1" "checkout" "ERROR" "client" (by decide),
      sampleSpan "f3" "f2" "payment" "ERROR" "server" (by decide)]

theorem failedPayment_agrees : PathsAgree (.init failedPayment) := by
  refine attribution_paths_agree failedPayment (.service "payment" ?_ fun other ne => ?_)
  · intro r member deepest
    have leaves : ∀ r ∈ (FixtureStore.init failedPayment).spans,
        Leaf (FixtureStore.init failedPayment).spans r →
          Supports (FixtureStore.init failedPayment).spans r (.service "payment") := by
      decide +kernel
    exact leaves r member deepest.1
  · have only : ∀ r ∈ (FixtureStore.init failedPayment).spans,
        (isError r && spanKind r = some "server") = true → r.service = "payment" := by
      decide +kernel
    have none : erringServers (FixtureStore.init failedPayment).spans other = 0 := by
      refine List.countP_eq_zero.mpr fun r member counts => ?_
      simp only [Bool.and_eq_true, decide_eq_true_eq] at counts
      exact ne (counts.2.2.symm.trans (only r member (by simp [counts])))
    rw [none]
    decide +kernel

end Sample

end Sentinel.Tools
