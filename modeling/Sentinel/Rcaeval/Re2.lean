import Sentinel.Tools.Traces

/-! Spans of an RE2 case, which carry no span kind: the kind is inferred from calls
between services, and one span has one kind only. What the inferred kinds leave of the
calls in the dependency graph. -/
namespace Sentinel.Rcaeval
open Python Fixtures Tools

/-- A span as `load_traces` collects it. -/
structure Re2Span where
  traceId : String
  spanId : String
  parent : Option String := none
  time : ℤ
  service : String
  operation : String
  durationMs : ℚ
  isErr : Bool
  named : traceId ≠ "" ∧ spanId ≠ "" ∧ parent ≠ some "" ∧ service ≠ "" ∧ operation ≠ "" := by decide
  nonneg : 0 ≤ time ∧ 0 ≤ durationMs := by decide

/-- The spans of a case, each id once. -/
structure Re2Case where
  spans : List Re2Span
  unique : (spans.map Re2Span.spanId).Nodup

def spanService (spans : List Re2Span) : Dict String String :=
  spans.foldl (fun d s => d.set s.spanId s.service) .empty

def spanParent (spans : List Re2Span) : Dict String String :=
  spans.foldl (fun d s => s.parent.elim d fun parent => d.set s.spanId parent) .empty

/-- Whether the parent is a known span of another service. -/
def crosses (spanService : Dict String String) (link : String × String) : Bool :=
  match spanService.get? link.2 with
  | none => false
  | some parentService => decide (some parentService ≠ spanService.get? link.1)

/-- `_infer_span_kinds`. -/
def inferSpanKinds (spanService spanParent : Dict String String) : Dict String String :=
  let links := spanParent.items.filter (crosses spanService)
  let serverIds := links.map Prod.fst
  let clientIds := links.map Prod.snd
  .ofKeys (spanService.items.map Prod.fst) spanService.unique fun id =>
    if id ∈ clientIds then "client" else if id ∈ serverIds then "server" else "internal"

def toRow (kinds : Dict String String) (s : Re2Span) : TraceRow where
  traceId := s.traceId
  spanId := s.spanId
  parentSpanId := s.parent
  time := s.time
  service := s.service
  operation := s.operation
  durationMs := s.durationMs
  status := if s.isErr then "ERROR" else "OK"
  attributes := [("span.kind", .str ((kinds.get? s.spanId).getD "internal"))]
  named := by
    obtain ⟨trace, span, -, service, operation⟩ := s.named
    refine ⟨trace, span, service, operation, ?_⟩
    split <;> decide
  nonneg := s.nonneg

/-- The rows of the spans that the window and the cap on whole traces keep. -/
def loadTraces (c : Re2Case) (kept : Re2Span → Bool) : List TraceRow :=
  (c.spans.filter kept).map (toRow (inferSpanKinds (spanService c.spans) (spanParent c.spans)))

/-- The store of the converted case. -/
def caseStore (c : Re2Case) (kept : Re2Span → Bool) : FixtureStore :=
  .init { traces := loadTraces c kept }

/-- Whether the span has a child in another service. -/
def calls (spans : List Re2Span) (s : Re2Span) : Bool :=
  spans.any fun child => decide (child.parent = some s.spanId) && decide (child.service ≠ s.service)

/-- Whether the parent of the span is in another service. -/
def called (spans : List Re2Span) (s : Re2Span) : Bool :=
  spans.any fun parent => decide (s.parent = some parent.spanId) && decide (parent.service ≠ s.service)

/-- The kept children that run in another service and call none themselves. -/
def served (c : Re2Case) (kept : Re2Span → Bool) (q : Re2Span) : List Re2Span :=
  (c.spans.filter kept).filter fun r =>
    decide (r.parent = some q.spanId) && decide (r.service ≠ q.service) && !calls c.spans r

/-- The service of the first of these, or the one that the operation names. -/
def seenCallee [LowerCase] (c : Re2Case) (kept : Re2Span → Bool) (q : Re2Span) : Option String :=
  match served c kept q with
  | r :: _ => some r.service
  | [] => rpcCallee (.str q.operation)

section
variable {c : Re2Case} {kept : Re2Span → Bool}

theorem get?_spanService {id service : String} :
    (spanService c.spans).get? id = some service ↔
      ∃ s ∈ c.spans, s.spanId = id ∧ s.service = service := by
  have items := Dict.items_foldl_set (c.spans.map fun s => (s.spanId, s.service))
    (by rw [List.map_map]; exact c.unique)
  rw [List.foldl_map] at items
  rw [← Dict.mem_items_iff, spanService, items]
  simp

theorem same_of_spanId {s t : Re2Span} (inS : s ∈ c.spans) (inT : t ∈ c.spans)
    (same : s.spanId = t.spanId) : s = t :=
  List.inj_on_of_nodup_map c.unique inS inT same

/-- The spans that name a parent, with it. -/
def links (spans : List Re2Span) : List (String × String) :=
  spans.filterMap fun s => s.parent.map fun parent => (s.spanId, parent)

theorem mem_links {spans : List Re2Span} {id parent : String} :
    (id, parent) ∈ links spans ↔ ∃ s ∈ spans, s.spanId = id ∧ s.parent = some parent := by
  simp only [links, List.mem_filterMap, Option.map_eq_some_iff, Prod.mk.injEq]
  constructor
  · rintro ⟨s, member, _, named, rfl, rfl⟩
    exact ⟨s, member, rfl, named⟩
  · rintro ⟨s, member, rfl, named⟩
    exact ⟨s, member, parent, named, rfl, rfl⟩

theorem links_ids (spans : List Re2Span) :
    (links spans).map Prod.fst = (spans.filter fun s => s.parent.isSome).map Re2Span.spanId := by
  unfold links
  induction spans with
  | nil => rfl
  | cons s rest ih => cases parent : s.parent <;> simp [parent, ih]

theorem items_spanParent (c : Re2Case) : (spanParent c.spans).items = links c.spans := by
  have distinct : ((links c.spans).map Prod.fst).Nodup := by
    rw [links_ids]
    exact c.unique.sublist (List.filter_sublist.map _)
  rw [← Dict.items_foldl_set _ distinct, links, List.foldl_filterMap, spanParent]
  congr 2
  funext d s
  cases s.parent <;> rfl

theorem crosses_iff {s : Re2Span} (member : s ∈ c.spans) {parent : String} :
    crosses (spanService c.spans) (s.spanId, parent) = true ↔
      ∃ p ∈ c.spans, p.spanId = parent ∧ p.service ≠ s.service := by
  have own : (spanService c.spans).get? s.spanId = some s.service :=
    get?_spanService.mpr ⟨s, member, rfl, rfl⟩
  unfold crosses
  cases known : (spanService c.spans).get? parent with
  | none =>
    have absent : ∀ p ∈ c.spans, p.spanId ≠ parent := by
      intro p inSpans same
      exact nomatch known.symm.trans (get?_spanService.mpr ⟨p, inSpans, same, rfl⟩)
    simp only [Bool.false_eq_true, false_iff, not_exists, not_and]
    intro p inSpans same
    exact absurd same (absent p inSpans)
  | some service =>
    obtain ⟨p, inSpans, same, rfl⟩ := get?_spanService.mp known
    simp only [own, ne_eq, Option.some.injEq, decide_eq_true_eq]
    constructor
    · intro other
      exact ⟨p, inSpans, same, other⟩
    · rintro ⟨q, inQ, sameQ, other⟩
      rwa [same_of_spanId inSpans inQ (same.trans sameQ.symm)]

/-- The links between services, each from a span to its parent. -/
theorem mem_crossing {id parent : String} :
    (id, parent) ∈ (spanParent c.spans).items.filter (crosses (spanService c.spans)) ↔
      ∃ s ∈ c.spans, ∃ p ∈ c.spans, s.spanId = id ∧ p.spanId = parent ∧
        s.parent = some p.spanId ∧ p.service ≠ s.service := by
  rw [List.mem_filter, items_spanParent, mem_links]
  constructor
  · rintro ⟨⟨s, member, rfl, named⟩, cross⟩
    obtain ⟨p, inSpans, rfl, other⟩ := (crosses_iff member).mp cross
    exact ⟨s, member, p, inSpans, rfl, rfl, named, other⟩
  · rintro ⟨s, member, p, inSpans, rfl, rfl, named, other⟩
    exact ⟨⟨s, member, rfl, named⟩, (crosses_iff member).mpr ⟨p, inSpans, rfl, other⟩⟩

/-- A span is a client if it calls another service, else a server if another calls it. -/
theorem kind_eq {s : Re2Span} (member : s ∈ c.spans) :
    (inferSpanKinds (spanService c.spans) (spanParent c.spans)).get? s.spanId =
      some (if calls c.spans s then "client" else if called c.spans s then "server"
        else "internal") := by
  have listed : s.spanId ∈ (spanService c.spans).items.map Prod.fst :=
    List.mem_map_of_mem (f := Prod.fst)
      ((Dict.mem_items_iff _).mpr (get?_spanService.mpr ⟨s, member, rfl, rfl⟩))
  have client : s.spanId ∈ ((spanParent c.spans).items.filter
      (crosses (spanService c.spans))).map Prod.snd ↔ calls c.spans s = true := by
    simp only [List.mem_map, Prod.exists, exists_eq_right, mem_crossing, calls, List.any_eq_true,
      Bool.and_eq_true, decide_eq_true_eq]
    constructor
    · rintro ⟨_, child, inChild, p, inP, -, same, named, other⟩
      obtain rfl := same_of_spanId inP member same
      exact ⟨child, inChild, named, other.symm⟩
    · rintro ⟨child, inChild, named, other⟩
      exact ⟨_, child, inChild, s, member, rfl, rfl, named, other.symm⟩
  have server : s.spanId ∈ ((spanParent c.spans).items.filter
      (crosses (spanService c.spans))).map Prod.fst ↔ called c.spans s = true := by
    simp only [List.mem_map, Prod.exists, exists_and_right, exists_eq_right, mem_crossing, called,
      List.any_eq_true, Bool.and_eq_true, decide_eq_true_eq]
    constructor
    · rintro ⟨_, t, inT, p, inP, same, -, named, other⟩
      obtain rfl := same_of_spanId inT member same
      exact ⟨p, inP, named, other⟩
    · rintro ⟨p, inP, named, other⟩
      exact ⟨_, s, member, p, inP, rfl, rfl, named, other⟩
  rw [inferSpanKinds, Dict.get?_ofKeys, if_pos listed]
  simp only [client, server]

/-- The row of a span of the case. -/
def rowOf (c : Re2Case) (s : Re2Span) : TraceRow :=
  toRow (inferSpanKinds (spanService c.spans) (spanParent c.spans)) s

theorem spans_caseStore (c : Re2Case) (kept : Re2Span → Bool) :
    (caseStore c kept).spans = (c.spans.filter kept).map (rowOf c) := by
  have ids : ((loadTraces c kept).map TraceRow.spanId) = (c.spans.filter kept).map Re2Span.spanId := by
    rw [loadTraces, List.map_map]
    rfl
  have distinct : ((loadTraces c kept).map TraceRow.spanId).Nodup := by
    rw [ids]
    exact c.unique.sublist (List.filter_sublist.map _)
  exact keepFirst_eq_self distinct fun _ _ => List.not_mem_nil

theorem children_caseStore (c : Re2Case) (kept : Re2Span → Bool) (s : Re2Span) :
    ((caseStore c kept).children.get? s.spanId).getD [] =
      ((c.spans.filter kept).filter fun child => child.parent = some s.spanId).map (rowOf c) := by
  have children := get?_collect parentOf .empty (caseStore c kept).spans s.spanId
  rw [Dict.get?_empty, Option.getD_none, List.nil_append, spans_caseStore, List.filter_map] at children
  have whole : (caseStore c kept).children = collect parentOf .empty (caseStore c kept).spans := rfl
  rw [whole, spans_caseStore, children]
  have parents : parentOf ∘ rowOf c = Re2Span.parent := by
    funext child
    have filled := child.named.2.2.1
    cases parent : child.parent with
    | none => simp [parentOf, rowOf, toRow, parent]
    | some id =>
      have nonempty : id ≠ "" := fun empty => filled (by rw [parent, empty])
      simp [parentOf, rowOf, toRow, parent, nonempty]
  simp only [Function.comp_def] at parents ⊢
  simp only [congrFun parents]

variable [LowerLetters]

theorem spanKind_rowOf {s : Re2Span} (member : s ∈ c.spans) :
    spanKind (rowOf c s) = some (if calls c.spans s then "client" else if called c.spans s then "server"
      else "internal") := by
  have kind : attributeOf (rowOf c s) "span.kind" = .str (if calls c.spans s then "client"
      else if called c.spans s then "server" else "internal") := by
    simp [attributeOf, rowOf, toRow, kind_eq member]
  rw [spanKind, kind]
  simp only [Option.some.injEq]
  apply LowerLetters.lower_letters
  apply List.all_eq_true.mp
  split
  · decide
  · split <;> decide

omit [LowerLetters] in
theorem called_iff {q r : Re2Span} (member : q ∈ c.spans) (child : r.parent = some q.spanId) :
    called c.spans r = true ↔ r.service ≠ q.service := by
  simp only [called, child, List.any_eq_true, Bool.and_eq_true, decide_eq_true_eq, Option.some.injEq]
  constructor
  · rintro ⟨p, inP, same, other⟩
    obtain rfl := same_of_spanId member inP same
    exact other.symm
  · intro other
    exact ⟨q, member, rfl, other.symm⟩

theorem calleeOf_rowOf {q : Re2Span} (member : q ∈ c.spans) :
    (caseStore c kept).calleeOf (rowOf c q) = seenCallee c kept q := by
  have servers : (((caseStore c kept).children.get? q.spanId).getD []).filter
      (fun child => spanKind child = some "server") = (served c kept q).map (rowOf c) := by
    rw [children_caseStore, List.filter_map, List.filter_filter, served]
    refine congrArg _ (List.filter_congr fun r inKept => ?_)
    rw [Function.comp_apply, spanKind_rowOf (List.mem_of_mem_filter inKept)]
    by_cases child : r.parent = some q.spanId
    · have server := called_iff member child
      by_cases other : r.service = q.service
      · have local_ : called c.spans r = false := by simpa [other] using server
        cases calls c.spans r <;> simp [child, other, local_]
      · have remote : called c.spans r = true := server.mpr other
        cases calls c.spans r <;> simp [child, other, remote]
    · simp [child]
  have method : attributeOf (rowOf c q) "rpc.method" = .null := rfl
  have id : (rowOf c q).spanId = q.spanId := rfl
  rw [FixtureStore.calleeOf, calleeFrom, id, servers, seenCallee, method]
  cases served c kept q with
  | nil => rfl
  | cons r rest => rfl

theorem mem_edges_iff {listed : List String} {caller callee : String} (filled : callee ≠ "") :
    (caller, callee) ∈ (buildTopology listed (caseStore c kept)).edges ↔
      caller ≠ callee ∧ ∃ q ∈ c.spans, kept q = true ∧ q.service = caller ∧
        calls c.spans q = true ∧ seenCallee c kept q = some callee := by
  have client : ∀ q ∈ c.spans, spanKind (rowOf c q) = some "client" ↔ calls c.spans q = true := by
    intro q member
    rw [spanKind_rowOf member]
    cases calls c.spans q <;> cases called c.spans q <;> simp
  simp only [buildTopology, mem_sortedBy, mem_keepFirst_id, FixtureStore.allSpans, spans_caseStore,
    List.mem_filterMap, List.mem_filter, List.mem_map, decide_eq_true_eq]
  constructor
  · rintro ⟨_, ⟨⟨q, ⟨member, keeps⟩, rfl⟩, isClient⟩, edge⟩
    rw [calleeOf_rowOf member] at edge
    obtain ⟨found, seen, pair⟩ := Option.bind_eq_some_iff.mp edge
    split at pair
    · cases pair
    · rename_i other
      cases pair
      exact ⟨fun same => other same.symm, q, member, keeps, rfl, (client q member).mp isClient,
        (Option.filter_eq_some_iff.mp seen).1⟩
  · rintro ⟨other, q, member, keeps, rfl, isClient, seen⟩
    refine ⟨_, ⟨⟨q, ⟨member, keeps⟩, rfl⟩, (client q member).mpr isClient⟩, ?_⟩
    rw [calleeOf_rowOf member, seen]
    have back : ¬ callee = (rowOf c q).service := fun same => other same.symm
    simp only [given, Option.filter_some, filled, ne_eq, not_false_eq_true, decide_true, if_true,
      Option.bind_some, if_neg back]
    rfl

/-- Every call between two kept spans is an edge of the graph. -/
def EdgesKept (c : Re2Case) (kept : Re2Span → Bool) (listed : List String) : Prop :=
  ∀ p ∈ c.spans, ∀ s ∈ c.spans, kept p = true → kept s = true → s.parent = some p.spanId →
    p.service ≠ s.service →
      (p.service, s.service) ∈ (buildTopology listed (caseStore c kept)).edges

/-- Each call between two kept spans is one that a span of the calling service, with a
call to another service, shows first. -/
def EdgesSeen (c : Re2Case) (kept : Re2Span → Bool) : Prop :=
  ∀ p ∈ c.spans, ∀ s ∈ c.spans, kept p = true → kept s = true → s.parent = some p.spanId →
    p.service ≠ s.service →
      ∃ q ∈ c.spans, kept q = true ∧ q.service = p.service ∧ calls c.spans q = true ∧
        seenCallee c kept q = some s.service

/-- The conversion keeps the calls exactly where a span shows each of them first. -/
theorem re2_edges_kept_iff (c : Re2Case) (kept : Re2Span → Bool) (listed : List String) :
    EdgesKept c kept listed ↔ EdgesSeen c kept := by
  unfold EdgesKept EdgesSeen
  constructor
  · intro edges p inP s inS keepP keepS child other
    exact ((mem_edges_iff s.named.2.2.2.1).mp (edges p inP s inS keepP keepS child other)).2
  · intro seen p inP s inS keepP keepS child other
    exact (mem_edges_iff s.named.2.2.2.1).mpr ⟨other, seen p inP s inS keepP keepS child other⟩

end

section Sample

@[reducible] def asciiLetters : LowerLetters where
  lower text := String.ofList (text.toList.map Char.toLower)
  lower_letters text small := by
    have each : ∀ ch ∈ text.toList, ch.toLower = ch := by
      intro ch member
      have letter : (decide (ch.val ≥ 'a'.val) && decide (ch.val ≤ 'z'.val)) = true :=
        small ch member
      rw [Bool.and_eq_true, decide_eq_true_eq, decide_eq_true_eq] at letter
      unfold Char.toLower
      rw [dif_neg]
      rintro ⟨-, most⟩
      exact absurd (UInt32.le_trans letter.1 most) (by decide)
    rw [List.map_congr_left each, List.map_id', String.ofList_toList]

attribute [local instance] asciiLetters

def sampleSpan (spanId service : String) (parent : Option String)
    (named : spanId ≠ "" ∧ parent ≠ some "" ∧ service ≠ "") : Re2Span where
  traceId := "t1"
  spanId := spanId
  parent := parent
  time := 210
  service := service
  operation := "handle"
  durationMs := 1
  isErr := false
  named := ⟨by decide, named.1, named.2.1, named.2.2, by decide⟩

/-- A request that passes through the frontend and checkout to payment. -/
def chainCase : Re2Case where
  spans := [sampleSpan "s1" "frontend" none (by decide), sampleSpan "s2" "checkout" (some "s1") (by decide),
    sampleSpan "s3" "payment" (some "s2") (by decide)]
  unique := by decide

/-- The checkout span is a client, so nothing serves the call of the frontend. -/
theorem chain_edge_lost :
    ¬ ∀ (c : Re2Case) (kept : Re2Span → Bool) (listed : List String), EdgesKept c kept listed := by
  intro edges
  have edge := edges chainCase (fun _ => true) [] _ List.mem_cons_self _
    (List.mem_cons_of_mem _ List.mem_cons_self) rfl rfl rfl (by decide)
  obtain ⟨-, q, member, -, service, -, seen⟩ := (mem_edges_iff (by decide)).mp edge
  have lost : ∀ q ∈ chainCase.spans, q.service = "frontend" →
      seenCallee chainCase (fun _ => true) q ≠ some "checkout" := by
    decide +kernel
  exact lost q member service seen

end Sample

end Sentinel.Rcaeval
