import Mathlib.Data.Prod.Lex
import Mathlib.Data.Set.Card
import Sentinel.Graphs.Search
import Sentinel.Python.Exn
import Sentinel.Python.Rounding
import Sentinel.Tools.Attribution

/-! The origin of latency on the calls between services: the callee that explains most of
what the calls slowed by. -/
namespace Sentinel.Tools
open Python Fixtures Graphs

structure EdgeLatencyInput where
  onsetSecond : ℤ := 0
  minShiftMs : ℚ := 50
  nonneg : 0 ≤ onsetSecond ∧ 0 ≤ minShiftMs := by decide

structure EdgeShift where
  caller : String
  callee : String
  preP95Ms : ℚ
  postP95Ms : ℚ
  shiftMs : ℚ
  postSamples : ℕ

structure EdgeLatencyOrigin where
  originService : Option String := none
  classification : Option String := none
  degradedEdges : List EdgeShift := []
  evidence : List String := []

def p95 (values : List ℚ) : ℚ :=
  let ordered := sortedBy id values
  if values.isEmpty then 0
  else ordered.getD (min (ordered.length - 1) (truncate (rnd (rnd 0.95 * ordered.length))).toNat) 0

/-- `x / y` of floats. -/
def floatDiv (x y : ℚ) : Py ℚ :=
  if y = 0 then .error ⟨"ZeroDivisionError", "float division by zero", false⟩ else .ok (rnd (x / y))

/-- `{ms:+.0f}`. -/
def signedText (ms : ℚ) : String := (if ms < 0 then "" else "+") ++ fixedText 0 ms

section
variable [LowerCase] (p : EdgeLatencyInput) (s : FixtureStore)

/-- The call between services that a span stands for. -/
def callOf (span : TraceRow) : Option (String × String) :=
  if spanKind span = some "client" then
    (given (s.calleeOf span)).bind fun callee =>
      if callee = span.service then none else some (span.service, callee)
  else none

def serverOf (span : TraceRow) : Option String :=
  if spanKind span = some "server" then some span.service else none

def after : List TraceRow := s.allSpans.filter fun span => span.time ≥ p.onsetSecond

def before : List TraceRow := s.allSpans.filter fun span => ¬ span.time ≥ p.onsetSecond

def edgePre : Dict (String × String) (List TraceRow) := collect (callOf s) .empty (before p s)

def edgePost : Dict (String × String) (List TraceRow) := collect (callOf s) .empty (after p s)

def serverPre : Dict String (List TraceRow) := collect serverOf .empty (before p s)

def serverPost : Dict String (List TraceRow) := collect serverOf .empty (after p s)

/-- `d.get(key, [])`, with the durations of the spans. -/
def durations {κ : Type} [DecidableEq κ] (d : Dict κ (List TraceRow)) (key : κ) : List ℚ :=
  ((d.get? key).getD []).map TraceRow.durationMs

def shifts : List EdgeShift :=
  (edgePost p s).items.map fun ((caller, callee), spans) =>
    let vals := spans.map TraceRow.durationMs
    { caller
      callee
      preP95Ms := p95 (durations (edgePre p s) (caller, callee))
      postP95Ms := p95 vals
      shiftMs := rnd (p95 vals - p95 (durations (edgePre p s) (caller, callee)))
      postSamples := vals.length }

def degraded : List EdgeShift :=
  sortedBy (fun e => OrderDual.toDual e.shiftMs) ((shifts p s).filter fun e => e.shiftMs ≥ p.minShiftMs)

def inbound : Dict String (List EdgeShift) := collect (fun e => some e.callee) .empty (degraded p s)

/-- `deg_out`, the callees of each caller over the degraded edges. -/
def degOut : Adjacency String where
  nodes := (degraded p s).map EdgeShift.callee
  next a := keepFirst id [] (((degraded p s).filter fun e => e.caller = a).map EdgeShift.callee)
  next_nodes a b member := by
    obtain ⟨e, inside, rfl⟩ := List.mem_map.mp (mem_keepFirst member).1
    exact List.mem_map_of_mem (List.mem_of_mem_filter inside)

def reaches (start target : String) : Bool := reachesBy (degOut p s) target [] [start]

def explained (x : String) (e : EdgeShift) : Bool :=
  e.callee = x || e.caller = x || reaches p s e.callee x

/-- The callers of a service before the onset or after it. -/
def allCallers (x : String) : List String :=
  keepFirst id [] ((((edgePre p s).keys ++ (edgePost p s).keys).filter fun e => e.2 = x).map Prod.fst)

/-- The degraded edges into a service. -/
def inboundOf (x : String) : List EdgeShift := ((inbound p s).get? x).getD []

def slowed (x : String) : List String := keepFirst id [] ((inboundOf p s x).map EdgeShift.caller)

variable [FloatSum]

def totalShift : ℚ := FloatSum.sum ((degraded p s).map EdgeShift.shiftMs)

def score (x : String) : Py (ℚ ×ₗ ℚ ×ₗ ℕ) :=
  (floatDiv (FloatSum.sum (((degraded p s).filter (explained p s x)).map EdgeShift.shiftMs))
      (totalShift p s)).map fun explained =>
    let coverage := rnd ((slowed p s x).length / max 1 (allCallers p s x).length)
    toLex (explained, toLex (coverage, (inboundOf p s x).length))

/-- The line about another degraded edge. -/
def edgeEvidence (origin : String) (e : EdgeShift) : Option String :=
  if e.caller = origin then
    some (origin ++ "->" ++ e.callee ++ " +" ++ fixedText 0 e.shiftMs ++
      "ms: the origin's own outbound calls degraded too, consistent with a fault at its network interface")
  else if e.callee ≠ origin ∧ reaches p s e.callee origin then
    some (e.caller ++ "->" ++ e.callee ++ " +" ++ fixedText 0 e.shiftMs ++ "ms is a victim path: " ++
      e.callee ++ "'s own degraded calls chain down to " ++ origin)
  else if e.callee ≠ origin then
    some (e.caller ++ "->" ++ e.callee ++ " +" ++ fixedText 0 e.shiftMs ++
      "ms is not explained by " ++ origin ++ ": secondary or noise")
  else none

/-- The output for an origin that explains a share of the shifts. -/
def originOutput (origin : String) (explainedRatio : ℚ) : EdgeLatencyOrigin :=
  let ownShift := rnd (p95 (durations (serverPost p s) origin) - p95 (durations (serverPre p s) origin))
  let network : Bool := ownShift < p.minShiftMs
  { originService := some origin
    classification := some (if network then "network_edge" else "service_internal")
    degradedEdges := (degraded p s).take 20
    evidence :=
      [toString (slowed p s origin).length ++ " of " ++ toString (allCallers p s origin).length ++
          " known caller(s) slowed toward " ++ origin ++ ": " ++
          String.intercalate ", " ((inboundOf p s origin).map fun e =>
            e.caller ++ " +" ++ fixedText 0 e.shiftMs ++ "ms") ++
          "; " ++ origin ++ " explains " ++ fixedText 0 (rnd (100 * explainedRatio)) ++
          "% of all edge degradation",
        if network then
          origin ++ " own server-span p95 shifted " ++ signedText ownShift ++
            "ms (flat): the delay is on the path INTO " ++ origin ++
            ": a network fault (delay/loss) at " ++ origin ++ ", not in its code"
        else
          origin ++ " own server-span p95 also shifted " ++ signedText ownShift ++
            "ms: the slowdown is inside " ++ origin] ++
        (degraded p s).filterMap (edgeEvidence p s origin) }

/-- `traces_edge_latency_origin`. -/
def tracesEdgeLatencyOrigin : Py EdgeLatencyOrigin :=
  if (degraded p s).isEmpty then
    .ok { evidence := ["no caller->callee edge's client-span p95 shifted by " ++
      fixedText 0 p.minShiftMs ++ "ms after onset; the latency (if any) is not on a call edge"] }
  else do
    let scored ← (inbound p s).keys.mapM fun x => (score p s x).map fun k => (x, k)
    match maxBy Prod.snd scored with
    | none => .error ⟨"ValueError", "max() iterable argument is empty", false⟩
    | some (origin, k) => .ok (originOutput p s origin (ofLex k).1)

end

/-! ### The slowed calls -/

section
variable [LowerCase] (p : EdgeLatencyInput) (s : FixtureStore)

/-- Some client span from the onset on calls the one service from the other. -/
def CalledAfter (a b : String) : Prop := ∃ span ∈ after p s, callOf s span = some (a, b)

def Calls (a b : String) : Prop := ∃ span ∈ s.allSpans, callOf s span = some (a, b)

/-- The durations of the calls among some spans. -/
def callDurations (spans : List TraceRow) (a b : String) : List ℚ :=
  (spans.filter fun span => callOf s span = some (a, b)).map TraceRow.durationMs

def edgeShift (a b : String) : EdgeShift where
  caller := a
  callee := b
  preP95Ms := p95 (callDurations s (before p s) a b)
  postP95Ms := p95 (callDurations s (after p s) a b)
  shiftMs := rnd (p95 (callDurations s (after p s) a b) - p95 (callDurations s (before p s) a b))
  postSamples := (callDurations s (after p s) a b).length

/-- An edge whose p95 shift is at least the least one asked for. -/
def Degraded (a b : String) : Prop := CalledAfter p s a b ∧ p.minShiftMs ≤ (edgeShift p s a b).shiftMs

variable {p s}

theorem mem_edgePost_keys {a b : String} : (a, b) ∈ (edgePost p s).keys ↔ CalledAfter p s a b := by
  rw [edgePost, mem_keys_collect]
  simp [Dict.keys, Dict.empty, CalledAfter]

theorem durations_edgePre (a b : String) :
    durations (edgePre p s) (a, b) = callDurations s (before p s) a b := by
  rw [durations, edgePre, get?_collect]
  rfl

theorem shifts_eq : shifts p s = (edgePost p s).keys.map fun e => edgeShift p s e.1 e.2 := by
  rw [shifts, edgePost, items_collect, List.map_map]
  refine List.map_congr_left fun (a, b) _ => ?_
  simp only [Function.comp_apply, durations_edgePre]
  rfl

theorem mem_degraded {e : EdgeShift} :
    e ∈ degraded p s ↔ ∃ a b, Degraded p s a b ∧ edgeShift p s a b = e := by
  rw [degraded, mem_sortedBy, List.mem_filter, shifts_eq, List.mem_map]
  constructor
  · rintro ⟨⟨⟨a, b⟩, called, rfl⟩, least⟩
    exact ⟨a, b, ⟨mem_edgePost_keys.mp called, of_decide_eq_true least⟩, rfl⟩
  · rintro ⟨a, b, ⟨called, least⟩, rfl⟩
    exact ⟨⟨(a, b), mem_edgePost_keys.mpr called, rfl⟩, decide_eq_true least⟩

theorem degraded_nodup : ((degraded p s).map fun e => (e.caller, e.callee)).Nodup := by
  rw [degraded, ((sortedBy_perm _ _).map _).nodup_iff, shifts_eq]
  refine List.Nodup.sublist (List.filter_sublist.map _) ?_
  rw [List.map_map]
  exact (List.map_id _).symm ▸ (edgePost p s).unique

theorem inboundOf_eq (x : String) : inboundOf p s x = (degraded p s).filter fun e => e.callee = x := by
  rw [inboundOf, inbound, get?_collect]
  simp

theorem mem_inbound_keys {x : String} : x ∈ (inbound p s).keys ↔ ∃ a, Degraded p s a x := by
  rw [inbound, mem_keys_collect]
  simp only [Dict.keys, Dict.empty, List.map_nil, List.not_mem_nil, false_or, Option.some.injEq]
  constructor
  · rintro ⟨e, member, rfl⟩
    obtain ⟨a, b, slow, rfl⟩ := mem_degraded.mp member
    exact ⟨a, slow⟩
  · rintro ⟨a, slow⟩
    exact ⟨edgeShift p s a x, mem_degraded.mpr ⟨a, x, slow, rfl⟩, rfl⟩

theorem mem_inbound_callers {x a : String} :
    a ∈ (inboundOf p s x).map EdgeShift.caller ↔ Degraded p s a x := by
  rw [inboundOf_eq, List.mem_map]
  constructor
  · rintro ⟨e, member, rfl⟩
    obtain ⟨inside, into⟩ := List.mem_filter.mp member
    obtain ⟨a, b, slow, rfl⟩ := mem_degraded.mp inside
    exact of_decide_eq_true into ▸ slow
  · intro slow
    exact ⟨edgeShift p s a x,
      List.mem_filter.mpr ⟨mem_degraded.mpr ⟨a, x, slow, rfl⟩, decide_eq_true rfl⟩, rfl⟩

theorem inbound_callers_nodup (x : String) : ((inboundOf p s x).map EdgeShift.caller).Nodup := by
  have pairs : ((inboundOf p s x).map fun e => (e.caller, e.callee)).Nodup := by
    rw [inboundOf_eq]
    exact degraded_nodup.sublist (List.filter_sublist.map _)
  have same : ((inboundOf p s x).map fun e => (e.caller, e.callee)) =
      ((inboundOf p s x).map EdgeShift.caller).map fun a => (a, x) := by
    rw [List.map_map]
    refine List.map_congr_left fun e member => ?_
    rw [inboundOf_eq] at member
    simp [of_decide_eq_true (List.mem_filter.mp member).2]
  exact List.Nodup.of_map _ (same ▸ pairs)

/-- The number of callers that slowed toward a service. -/
theorem ncard_degraded (x : String) : Set.ncard {a | Degraded p s a x} = (inboundOf p s x).length := by
  have listed : {a | Degraded p s a x} = ((inboundOf p s x).map EdgeShift.caller).toFinset := by
    ext a
    simp [← mem_inbound_callers]
  rw [listed, Set.ncard_coe_finset, List.toFinset_card_of_nodup (inbound_callers_nodup x), List.length_map]

theorem length_slowed (x : String) : (slowed p s x).length = (inboundOf p s x).length := by
  rw [slowed, keepFirst_eq_self (by simpa using inbound_callers_nodup x) (by simp), List.length_map]

theorem mem_allCallers {x a : String} : a ∈ allCallers p s x ↔ Calls s a x := by
  have split {span : TraceRow} : span ∈ s.allSpans ↔ span ∈ before p s ∨ span ∈ after p s := by
    simp only [before, after, List.mem_filter, decide_eq_true_eq]
    tauto
  simp only [allCallers, mem_keepFirst_id, List.mem_map, List.mem_filter, List.mem_append, edgePre,
    edgePost, mem_keys_collect, Calls, split]
  simp [Dict.keys, Dict.empty, or_and_right, exists_or]

theorem ncard_calls (x : String) : Set.ncard {a | Calls s a x} = (allCallers p s x).length := by
  have listed : {a | Calls s a x} = (allCallers p s x).toFinset := by
    ext a
    simp [← mem_allCallers (p := p)]
  have nodup : (allCallers p s x).Nodup := by
    rw [← List.map_id (allCallers p s x)]
    exact keepFirst_nodup id [] _
  rw [listed, Set.ncard_coe_finset, List.toFinset_card_of_nodup nodup]

theorem degOut_steps : (degOut p s).Steps = Degraded p s := by
  funext a b
  simp only [Adjacency.Steps, degOut, mem_keepFirst_id, List.mem_map, List.mem_filter, eq_iff_iff]
  constructor
  · rintro ⟨e, ⟨inside, from_⟩, rfl⟩
    obtain ⟨c, b, slow, rfl⟩ := mem_degraded.mp inside
    exact of_decide_eq_true from_ ▸ slow
  · intro slow
    exact ⟨edgeShift p s a b, ⟨mem_degraded.mpr ⟨a, b, slow, rfl⟩, decide_eq_true rfl⟩, rfl⟩

theorem degraded_nonneg {e : EdgeShift} (member : e ∈ degraded p s) : 0 ≤ e.shiftMs := by
  obtain ⟨a, b, slow, rfl⟩ := mem_degraded.mp member
  exact p.nonneg.2.trans slow.2

/-! ### The origin -/

variable (p s)

/-- An edge enters the service, leaves it, or its callee's degraded calls chain down to it. -/
def Explains (x : String) (e : EdgeShift) : Prop :=
  e.callee = x ∨ e.caller = x ∨ Relation.ReflTransGen (Degraded p s) e.callee x

/-- No call slowed, and some call, at no least shift, did not quicken either. -/
def Stalled : Prop :=
  p.minShiftMs = 0 ∧
    (∃ a b, CalledAfter p s a b ∧
      p95 (callDurations s (after p s) a b) = p95 (callDurations s (before p s) a b)) ∧
    ∀ a b, CalledAfter p s a b →
      p95 (callDurations s (after p s) a b) ≤ p95 (callDurations s (before p s) a b)

variable [FloatSum]

open Classical in
/-- The explained share, the caller coverage and the number of callers that slowed. -/
noncomputable def triple (x : String) : ℚ ×ₗ ℚ ×ₗ ℕ :=
  let share := rnd (FloatSum.sum (((degraded p s).filter fun e => Explains p s x e).map EdgeShift.shiftMs) /
    FloatSum.sum ((degraded p s).map EdgeShift.shiftMs))
  let slowed := Set.ncard {a | Degraded p s a x}
  toLex (share, toLex (rnd (slowed / max 1 (Set.ncard {a | Calls s a x})), slowed))

/-- The origin, if one is named, is the callee of a degraded edge, and none has more to
speak for it. -/
def Attributes (out : EdgeLatencyOrigin) : Prop :=
  ∀ x, out.originService = some x → (∃ a, Degraded p s a x) ∧
    ∀ y, (∃ a, Degraded p s a y) → triple p s y ≤ triple p s x

variable {p s}

theorem totalShift_eq_zero : totalShift p s = 0 ↔ ∀ e ∈ degraded p s, e.shiftMs = 0 := by
  rw [totalShift, FloatSum.sum_eq_zero _ (List.forall_mem_map.mpr fun e => degraded_nonneg)]
  exact List.forall_mem_map

/-- The division fails on exactly these inputs. -/
theorem stalled_iff : degraded p s ≠ [] ∧ totalShift p s = 0 ↔ Stalled p s := by
  rw [totalShift_eq_zero]
  constructor
  · rintro ⟨some_, zero⟩
    obtain ⟨e, member⟩ := List.exists_mem_of_ne_nil _ some_
    obtain ⟨a, b, slow, rfl⟩ := mem_degraded.mp member
    have still := zero _ member
    have least : p.minShiftMs = 0 := le_antisymm (still ▸ slow.2) p.nonneg.2
    refine ⟨least, ⟨a, b, slow.1, sub_eq_zero.mp (rnd_eq_zero_iff.mp still)⟩, fun c d called => ?_⟩
    by_contra slower
    have positive : 0 < (edgeShift p s c d).shiftMs := rnd_pos_iff.mpr (sub_pos.mpr (not_le.mp slower))
    have slow : Degraded p s c d := ⟨called, least ▸ positive.le⟩
    exact positive.ne' (zero _ (mem_degraded.mpr ⟨c, d, slow, rfl⟩))
  · rintro ⟨least, ⟨a, b, called, same⟩, none⟩
    have still : (edgeShift p s a b).shiftMs = 0 := rnd_eq_zero_iff.mpr (sub_eq_zero.mpr same)
    have slow : Degraded p s a b := ⟨called, by rw [least, still]⟩
    refine ⟨List.ne_nil_of_mem (mem_degraded.mpr ⟨a, b, slow, rfl⟩), fun e member => ?_⟩
    obtain ⟨c, d, slow, rfl⟩ := mem_degraded.mp member
    exact le_antisymm (rnd_nonpos (sub_nonpos.mpr (none c d slow.1))) (degraded_nonneg member)

omit [FloatSum] in
theorem explained_iff {x : String} {e : EdgeShift} : explained p s x e = true ↔ Explains p s x e := by
  rw [explained, reaches, Explains, ← degOut_steps]
  simp only [Bool.or_eq_true, decide_eq_true_eq, reachesBy_iff, or_assoc]
  rfl

open Classical in
theorem score_eq (defined : totalShift p s ≠ 0) (x : String) : score p s x = .ok (triple p s x) := by
  have same : (degraded p s).filter (explained p s x) = (degraded p s).filter fun e => Explains p s x e :=
    List.filter_congr fun e _ => by rw [Bool.eq_iff_iff, explained_iff, decide_eq_true_iff]
  rw [score, floatDiv, if_neg defined, length_slowed, ← ncard_degraded, ← ncard_calls (p := p), same]
  rfl

theorem score_error (undefined : totalShift p s = 0) (x : String) :
    score p s x = .error ⟨"ZeroDivisionError", "float division by zero", false⟩ := by
  rw [score, floatDiv, if_pos undefined]
  rfl

/-- Where the total is not zero, the keys are scored and one of the greatest is named. -/
theorem tracesEdgeLatencyOrigin_defined (defined : totalShift p s ≠ 0) (some_ : degraded p s ≠ []) :
    ∃ origin ratio, tracesEdgeLatencyOrigin p s = .ok (originOutput p s origin ratio) ∧
      origin ∈ (inbound p s).keys ∧ ∀ x ∈ (inbound p s).keys, triple p s x ≤ triple p s origin := by
  have scored : ((inbound p s).keys.mapM fun x => (score p s x).map fun k => (x, k)) =
      .ok ((inbound p s).keys.map fun x => (x, triple p s x)) :=
    mapM_eq_map fun x _ => by rw [score_eq defined]; rfl
  have keys : (inbound p s).keys.map (fun x => (x, triple p s x)) ≠ [] := by
    obtain ⟨e, member⟩ := List.exists_mem_of_ne_nil _ some_
    obtain ⟨a, b, slow, -⟩ := mem_degraded.mp member
    exact List.ne_nil_of_mem (List.mem_map_of_mem (mem_inbound_keys.mpr ⟨a, slow⟩))
  obtain ⟨⟨origin, k⟩, greatest⟩ := Option.ne_none_iff_exists'.mp fun none =>
    keys ((maxBy_eq_none Prod.snd).mp none)
  obtain ⟨member, bound⟩ := maxBy_spec greatest
  obtain ⟨x, inside, same⟩ := List.mem_map.mp member
  cases same
  refine ⟨origin, (ofLex (triple p s origin)).1, ?_, inside, fun y member => ?_⟩
  · rw [tracesEdgeLatencyOrigin, if_neg (by simpa using some_), scored]
    simp only [bind, Except.bind, greatest]
  · exact bound (y, triple p s y) (List.mem_map_of_mem member)

/-- Where it is zero, the first division raises. -/
theorem tracesEdgeLatencyOrigin_undefined (undefined : totalShift p s = 0) (some_ : degraded p s ≠ []) :
    ¬ Returns (tracesEdgeLatencyOrigin p s) := by
  obtain ⟨e, member⟩ := List.exists_mem_of_ne_nil _ some_
  obtain ⟨a, b, slow, -⟩ := mem_degraded.mp member
  rw [tracesEdgeLatencyOrigin, if_neg (by simpa using some_)]
  rintro ⟨out, returned⟩
  obtain ⟨scored, all, -⟩ := bind_ok_iff.mp returned
  obtain ⟨k, scored⟩ := mapM_returns_iff.mp ⟨scored, all⟩ b (mem_inbound_keys.mpr ⟨a, slow⟩)
  rw [score_error undefined] at scored
  cases scored

/-- The tool answers, and attributes as it says, on all other inputs. -/
theorem edge_latency_attributed_iff (p : EdgeLatencyInput) (s : FixtureStore) :
    (∃ out, tracesEdgeLatencyOrigin p s = .ok out ∧ Attributes p s out) ↔ ¬ Stalled p s := by
  rw [← stalled_iff, not_and]
  constructor
  · rintro ⟨out, returned, -⟩ some_ undefined
    exact tracesEdgeLatencyOrigin_undefined undefined some_ ⟨out, returned⟩
  · intro defined
    by_cases none : degraded p s = []
    · have returned : ∃ evidence, tracesEdgeLatencyOrigin p s = .ok { evidence } :=
        ⟨_, by rw [tracesEdgeLatencyOrigin, if_pos (List.isEmpty_iff.mpr none)]⟩
      obtain ⟨evidence, returned⟩ := returned
      exact ⟨_, returned, fun x named => by cases named⟩
    · obtain ⟨origin, ratio, returned, inside, greatest⟩ :=
        tracesEdgeLatencyOrigin_defined (defined none) none
      refine ⟨_, returned, fun x named => ?_⟩
      obtain rfl : origin = x := Option.some.inj named
      exact ⟨mem_inbound_keys.mp inside, fun y into => greatest y (mem_inbound_keys.mpr into)⟩

end

section Sample
attribute [local instance] asciiLowerCase leftSum

def steadyCall (spanId : String) (time : ℤ) (valid : spanId ≠ "" ∧ 0 ≤ time) : TraceRow where
  traceId := "t1"
  spanId := spanId
  time := time
  service := "frontend"
  operation := "oteldemo.PaymentService/Charge"
  durationMs := 5
  status := "OK"
  attributes := [("span.kind", .str "client")]
  named := ⟨by decide, valid.1, by decide, by decide, by decide⟩
  nonneg := ⟨valid.2, by decide⟩

/-- A call takes 5 ms before the onset and after it. -/
def steadyCalls : FixtureStore :=
  .init { traces := [steadyCall "s1" 0 (by decide), steadyCall "s2" 10 (by decide)] }

def anyShift : EdgeLatencyInput where
  onsetSecond := 5
  minShiftMs := 0

/-- With no least shift, calls that take as long as before are divided by their shifts. -/
theorem steady_calls_divide_by_zero :
    tracesEdgeLatencyOrigin anyShift steadyCalls =
        .error ⟨"ZeroDivisionError", "float division by zero", false⟩ ∧
      ¬ ∀ (p : EdgeLatencyInput) (s : FixtureStore),
        ∃ out, tracesEdgeLatencyOrigin p s = .ok out ∧ Attributes p s out := by
  have raised : tracesEdgeLatencyOrigin anyShift steadyCalls =
      .error ⟨"ZeroDivisionError", "float division by zero", false⟩ := by
    have edges : (inbound anyShift steadyCalls).keys = ["payment"] := by decide +kernel
    have total : totalShift anyShift steadyCalls = 0 := by decide +kernel
    have some_ : (degraded anyShift steadyCalls).isEmpty = false := by decide +kernel
    simp [tracesEdgeLatencyOrigin, some_, edges, score_error total, Except.map, bind, Except.bind]
  refine ⟨raised, fun attributed => ?_⟩
  obtain ⟨out, returned, -⟩ := attributed anyShift steadyCalls
  cases raised.symm.trans returned

end Sample

end Sentinel.Tools
