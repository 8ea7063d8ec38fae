import Sentinel.Oss.RankHead
import Sentinel.Oss.Refutation

/-! On a resolved graph where something stepped, the root cause and its fault
type are those of the ranking's head, whatever the planner, the workers and the
synthesis say; and the fast path names the same. -/
namespace Sentinel.Oss
open Python Tools

section Families
variable {eff : Dict Family ℚ}

theorem dominantFamily_of_effect {fam : Family} {z : ℚ} (value : eff.get? fam = some z)
    (high : zMin ≤ z) : ∃ dom, dominantFamily eff = some dom := by
  have member := eff.mem_items_iff.mpr value
  unfold dominantFamily
  cases best : eff.items.argmax Prod.snd with
  | none =>
    rw [List.argmax_eq_none.mp best] at member
    cases member
  | some top => exact ⟨top.1, if_pos (high.trans (List.le_of_mem_argmax member best))⟩

/-- The key of the greatest value is the key of the first greatest item. -/
theorem keys_argmax (eff : Dict Family ℚ) :
    eff.keys.argmax (fun fam => (eff.get? fam).getD 0) = (eff.items.argmax Prod.snd).map Prod.fst := by
  have values : ∀ item ∈ eff.items,
      ((fun fam => (eff.get? fam).getD 0) ∘ Prod.fst) item = item.2 := by
    rintro ⟨fam, z⟩ member
    simp [eff.mem_items_iff.mp member]
  rw [Dict.keys, argmax_map, argmax_congr values]

/-- The signature of the fast path is the family that stepped. -/
theorem signature_of_dominant {dom : Family} (stepped : dominantFamily eff = some dom) :
    (if (eff.values.max?).getD 0 > 0 then eff.keys.argmax fun fam => (eff.get? fam).getD 0
      else none) = some dom := by
  unfold dominantFamily at stepped
  split at stepped
  · cases stepped
  · rename_i fam z best
    split at stepped
    · rename_i high
      cases stepped
      have largest : z ≤ (eff.values.max?).getD 0 :=
        max?_getD_ge (List.mem_map.mpr ⟨_, List.argmax_mem best, rfl⟩)
      have positive : (eff.values.max?).getD 0 > 0 :=
        lt_of_lt_of_le (by decide) (le_trans high largest)
      rw [if_pos positive, keys_argmax, best]
      rfl
    · cases stepped

end Families

/-- What a completed investigation names. -/
theorem runRca_names {graph : Graph} {plan : List Hypothesis} {worker : WorkerCall}
    {synthesize : List Json → Py Synthesis} {result : RcaResult}
    (completed : runRca graph plan worker synthesize = .ok result) :
    ∃ verdicts fallback, result.rootCauseService = (rankedDet graph verdicts).head? ∧
      result.faultType = (overlayFault graph result.rootCauseService).or fallback := by
  obtain ⟨runs, -, concluded⟩ := bind_ok_iff.mp completed
  unfold conclude at concluded
  obtain ⟨synth, -, assembled⟩ := bind_ok_iff.mp concluded
  cases assembled
  exact ⟨_, _, rfl, rfl⟩

/-- A graph with the ranking and the anomalies of its own effects, none of which
is on a service without a name. -/
structure Overlaid [SetOrder] [FloatArith] (graph : Graph) : Prop where
  ranked : graph.rankedServices = rank graph.edges graph.effects
  anomalous : ∀ s, s ∈ graph.anomalous ↔
    s ∈ services graph.edges ∧ zMin ≤ zTot graph.effects s
  within : ∀ s fam z, Effect graph.effects s fam z → s ∈ services graph.edges
  named : ∀ s fam z, Effect graph.effects s fam z → zMin ≤ z → s ≠ ""

section Resolve
variable [FloatArith] (store : TelemetryStore) (onset : ℤ)

/-- No row names the empty service, so nothing steps for it. -/
theorem seriesZ_unnamed (metric : String) : seriesZ store "" metric onset = 0 := by
  have silent : store.metricSeries "" metric = [] := by
    rw [List.eq_nil_iff_forall_not_mem]
    intro row member
    exact row.named (store.series_service "" metric row member)
  simp [seriesZ, silent, stepZ_no_baseline]

theorem onsetEffects_unnamed (fam : Family) (z : ℚ)
    (value : (onsetEffects store "" onset).get? fam = some z) : z ≤ 0 := by
  unfold onsetEffects at value
  refine List.foldlRecOn (motive := fun out : Dict Family ℚ =>
    ∀ fam z, out.get? fam = some z → z ≤ 0) _ _ ?_ ?_ fam z value
  · intro fam z value
    cases fam <;> simp_all
  · intro out low key _ fam z value
    rw [Dict.get?_set] at value
    split at value
    · have before : (out.get? (family key.2.1)).getD 0 ≤ 0 := by
        cases old : out.get? (family key.2.1) with
        | none => exact le_rfl
        | some w => exact low _ _ old
      cases value
      exact max_le before (le_of_eq (seriesZ_unnamed store onset key.2.1))
    · exact low fam z value

variable [SetOrder]

theorem overlay_overlaid (base : Graph) : Overlaid (base.overlay store onset) where
  ranked := rfl
  anomalous s := by simp [Graph.overlay]
  within := by
    rintro s fam z ⟨eff, entry, -⟩
    simp only [Graph.overlay, Dict.get?_ofKeys] at entry
    split at entry
    · assumption
    · cases entry
  named := by
    rintro _ fam z ⟨eff, entry, value⟩ high rfl
    simp only [Graph.overlay, Dict.get?_ofKeys] at entry
    split at entry
    · cases entry
      exact absurd (high.trans (onsetEffects_unnamed store onset fam z value)) (by decide)
    · cases entry

omit [FloatArith] in
theorem services_nil : services [] = [] := by
  rw [List.eq_nil_iff_forall_not_mem]
  intro s member
  simp [mem_services] at member

theorem empty_overlaid : Overlaid {} where
  ranked := by
    rw [eq_comm, List.eq_nil_iff_forall_not_mem]
    intro s member
    rw [mem_rank, services_nil] at member
    cases member
  anomalous s := by simp [services_nil]
  within := by
    rintro s fam z ⟨eff, entry, -⟩
    cases entry
  named := by
    rintro s fam z ⟨eff, entry, -⟩
    cases entry

theorem resolve_overlaid (artifact spans : Option (List (String × String))) (preferTrace : Bool) :
    Overlaid (resolveTopology store artifact spans onset preferTrace) := by
  unfold resolveTopology
  dsimp only
  split
  · exact empty_overlaid
  · rename_i base _
    obtain ⟨ranked, anomalous, within, named⟩ := overlay_overlaid store onset base
    exact ⟨ranked, anomalous, within, named⟩

end Resolve

section Independence
variable [SetOrder] [FloatArith] {graph : Graph}

/-- The head of the ranking is anomalous, and its own stepped family types the
fault. -/
theorem Overlaid.head (overlaid : Overlaid graph) {s : String} {fam : Family} {z : ℚ}
    (effect : Effect graph.effects s fam z) (high : zMin ≤ z) :
    ∃ root dom, graph.rankedServices.head? = some root ∧ root ∈ graph.anomalous ∧ root ≠ "" ∧
      dominantFamily (graph.effectsOf root) = some dom := by
  obtain ⟨root, inside, head, stepped⟩ :=
    rank_head (overlaid.within s fam z effect) effect high
  obtain ⟨rootFam, rootZ, ⟨eff, entry, value⟩, rootHigh⟩ := effect_of_zTot stepped
  obtain ⟨dom, dominant⟩ := dominantFamily_of_effect value rootHigh
  refine ⟨root, dom, overlaid.ranked ▸ head, (overlaid.anomalous root).mpr ⟨inside, stepped⟩,
    overlaid.named root rootFam rootZ ⟨eff, entry, value⟩ rootHigh, ?_⟩
  rwa [Graph.effectsOf, entry]

theorem Overlaid.anomalous_ranked (overlaid : Overlaid graph) {s : String}
    (anomalous : s ∈ graph.anomalous) : s ∈ graph.rankedServices := by
  rw [overlaid.ranked, mem_rank]
  exact ((overlaid.anomalous s).mp anomalous).1

omit [SetOrder] [FloatArith] in
theorem runRca_head {root : String} {dom : Family}
    (head : graph.rankedServices.head? = some root) (anomalous : root ∈ graph.anomalous)
    (dominant : dominantFamily (graph.effectsOf root) = some dom) {plan : List Hypothesis}
    {worker : WorkerCall} {synthesize : List Json → Py Synthesis} {result : RcaResult}
    (completed : runRca graph plan worker synthesize = .ok result) :
    result.rootCauseService = some root ∧ result.faultType = some (sigFault dom) := by
  obtain ⟨verdicts, fallback, rooted, typed⟩ := runRca_names completed
  rw [head_kept head anomalous] at rooted
  rw [rooted] at typed
  exact ⟨rooted, by simpa [overlayFault, dominant] using typed⟩

omit [SetOrder] [FloatArith] in
theorem fastLocalize_head {root : String} {dom : Family}
    (head : graph.rankedServices.head? = some root) (named : root ≠ "")
    (dominant : dominantFamily (graph.effectsOf root) = some dom) :
    (fastLocalize graph).rootCauseService = some root ∧
      (fastLocalize graph).faultType = some (sigFault dom) := by
  refine ⟨head, ?_⟩
  have signature := signature_of_dominant dominant
  simp only [fastLocalize, head, Option.filter_some, decide_eq_true named, if_true, Option.elim_some]
  rw [signature]
  rfl

/-- Any two completed runs and the fast path agree on the root cause and its
fault type, and no verdict removes an anomalous service. -/
theorem root_cause_independent (store : TelemetryStore)
    (artifact spans : Option (List (String × String))) (onset : ℤ) (preferTrace : Bool)
    (s : String) (fam : Family) (z : ℚ)
    (effect : Effect (resolveTopology store artifact spans onset preferTrace).effects s fam z)
    (high : zMin ≤ z) (plan₁ plan₂ : List Hypothesis) (worker₁ worker₂ : WorkerCall)
    (synthesize₁ synthesize₂ : List Json → Py Synthesis) (result₁ result₂ : RcaResult)
    (completed₁ : runRca (resolveTopology store artifact spans onset preferTrace)
      plan₁ worker₁ synthesize₁ = .ok result₁)
    (completed₂ : runRca (resolveTopology store artifact spans onset preferTrace)
      plan₂ worker₂ synthesize₂ = .ok result₂) :
    let graph := resolveTopology store artifact spans onset preferTrace
    ∃ root fault, graph.rankedServices.head? = some root ∧ root ∈ graph.anomalous ∧
      (result₁.rootCauseService = some root ∧ result₁.faultType = some fault) ∧
      (result₂.rootCauseService = some root ∧ result₂.faultType = some fault) ∧
      ((fastLocalize graph).rootCauseService = some root ∧
        (fastLocalize graph).faultType = some fault) ∧
      ∀ s ∈ graph.anomalous, ∀ verdicts, s ∈ rankedDet graph verdicts := by
  intro graph
  have overlaid : Overlaid graph := resolve_overlaid store onset artifact spans preferTrace
  obtain ⟨root, dom, head, anomalous, named, dominant⟩ := overlaid.head effect high
  exact ⟨root, sigFault dom, head, anomalous,
    runRca_head head anomalous dominant completed₁, runRca_head head anomalous dominant completed₂,
    fastLocalize_head head named dominant,
    fun s member => anomalous_kept (overlaid.anomalous_ranked member) member⟩

end Independence

section Samples

/-- Sets iterated in the order of their last insertions. -/
@[reducible] def insertionOrder : SetOrder where
  iter := List.dedup
  iter_nodup := List.nodup_dedup
  mem_iter _ _ := List.mem_dedup

attribute [local instance] insertionOrder FloatArith.exact

/-- The cpu of `orders` goes from 0 to 1 at second 4. -/
def steppedStore : TelemetryStore where
  listMetricKeys := [("orders", "cpu_utilization", "ratio")]
  metricSeries service _ :=
    if named : service = "orders" then
      [0, 1, 2, 3, 4].map fun time => ⟨time, service, if time < 4 then 0 else 1, by simp [named]⟩
    else []
  series_service service metric row member := by
    split at member
    · simp only [List.mem_map] at member
      obtain ⟨_, -, rfl⟩ := member
      rfl
    · cases member

def ordersGraph : Graph := resolveTopology steppedStore (some [("web", "orders")]) none 4 false

def refutingWorker : WorkerCall := fun _ _ _ =>
  .ok { verdict := some (.dict [("supported", .bool false)]), harnessFail := false, iters := 1
        usage := {} }

def silentWorker : WorkerCall := fun _ _ _ =>
  .ok { verdict := none, harnessFail := true, iters := 6, usage := {} }

def plainSynthesis (faultType : Option String) (_ : List Json) : Py Synthesis := .ok { faultType }

/-- One run refutes the planned `web` and the injected `orders`, the other hears
nothing from its workers. -/
theorem root_cause_independent_orders : ∃ result₁ result₂ root fault,
    runRca ordersGraph [{ candidateService := "web", signature := .error }] refutingWorker
      (plainSynthesis (some "errors")) = .ok result₁ ∧
    runRca ordersGraph [] silentWorker (plainSynthesis none) = .ok result₂ ∧
    result₁.rootCauseService = some root ∧ result₁.faultType = some fault ∧
    result₂.rootCauseService = some root ∧ result₂.faultType = some fault := by
  have refuting : Returns (runRca ordersGraph [{ candidateService := "web", signature := .error }]
      refutingWorker (plainSynthesis (some "errors"))) := by decide +kernel
  have silent : Returns (runRca ordersGraph [] silentWorker (plainSynthesis none)) := by
    decide +kernel
  obtain ⟨result₁, completed₁⟩ := refuting
  obtain ⟨result₂, completed₂⟩ := silent
  have effect : Effect ordersGraph.effects "orders" .resource
      (zf ordersGraph.effects "orders" .resource) := effect_of_zf_ne_zero (by decide +kernel)
  have high : zMin ≤ zf ordersGraph.effects "orders" .resource := by decide +kernel
  obtain ⟨root, fault, -, -, ⟨rooted₁, typed₁⟩, ⟨rooted₂, typed₂⟩, -⟩ :=
    root_cause_independent steppedStore (some [("web", "orders")]) none 4 false "orders" .resource _
      effect high _ _ _ _ _ _ result₁ result₂ completed₁ completed₂
  exact ⟨result₁, result₂, root, fault, completed₁, completed₂, rooted₁, typed₁, rooted₂, typed₂⟩

end Samples
end Sentinel.Oss
