import Sentinel.Oss.Refutation
import Sentinel.Oss.WorkerProofs

/-! What a failing worker does to an investigation. It can make it raise, and it
can refute its candidate with a verdict that the schema rejects; nothing else
goes wrong, so the inputs on which failures are harmless are known exactly. -/
namespace Sentinel.Oss
open Python Tools Agent Sandbox

section Investigation
variable [JsonLoads] [VerdictSchema] {graph : Graph} {chat : ℕ → Chat} {maxIters : ℕ}

/-- The worker of a hypothesis, given its own responses. -/
def chatWorker (chat : ℕ → Chat) (maxIters : ℕ) : WorkerCall :=
  fun i _ _ => runWorker (chat i) maxIters

/-- A verdict that reaches reconciliation is a dict. -/
def PassesDict (handed : Option Json) : Prop :=
  ∀ v, (judgement handed).2 = some v → v.isDict = true

/-- What it takes for the worker of a hypothesis to return. -/
structure Sturdy (chat : Chat) (maxIters : ℕ) (h : Hypothesis) : Prop where
  edge : ∀ only, h.edge ≠ some [only]
  turns : Undisturbed chat maxIters
  dict : PassesDict (handedIn chat maxIters)

theorem investigate_ok_iff {h : Hypothesis} {i : ℕ} {run : WorkerRun} :
    investigate graph (chatWorker chat maxIters) h i = .ok run ↔
      (∀ only, h.edge ≠ some [only]) ∧ ∃ base, runWorker (chat i) maxIters = .ok base ∧
        ((base.verdict = none ∧ run = base) ∨ ∃ v reconciled, base.verdict = some v ∧
          reconcile graph h.candidateService v = .ok reconciled ∧
            run = { base with verdict := some reconciled }) := by
  unfold investigate
  simp only [bind_ok_iff, chatWorker, corrected_candidate]
  constructor
  · rintro ⟨text, printed, base, worked, rest⟩
    refine ⟨corrected_edge graph h ▸ hypothesisText_returns_iff.mp ⟨text, printed⟩, base, worked, ?_⟩
    cases verdict : base.verdict with
    | none =>
      simp only [verdict, pure, Except.pure, Except.ok.injEq] at rest
      exact .inl ⟨rfl, rest.symm⟩
    | some v =>
      simp only [verdict] at rest
      obtain ⟨reconciled, returned, same⟩ := bind_ok_iff.mp rest
      simp only [pure, Except.pure, Except.ok.injEq] at same
      exact .inr ⟨v, reconciled, rfl, returned, same.symm⟩
  · rintro ⟨edge, base, worked, rest⟩
    obtain ⟨text, printed⟩ := hypothesisText_returns_iff.mpr (corrected_edge graph h ▸ edge)
    refine ⟨text, printed, base, worked, ?_⟩
    rcases rest with ⟨none, rfl⟩ | ⟨v, reconciled, verdict, returned, rfl⟩
    · simp only [none]
      rfl
    · simp only [verdict]
      exact bind_ok_iff.mpr ⟨reconciled, returned, rfl⟩

theorem investigate_returns_iff {h : Hypothesis} {i : ℕ} :
    Returns (investigate graph (chatWorker chat maxIters) h i) ↔ Sturdy (chat i) maxIters h := by
  constructor
  · rintro ⟨run, investigated⟩
    obtain ⟨edge, base, worked, rest⟩ := investigate_ok_iff.mp investigated
    have judged := runWorker_judgement worked
    refine ⟨edge, runWorker_returns_iff.mp ⟨base, worked⟩, fun v passed => ?_⟩
    rw [← judged] at passed
    rcases rest with ⟨none, -⟩ | ⟨w, reconciled, verdict, returned, -⟩
    · cases none.symm.trans passed
    · cases verdict.symm.trans passed
      exact reconcile_returns_iff.mp ⟨reconciled, returned⟩
  · rintro ⟨edge, turns, dict⟩
    obtain ⟨base, worked⟩ := runWorker_returns_iff.mpr turns
    have judged := runWorker_judgement worked
    cases verdict : base.verdict with
    | none => exact ⟨base, investigate_ok_iff.mpr ⟨edge, base, worked, .inl ⟨verdict, rfl⟩⟩⟩
    | some v =>
      have passed : Returns (reconcile graph h.candidateService v) :=
        reconcile_returns_iff.mpr (dict v (by rw [← judged, verdict]))
      obtain ⟨reconciled, returned⟩ := passed
      exact ⟨_, investigate_ok_iff.mpr ⟨edge, base, worked,
        .inr ⟨v, reconciled, verdict, returned, rfl⟩⟩⟩

/-- A run fails as its worker is judged, and refutes only its own candidate. -/
theorem investigate_refutes {h : Hypothesis} {i : ℕ} {run : WorkerRun}
    (investigated : investigate graph (chatWorker chat maxIters) h i = .ok run) (s : String) :
    run.harnessFail = (judgement (handedIn (chat i) maxIters)).1 ∧
      (Refutes graph run s ↔ s = h.candidateService ∧ Quiet graph s ∧
        ∃ v, (judgement (handedIn (chat i) maxIters)).2 = some v ∧
          v.lookup "supported" = some (.bool false)) := by
  obtain ⟨-, base, worked, rest⟩ := investigate_ok_iff.mp investigated
  rw [← runWorker_judgement worked]
  rcases rest with ⟨none, rfl⟩ | ⟨v, reconciled, verdict, returned, rfl⟩
  · simp [Refutes, none]
  · simp [Refutes, verdict, reconcile_refutes returned]

/-- Some worker on this candidate, failed or not, hands in a `False`. -/
def WorkerRefutes (graph : Graph) (plan : List Hypothesis) (chat : ℕ → Chat) (maxIters : ℕ)
    (failed : Bool) (s : String) : Prop :=
  ∃ entry ∈ (hypotheses graph plan).zipIdx, entry.1.candidateService = s ∧
    ∃ v, judgement (handedIn (chat entry.2) maxIters) = (failed, some v) ∧
      v.lookup "supported" = some (.bool false)

theorem runs_refute_iff {plan : List Hypothesis} {runs : List WorkerRun}
    (investigated : investigateAll graph (chatWorker chat maxIters) plan = .ok runs)
    (failed : Bool) (s : String) :
    (∃ run ∈ runs, run.harnessFail = failed ∧ Refutes graph run s) ↔
      Quiet graph s ∧ WorkerRefutes graph plan chat maxIters failed s := by
  constructor
  · rintro ⟨run, member, fails, refutes⟩
    obtain ⟨entry, planned, one⟩ := (mem_of_mapM investigated run).mp member
    obtain ⟨judged, refuting⟩ := investigate_refutes one s
    obtain ⟨same, quiet, v, passed, said⟩ := refuting.mp refutes
    exact ⟨quiet, entry, planned, same.symm, v, Prod.ext (judged.symm.trans fails) passed, said⟩
  · rintro ⟨quiet, entry, planned, same, v, handed, said⟩
    have each := mapM_returns_iff.mp ⟨runs, investigated⟩
    obtain ⟨run, one⟩ := each entry planned
    obtain ⟨judged, refuting⟩ := investigate_refutes one s
    refine ⟨run, (mem_of_mapM investigated run).mpr ⟨entry, planned, one⟩, ?_, refuting.mpr ?_⟩
    · rw [judged, handed]
    · exact ⟨same.symm, quiet, v, by rw [handed], said⟩

end Investigation

section Harmless
variable [JsonLoads] [VerdictSchema]

/-- The investigation returns, and what the failed runs' verdicts remove from
the ranking is removed without them too. -/
def Harmless (graph : Graph) (plan : List Hypothesis) (chat : ℕ → Chat) (maxIters : ℕ)
    (narration : List Json → Synthesis) : Prop :=
  ∃ runs result, investigateAll graph (chatWorker chat maxIters) plan = .ok runs ∧
    runRca graph plan (chatWorker chat maxIters) (fun verdicts => .ok (narration verdicts)) =
      .ok result ∧
    ∀ s, Removed graph (verdictsOf runs) s → Removed graph (verdictsOf (sound runs)) s

/-- No planned edge has a single entry, no worker is disturbed, every verdict
that fails the schema is a dict, and one that refutes a ranked quiet service is
not alone in that, unless all ranked services are refuted. -/
structure HarnessSafe (graph : Graph) (plan : List Hypothesis) (chat : ℕ → Chat)
    (maxIters : ℕ) : Prop where
  edges : ∀ h ∈ plan, ∀ only, h.edge ≠ some [only]
  turns : ∀ i < (hypotheses graph plan).length, Undisturbed (chat i) maxIters
  dicts : ∀ i < (hypotheses graph plan).length, PassesDict (handedIn (chat i) maxIters)
  refutations :
    (∀ s ∈ graph.rankedServices, Quiet graph s ∧
      ∃ failed, WorkerRefutes graph plan chat maxIters failed s) ∨
    ∀ s ∈ graph.rankedServices, Quiet graph s → WorkerRefutes graph plan chat maxIters true s →
      WorkerRefutes graph plan chat maxIters false s

variable {graph : Graph} {plan : List Hypothesis} {chat : ℕ → Chat} {maxIters : ℕ}

theorem investigateAll_returns_iff :
    Returns (investigateAll graph (chatWorker chat maxIters) plan) ↔
      (∀ h ∈ plan, ∀ only, h.edge ≠ some [only]) ∧
        ∀ i < (hypotheses graph plan).length, Undisturbed (chat i) maxIters ∧
          PassesDict (handedIn (chat i) maxIters) := by
  unfold investigateAll
  rw [mapM_returns_iff]
  simp only [investigate_returns_iff]
  constructor
  · intro sturdy
    constructor
    · intro h planned
      obtain ⟨i, below, rfl⟩ := List.mem_iff_getElem.mp
        (List.mem_append_left ((graph.rankedServices.take 3).filterMap (injected graph plan)) planned)
      exact (sturdy (_, i) (List.mk_mem_zipIdx_iff_getElem?.mpr (List.getElem?_eq_getElem below))).edge
    · intro i below
      have here := sturdy ((hypotheses graph plan)[i], i)
        (List.mk_mem_zipIdx_iff_getElem?.mpr (List.getElem?_eq_getElem below))
      exact ⟨here.turns, here.dict⟩
  · rintro ⟨edges, workers⟩ ⟨h, i⟩ member
    have found := List.mk_mem_zipIdx_iff_getElem?.mp member
    obtain ⟨below, -⟩ := List.getElem?_eq_some_iff.mp found
    obtain ⟨turns, dict⟩ := workers i below
    refine ⟨fun only single => ?_, turns, dict⟩
    rcases List.mem_append.mp (List.mem_of_getElem? found) with planned | added
    · exact edges h planned only single
    · exact absurd (single.symm.trans (mem_injected_edge added)) (by simp)

/-- Removals agree exactly when nothing is removed, or nothing by failed runs
alone. -/
theorem removals_iff {runs : List WorkerRun}
    (investigated : investigateAll graph (chatWorker chat maxIters) plan = .ok runs) :
    (∀ s, Removed graph (verdictsOf runs) s → Removed graph (verdictsOf (sound runs)) s) ↔
      (∀ s ∈ graph.rankedServices, Quiet graph s ∧
        ∃ failed, WorkerRefutes graph plan chat maxIters failed s) ∨
      ∀ s ∈ graph.rankedServices, Quiet graph s →
        WorkerRefutes graph plan chat maxIters true s →
          WorkerRefutes graph plan chat maxIters false s := by
  have all : ∀ s, s ∈ refuted graph (verdictsOf runs) ↔
      Quiet graph s ∧ ∃ failed, WorkerRefutes graph plan chat maxIters failed s := by
    intro s
    rw [mem_refuted_verdictsOf]
    constructor
    · rintro ⟨run, member, refutes⟩
      obtain ⟨quiet, worker⟩ := (runs_refute_iff investigated run.harnessFail s).mp
        ⟨run, member, rfl, refutes⟩
      exact ⟨quiet, _, worker⟩
    · rintro ⟨quiet, failed, worker⟩
      obtain ⟨run, member, -, refutes⟩ := (runs_refute_iff investigated failed s).mpr ⟨quiet, worker⟩
      exact ⟨run, member, refutes⟩
  have unfailed : ∀ s, s ∈ refuted graph (verdictsOf (sound runs)) ↔
      Quiet graph s ∧ WorkerRefutes graph plan chat maxIters false s := by
    intro s
    rw [mem_refuted_sound, runs_refute_iff investigated]
  simp only [removed_iff, all, unfailed]
  constructor
  · intro agree
    by_cases every : ∀ s ∈ graph.rankedServices, Quiet graph s ∧
        ∃ failed, WorkerRefutes graph plan chat maxIters failed s
    · exact .inl every
    · exact .inr fun s ranked quiet failed =>
        (agree s ⟨ranked, ⟨quiet, true, failed⟩, every⟩).2.1.2
  · rintro (every | backed) s ⟨ranked, ⟨quiet, failed, worker⟩, some⟩
    · exact absurd every some
    · have soundly : WorkerRefutes graph plan chat maxIters false s := by
        cases failed with
        | false => exact worker
        | true => exact backed s ranked quiet worker
      refine ⟨ranked, ⟨quiet, soundly⟩, fun every => some fun t member => ?_⟩
      exact ⟨(every t member).1, false, (every t member).2⟩

/-- Harness failures are harmless exactly on these inputs. -/
theorem harness_harmless_iff (graph : Graph) (plan : List Hypothesis) (chat : ℕ → Chat)
    (maxIters : ℕ) (narration : List Json → Synthesis) :
    Harmless graph plan chat maxIters narration ↔ HarnessSafe graph plan chat maxIters := by
  constructor
  · rintro ⟨runs, result, investigated, -, agree⟩
    obtain ⟨edges, workers⟩ := investigateAll_returns_iff.mp ⟨runs, investigated⟩
    exact ⟨edges, fun i below => (workers i below).1, fun i below => (workers i below).2,
      (removals_iff investigated).mp agree⟩
  · rintro ⟨edges, turns, dicts, refutations⟩
    obtain ⟨runs, investigated⟩ :=
      investigateAll_returns_iff.mpr ⟨edges, fun i below => ⟨turns i below, dicts i below⟩⟩
    obtain ⟨result, completed⟩ := runRca_of_runs investigated
    exact ⟨runs, result, investigated, completed, (removals_iff investigated).mpr refutations⟩

end Harmless

section Samples

def finishCode : String := "finish(\x7b'supported': False\x7d)"

def finishArguments : String := "\x7b\"code\": \"" ++ finishCode ++ "\"\x7d"

def verdictLine : String := "\x7b\"supported\": false\x7d"

/-- `json.loads` on the two texts of this run. -/
@[reducible] def finishLoads : JsonLoads where
  loads text :=
    if text = finishArguments.toList then .ok (.dict [("code", .str finishCode)])
    else if text = verdictLine.toList then .ok (.dict [("supported", .bool false)])
    else .error ⟨"JSONDecodeError", "Expecting value", false⟩

/-- The two required fields of the schema. -/
@[reducible] def requiredFields : VerdictSchema where
  validate v :=
    match v.lookup "hypothesis", v.lookup "supported" with
    | some (.str _), some (.bool _) => some v.entries
    | _, _ => none

attribute [local instance] finishLoads requiredFields

def finishCall : FunctionCall where
  name := "run_code"
  arguments := finishArguments
  run _ := .ok ⟨"__VERDICT__" ++ verdictLine ++ "\n", none⟩

/-- Nothing stepped between `web` and `orders`. -/
def quietGraph : Graph where
  edges := [("web", "orders")]
  rankedServices := ["orders", "web"]
  source := "static"

/-- A worker whose only verdict lacks the hypothesis fails, and still takes its
candidate out of the ranking. -/
theorem failed_worker_refutes : ¬ ∀ (graph : Graph) (plan : List Hypothesis) (chat : ℕ → Chat)
    (maxIters : ℕ) (narration : List Json → Synthesis),
    Harmless graph plan chat maxIters narration := by
  intro always
  obtain ⟨runs, -, investigated, -, agree⟩ := always quietGraph
    [{ candidateService := "orders", signature := .error }] (fun _ _ => { calls := [finishCall] }) 6
    (fun _ => { faultType := none })
  have removal : ((investigateAll quietGraph
      (chatWorker (fun _ _ => { calls := [finishCall] }) 6)
      [{ candidateService := "orders", signature := .error }]).toOption.map fun runs =>
        (decide (Removed quietGraph (verdictsOf runs) "orders"),
          decide (Removed quietGraph (verdictsOf (sound runs)) "orders"))) = some (true, false) := by
    decide +kernel
  rw [investigated] at removal
  obtain ⟨removed, kept⟩ := Prod.mk.inj (Option.some.inj removal)
  exact absurd (agree "orders" (of_decide_eq_true removed)) (of_decide_eq_false kept)

end Samples
end Sentinel.Oss
