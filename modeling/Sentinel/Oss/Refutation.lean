import Sentinel.Oss.Rca

/-! Lemmas about the parts of an investigation: what the verdicts take out of
the ranking, what a reconciled verdict refutes, and where the steps that are not
the workers' own may raise. -/
namespace Sentinel.Oss
open Python Tools

/-- A service the overlay says nothing about. -/
def Quiet (graph : Graph) (s : String) : Prop :=
  s ∉ graph.anomalous ∧ dominantFamily (graph.effectsOf s) = none

/-- A service of the graph's ranking that the verdicts take out of it. -/
def Removed (graph : Graph) (verdicts : List Json) (s : String) : Prop :=
  s ∈ graph.rankedServices ∧ s ∉ rankedDet graph verdicts

instance (graph : Graph) (verdicts : List Json) (s : String) : Decidable (Removed graph verdicts s) :=
  inferInstanceAs (Decidable (_ ∧ _))

/-- If every ranked service is refuted, the ranking stands as it is. -/
theorem removed_iff {graph : Graph} {verdicts : List Json} {s : String} :
    Removed graph verdicts s ↔ s ∈ graph.rankedServices ∧ s ∈ refuted graph verdicts ∧
      ¬ ∀ t ∈ graph.rankedServices, t ∈ refuted graph verdicts := by
  unfold Removed rankedDet
  dsimp only
  split
  · rename_i empty
    simp only [List.isEmpty_iff, List.filter_eq_nil_iff, decide_eq_true_eq, not_not] at empty
    simp only [and_not_self_iff, false_iff]
    exact fun removed => removed.2.2 empty
  · rename_i kept
    simp only [List.isEmpty_iff, List.filter_eq_nil_iff, decide_eq_true_eq, not_not] at kept
    simp only [List.mem_filter, decide_eq_true_eq]
    constructor
    · rintro ⟨ranked, absent⟩
      exact ⟨ranked, by_contra fun stays => absent ⟨ranked, stays⟩, kept⟩
    · rintro ⟨ranked, member, -⟩
      exact ⟨ranked, fun stays => stays.2 member⟩

/-- The runs that did not fail. -/
def sound (runs : List WorkerRun) : List WorkerRun := runs.filter fun run => !run.harnessFail

def Refutes (graph : Graph) (run : WorkerRun) (s : String) : Prop :=
  ∃ v, run.verdict = some v ∧ refutedBy graph v = some s

theorem mem_refuted_verdictsOf {graph : Graph} {runs : List WorkerRun} {s : String} :
    s ∈ refuted graph (verdictsOf runs) ↔ ∃ run ∈ runs, Refutes graph run s := by
  simp only [refuted, verdictsOf, List.mem_filterMap, Refutes]
  constructor
  · rintro ⟨v, ⟨run, member, verdict⟩, refutes⟩
    exact ⟨run, member, v, verdict, refutes⟩
  · rintro ⟨run, member, v, verdict, refutes⟩
    exact ⟨v, ⟨run, member, verdict⟩, refutes⟩

theorem mem_refuted_sound {graph : Graph} {runs : List WorkerRun} {s : String} :
    s ∈ refuted graph (verdictsOf (sound runs)) ↔
      ∃ run ∈ runs, run.harnessFail = false ∧ Refutes graph run s := by
  rw [mem_refuted_verdictsOf]
  simp [sound, and_assoc]

section Refutation
variable {graph : Graph}

theorem refutedBy_iff {verdict : Json} {s : String} :
    refutedBy graph verdict = some s ↔ verdict.lookup "supported" = some (.bool false) ∧
      verdict.lookup "candidate_service" = some (.str s) ∧ s ∉ graph.anomalous := by
  unfold refutedBy
  split
  · rename_i candidate said named
    split
    · rename_i anomalous
      simp only [reduceCtorEq, said, named, Option.some.injEq, Json.str.injEq, true_and, false_iff]
      rintro ⟨rfl, normal⟩
      exact normal anomalous
    · rename_i normal
      simp only [said, named, Option.some.injEq, Json.str.injEq, true_and]
      exact ⟨fun same => ⟨same, same ▸ normal⟩, fun same => same.1⟩
  · rename_i other
    simp only [reduceCtorEq, false_iff]
    rintro ⟨said, named, -⟩
    exact other s said named

theorem anomalous_not_refuted {s : String} (anomalous : s ∈ graph.anomalous) (verdicts : List Json) :
    s ∉ refuted graph verdicts := by
  intro member
  obtain ⟨verdict, -, refutes⟩ := List.mem_filterMap.mp member
  exact (refutedBy_iff.mp refutes).2.2 anomalous

/-- A refutation never removes an anomalous service. -/
theorem anomalous_kept {s : String} (ranked : s ∈ graph.rankedServices)
    (anomalous : s ∈ graph.anomalous) (verdicts : List Json) : s ∈ rankedDet graph verdicts := by
  unfold rankedDet
  dsimp only
  split
  · exact ranked
  · exact List.mem_filter.mpr ⟨ranked, decide_eq_true (anomalous_not_refuted anomalous verdicts)⟩

theorem head_kept {root : String} (head : graph.rankedServices.head? = some root)
    (anomalous : root ∈ graph.anomalous) (verdicts : List Json) :
    (rankedDet graph verdicts).head? = some root := by
  obtain ⟨rest, ranked⟩ := List.head?_eq_some_iff.mp head
  have kept := anomalous_not_refuted anomalous verdicts
  simp [rankedDet, ranked, kept]

theorem overruled_lookup_supported (service : String) (entries : List (String × Json)) :
    (overruled graph service entries).lookup "supported" =
      if dominantFamily (graph.effectsOf service) = none then entries.lookup "supported"
      else some (.bool true) := by
  unfold overruled
  dsimp only
  split
  · rename_i silent
    simp [silent]
  · rename_i dom stepped
    simp [stepped, lookup_assign]

theorem overruled_lookup_candidate (service : String) (entries : List (String × Json)) :
    (overruled graph service entries).lookup "candidate_service" =
      entries.lookup "candidate_service" := by
  unfold overruled
  dsimp only
  split
  · rfl
  · simp [lookup_assign]

theorem attributed_lookup {key : String} (service : String) (entries : List (String × Json))
    (other : key ≠ "root_cause_service") :
    (attributed service entries).lookup key = entries.lookup key := by
  unfold attributed
  split
  · simp [lookup_assign, other]
  · rfl

/-- Only a dict takes the name of its candidate. -/
theorem reconcile_returns_iff {service : String} {verdict : Json} :
    Returns (reconcile graph service verdict) ↔ verdict.isDict = true := by
  unfold reconcile
  cases verdict <;>
    simp [Json.setItem, Json.isDict, bind, Except.bind, pure, Except.pure, returns_ok,
      not_returns_error]

/-- A reconciled verdict names its candidate, and keeps what the worker said
only of a candidate whose effects did not step. -/
theorem reconcile_lookup {service : String} {verdict reconciled : Json}
    (returned : reconcile graph service verdict = .ok reconciled) :
    reconciled.lookup "candidate_service" = some (.str service) ∧
      reconciled.lookup "supported" =
        if dominantFamily (graph.effectsOf service) = none then verdict.lookup "supported"
        else some (.bool true) := by
  have dict := reconcile_returns_iff.mp ⟨_, returned⟩
  cases verdict with
  | dict entries =>
    simp only [reconcile, Json.setItem, bind, Except.bind, pure, Except.pure, Except.ok.injEq,
      Json.entries] at returned
    subst returned
    have different : "supported" ≠ "candidate_service" := by decide
    constructor
    · rw [Json.lookup, Json.entries, attributed_lookup _ _ (by decide),
        overruled_lookup_candidate, lookup_assign, if_pos rfl]
    · rw [Json.lookup, Json.entries, attributed_lookup _ _ (by decide),
        overruled_lookup_supported, lookup_assign, if_neg different]
      rfl
  | _ => simp [Json.isDict] at dict

/-- A reconciled verdict refutes its candidate, if the candidate is quiet and
the worker said `False`. -/
theorem reconcile_refutes {service : String} {verdict reconciled : Json}
    (returned : reconcile graph service verdict = .ok reconciled) (s : String) :
    refutedBy graph reconciled = some s ↔
      s = service ∧ Quiet graph s ∧ verdict.lookup "supported" = some (.bool false) := by
  obtain ⟨candidate, supported⟩ := reconcile_lookup returned
  rw [refutedBy_iff, candidate, supported]
  by_cases silent : dominantFamily (graph.effectsOf service) = none
  · rw [if_pos silent]
    constructor
    · rintro ⟨said, named, normal⟩
      cases named
      exact ⟨rfl, ⟨normal, silent⟩, said⟩
    · rintro ⟨rfl, ⟨normal, -⟩, said⟩
      exact ⟨said, rfl, normal⟩
  · rw [if_neg silent]
    constructor
    · rintro ⟨said, -⟩
      cases said
    · rintro ⟨rfl, ⟨-, quiet⟩, -⟩
      exact absurd quiet silent

end Refutation

section Plan
variable {graph : Graph} {plan : List Hypothesis}

theorem corrected_candidate (graph : Graph) (h : Hypothesis) :
    (corrected graph h).candidateService = h.candidateService := by
  unfold corrected
  split
  · rfl
  · split <;> rfl

theorem corrected_edge (graph : Graph) (h : Hypothesis) :
    (corrected graph h).edge = h.edge := by
  unfold corrected
  split
  · rfl
  · split <;> rfl

/-- An edge of one service has no second entry to print. -/
theorem hypothesisText_returns_iff {h : Hypothesis} :
    Returns (hypothesisText h) ↔ ∀ only, h.edge ≠ some [only] := by
  unfold hypothesisText edgeText
  rcases h.edge with _ | (_ | ⟨upstream, _ | ⟨downstream, rest⟩⟩) <;>
    simp [bind, Except.bind, pure, Except.pure, returns_ok, not_returns_error]

theorem mem_injected_edge {h : Hypothesis}
    (member : h ∈ (graph.rankedServices.take 3).filterMap (injected graph plan)) : h.edge = none := by
  obtain ⟨svc, -, made⟩ := List.mem_filterMap.mp member
  unfold injected at made
  split at made
  · cases made
  · split at made
    · cases made
      rfl
    · cases made

theorem runRca_of_runs {runs : List WorkerRun} {worker : WorkerCall} {narration : List Json → Synthesis}
    (investigated : investigateAll graph worker plan = .ok runs) :
    ∃ result, runRca graph plan worker (fun verdicts => .ok (narration verdicts)) = .ok result := by
  obtain ⟨synth, narrated⟩ : Returns (narrate (fun verdicts => .ok (narration verdicts))
      (verdictsOf runs)) := by
    unfold narrate
    split <;> exact returns_ok _
  exact ⟨_, bind_ok_iff.mpr ⟨runs, investigated, bind_ok_iff.mpr ⟨synth, narrated, rfl⟩⟩⟩

end Plan
end Sentinel.Oss
