import Sentinel.ToolEval.Aggregate

/-! The evaluation: every scenario is run the same number of times, each run is graded and
stored, and the report is over all of them. -/
namespace Sentinel.ToolEval
open Python Fixtures Tools Transition

section
variable {Store Truth W : Type}

/-- `{scenario}{mode_suffix}{suffix}.json`. -/
def resultName (scenario : Scenario) (repeats i : ℕ) (result : TaskResult) : String :=
  scenario.id ++ (if result.toolMode = "native" then "" else "." ++ result.toolMode) ++
    (if 1 < repeats then s!".run{i + 1}" else "") ++ ".json"

/-- The runs of one scenario in `main`, each stored under the results directory. -/
def Harness.repeatTask (harness : Harness Store Truth W) (repeats : ℕ)
    (scenario : Scenario) : Evaluating W (List TaskResult) :=
  .forEach (fun i => do
    let result ← harness.runTask scenario
    harness.write [resultName scenario repeats i result] (resultJson result)
    pure result) (List.range repeats)

/-- The loop of `main`: all results, and the records by scenario. -/
def Harness.evaluate (harness : Harness Store Truth W) (scenarios : List Scenario)
    (repeats : ℕ) : Evaluating W (List TaskResult × Dict String (List RunRecord)) :=
  .loop (fun done scenario => do
    let results ← harness.repeatTask repeats scenario
    pure (done.1 ++ results, done.2.set scenario.id (results.map runRecord)))
    ([], .empty) scenarios

end

/-! ### The runs of the evaluation -/

theorem passes_runRecord (result : TaskResult) {d : String} (kept : d ∈ "correct" :: dimensions) :
    (runRecord result).passes d = holds result.grade d := by
  rw [RunRecord.passes, runRecord, lookup_map_pair _ _ kept, holds]
  cases result.grade.lookup d <;> rfl

section
variable {Store Truth W : Type} {harness : Harness Store Truth W} {repeats : ℕ}

/-- The results of a scenario's runs. -/
structure Harness.Batch (harness : Harness Store Truth W) (repeats : ℕ) (scenario : Scenario)
    (batch : List TaskResult) : Prop where
  runs : batch.length = repeats
  graded : ∀ result ∈ batch, harness.Graded scenario result

theorem yields_repeatTask (scenario : Scenario) :
    Calls.Yields (harness.Batch repeats scenario) (harness.repeatTask repeats scenario) := by
  have each (i : ℕ) : Calls.Yields (harness.Graded scenario) (do
      let result ← harness.runTask scenario
      harness.write [resultName scenario repeats i result] (resultJson result)
      pure result) := by
    refine (harness.yields_runTask scenario).bind fun result graded => ?_
    exact (Calls.yields_any _).bind fun _ _ => Calls.yields_pure graded
  intro s batch t returned
  have related := Calls.yields_forEach (R := fun _ => harness.Graded scenario)
    (fun i _ => each i) s batch t returned
  constructor
  · rw [← related.length_eq, List.length_range]
  · clear returned
    generalize List.range repeats = indices at related
    induction related with
    | nil => simp
    | cons first _ ih => exact List.forall_mem_cons.mpr ⟨first, ih⟩

/-- The table of the batches. -/
def rowsOf (scenarios : List Scenario) (batches : List (List TaskResult)) :
    List (String × List RunRecord) :=
  List.zipWith (fun scenario batch => (scenario.id, batch.map runRecord)) scenarios batches

/-- The results so far are those of the batches, and where the names are distinct so is the
table. -/
def Harness.Evaluated (harness : Harness Store Truth W) (repeats : ℕ) (scenarios : List Scenario)
    (done : List TaskResult × Dict String (List RunRecord)) : Prop :=
  ∃ batches, List.Forall₂ (harness.Batch repeats) scenarios batches ∧ done.1 = batches.flatten ∧
    ((scenarios.map Scenario.id).Nodup → done.2.items = rowsOf scenarios batches)

theorem keys_rowsOf {scenarios : List Scenario} {batches : List (List TaskResult)}
    (same : scenarios.length = batches.length) :
    (rowsOf scenarios batches).map Prod.fst = scenarios.map Scenario.id := by
  rw [rowsOf, List.map_zipWith]
  induction scenarios generalizing batches with
  | nil => rfl
  | cons scenario rest ih =>
    cases batches with
    | nil => cases same
    | cons batch later => exact congrArg _ (ih (Nat.succ.inj same))

theorem yields_evaluate (scenarios : List Scenario) :
    Calls.Yields (harness.Evaluated repeats scenarios) (harness.evaluate scenarios repeats) := by
  refine Calls.yields_loop (harness.Evaluated repeats) ?_ (show harness.Evaluated repeats [] ([], .empty)
    from ⟨[], .nil, rfl, fun _ => rfl⟩) scenarios
  rintro scenarios done scenario ⟨batches, related, results, table⟩
  refine (yields_repeatTask scenario).bind fun batch held => Calls.yields_pure ?_
  refine ⟨batches ++ [batch], List.rel_append related (.cons held .nil), ?_, fun distinct => ?_⟩
  · rw [results, List.flatten_append, List.flatten_singleton]
  · rw [List.map_append, List.map_singleton, List.nodup_append] at distinct
    have listed := table distinct.1
    have fresh : scenario.id ∉ done.2.keys := by
      rw [Dict.keys, listed, keys_rowsOf related.length_eq]
      intro member
      exact distinct.2.2 _ member _ (List.mem_singleton_self _) rfl
    have set : (done.2.set scenario.id (batch.map runRecord)).items =
        done.2.items ++ [(scenario.id, batch.map runRecord)] := assign_fresh fresh
    rw [set, listed, rowsOf, rowsOf, List.zipWith_append related.length_eq]
    rfl

theorem flatten_length {scenarios : List Scenario} {batches : List (List TaskResult)}
    (related : List.Forall₂ (harness.Batch repeats) scenarios batches) :
    batches.flatten.length = scenarios.length * repeats := by
  induction related with
  | nil => simp
  | cons first _ ih =>
    rw [List.flatten_cons, List.length_append, first.runs, ih, List.length_cons, Nat.succ_mul,
      Nat.add_comm]

theorem passesOf_rowsOf {scenarios : List Scenario} {batches : List (List TaskResult)}
    (related : List.Forall₂ (harness.Batch repeats) scenarios batches) {d : String}
    (kept : d ∈ "correct" :: dimensions) :
    passesOf (rowsOf scenarios batches) d = batches.flatten.countP fun r => holds r.grade d := by
  induction related with
  | nil => rfl
  | @cons scenario batch _ _ _ _ ih =>
    rw [List.flatten_cons, List.countP_append, ← ih, rowsOf, List.zipWith_cons_cons, passesOf,
      List.map_cons, List.sum_cons, List.countP_map]
    congr 1
    apply List.countP_congr
    intro result _
    rw [Function.comp_apply, passes_runRecord result kept]

theorem countP_own {results : List TaskResult} {name : String}
    (named : ∀ r ∈ results, r.scenarioId = name) (p : TaskResult → Bool) :
    (results.countP fun r => r.scenarioId = name && p r) = results.countP p := by
  apply List.countP_congr
  intro r member
  rw [named r member, decide_eq_true rfl, Bool.true_and]

theorem countP_foreign {results : List TaskResult} {name : String}
    (foreign : ∀ r ∈ results, r.scenarioId ≠ name) (p : TaskResult → Bool) :
    (results.countP fun r => r.scenarioId = name && p r) = 0 := by
  rw [List.countP_eq_zero]
  intro r member both
  rw [Bool.and_eq_true, decide_eq_true_iff] at both
  exact foreign r member both.1

/-- Every result of the batches bears the name of a scenario. -/
theorem scenarioId_mem {scenarios : List Scenario} {batches : List (List TaskResult)}
    (related : List.Forall₂ (harness.Batch repeats) scenarios batches) :
    ∀ r ∈ batches.flatten, r.scenarioId ∈ scenarios.map Scenario.id := by
  induction related with
  | nil => simp
  | @cons scenario batch _ _ held _ ih =>
    intro r member
    rw [List.flatten_cons, List.mem_append] at member
    rcases member with inside | after
    · rw [(held.graded r inside).1]
      exact List.mem_cons_self
    · exact List.mem_cons_of_mem _ (ih r after)

/-- The runs of a batch are those of the results that bear its scenario's name. -/
theorem own_runs {scenarios : List Scenario} {batches : List (List TaskResult)}
    (related : List.Forall₂ (harness.Batch repeats) scenarios batches)
    (distinct : (scenarios.map Scenario.id).Nodup) :
    List.Forall₂ (fun scenario batch => batch.length = repeats ∧ ∀ p : TaskResult → Bool,
      (batches.flatten.countP fun r => r.scenarioId = scenario.id && p r) = batch.countP p)
      scenarios batches := by
  induction related with
  | nil => exact .nil
  | @cons scenario batch rest later first others ih =>
    rw [List.map_cons, List.nodup_cons] at distinct
    have named : ∀ r ∈ batch, r.scenarioId = scenario.id := fun r member => (first.graded r member).1
    refine .cons ⟨first.runs, fun p => ?_⟩ ?_
    · have foreign : ∀ r ∈ later.flatten, r.scenarioId ≠ scenario.id := fun r member same =>
        distinct.1 (same ▸ scenarioId_mem others r member)
      rw [List.flatten_cons, List.countP_append, countP_own named, countP_foreign foreign, Nat.add_zero]
    · have apart : ∀ other ∈ rest, other.id ≠ scenario.id := fun other member same =>
        distinct.1 (same ▸ List.mem_map_of_mem member)
      refine ((List.forall₂_and_left _ _).mpr ⟨apart, ih distinct.2⟩).imp ?_
      rintro other batch' ⟨ne, length, counts⟩
      refine ⟨length, fun p => ?_⟩
      have foreign : ∀ r ∈ batch, r.scenarioId ≠ other.id := fun r member same =>
        ne (same.symm.trans (named r member))
      rw [List.flatten_cons, List.countP_append, countP_foreign foreign, Nat.zero_add]
      exact counts p

/-- The row of a scenario, counted over all results. -/
def Scenario.row (scenario : Scenario) (repeats : ℕ) (results : List TaskResult) :
    ScenarioReliability where
  scenarioId := scenario.id
  runs := repeats
  passes := results.countP fun r => r.scenarioId = scenario.id && holds r.grade "correct"
  dimensionPasses := dimensions.map fun d =>
    (d, results.countP fun r => r.scenarioId = scenario.id && holds r.grade d)

theorem rows_rowsOf {scenarios : List Scenario} {batches : List (List TaskResult)}
    (related : List.Forall₂ (harness.Batch repeats) scenarios batches)
    (distinct : (scenarios.map Scenario.id).Nodup) :
    (rowsOf scenarios batches).map reliability =
      scenarios.map fun scenario => scenario.row repeats batches.flatten := by
  have own := own_runs related distinct
  generalize batches.flatten = results at own
  clear related distinct
  induction own with
  | nil => rfl
  | @cons scenario batch _ _ first _ ih =>
    have counted {d : String} (kept : d ∈ "correct" :: dimensions) :
        ((batch.map runRecord).countP fun r => r.passes d) =
          results.countP fun r => r.scenarioId = scenario.id && holds r.grade d := by
      rw [first.2 (fun r => holds r.grade d), List.countP_map]
      apply List.countP_congr
      intro result _
      rw [Function.comp_apply, passes_runRecord result kept]
    rw [rowsOf, List.zipWith_cons_cons, List.map_cons, List.map_cons]
    refine congrArg₂ List.cons ?_ ih
    rw [reliability, Scenario.row, List.length_map, first.1, counted List.mem_cons_self]
    congr 1
    apply List.map_congr_left
    intro d known
    rw [counted (List.mem_cons_of_mem _ known)]

end

/-! ### The report of an evaluation -/

section
variable [LowerCase] {Store W : Type} {harness : Harness Store PrivateTruth W}

theorem passes_of_graded (grades : harness.grader = grade) {scenario : Scenario}
    {result : TaskResult} (graded : harness.Graded scenario result) {d : String}
    (part : d = "location_correct" ∨ d = "culprit_correct")
    (correct : (runRecord result).passes "correct" = true) : (runRecord result).passes d = true := by
  obtain ⟨-, truth, graded⟩ := graded
  have both := grade_correct (grades ▸ graded)
  rw [passes_runRecord result (by decide)] at correct
  rw [correct] at both
  have halves := (Bool.and_eq_true _ _).mp both.symm
  rcases part with rfl | rfl
  · rw [passes_runRecord result (by decide), halves.1]
  · rw [passes_runRecord result (by decide), halves.2]

theorem even_rowsOf (grades : harness.grader = grade) {repeats : ℕ} {scenarios : List Scenario}
    {batches : List (List TaskResult)}
    (related : List.Forall₂ (harness.Batch repeats) scenarios batches) :
    Even (rowsOf scenarios batches) repeats := by
  have each : ∀ entry ∈ rowsOf scenarios batches, entry.2.length = repeats ∧
      ∀ r ∈ entry.2, ∀ d, d = "location_correct" ∨ d = "culprit_correct" →
        r.passes "correct" = true → r.passes d = true := by
    induction related with
    | nil => simp [rowsOf]
    | @cons scenario batch _ _ first _ ih =>
      rw [rowsOf, List.zipWith_cons_cons, List.forall_mem_cons]
      refine ⟨⟨(List.length_map _).trans first.runs, ?_⟩, ih⟩
      intro r member d part correct
      obtain ⟨result, inside, rfl⟩ := List.mem_map.mp member
      exact passes_of_graded grades (first.graded result inside) part correct
  constructor
  · exact fun entry member => (each entry member).1
  · exact fun entry member r inside => (each entry member).2 r inside _ (.inl rfl)
  · exact fun entry member r inside => (each entry member).2 r inside _ (.inr rfl)

/-- The report of an evaluation counts every run of every scenario, and its rates are in
order. -/
theorem evaluation_ordered [FloatSum] (grades : harness.grader = grade) {scenarios : List Scenario}
    (distinct : (scenarios.map Scenario.id).Nodup) {repeats : ℕ}
    {s t : W × List (List String × Json)} {results : List TaskResult}
    {table : Dict String (List RunRecord)}
    (returned : harness.evaluate scenarios repeats s = (.ok (results, table), t)) :
    results.length = scenarios.length * repeats ∧
      (aggregate table).perScenario = scenarios.map (fun scenario => scenario.row repeats results) ∧
      (aggregate table).totalRuns = results.length ∧
      (aggregate table).totalPasses = results.countP (fun r => holds r.grade "correct") ∧
      (aggregate table).Ordered := by
  obtain ⟨batches, related, flat, items⟩ := yields_evaluate scenarios s _ t returned
  have listed : table.items = rowsOf scenarios batches := items distinct
  obtain rfl : results = batches.flatten := flat
  have even : Even table.items repeats := listed ▸ even_rowsOf grades related
  have sums := sums_foldl table.items
  have length := flatten_length related
  refine ⟨length, ?_, ?_, ?_, aggregate_ordered even⟩
  · exact sums.rows.trans (listed ▸ rows_rowsOf related distinct)
  · have rows : table.items.length = scenarios.length := by
      rw [listed, rowsOf, List.length_zipWith, related.length_eq, Nat.min_self]
    rw [length, ← rows]
    exact sums.runs.trans (runs_of_even even.runs)
  · exact sums.passes.trans (listed ▸ passesOf_rowsOf related (by decide))

end

section Sample

/-- Lower case of ASCII letters. -/
@[reducible] def lowerLetters : LowerCase := ⟨fun text => String.ofList (text.toList.map Char.toLower)⟩

attribute [local instance] lowerLetters leftSum

def paymentTruth : PrivateTruth where
  scenarioId := "payment_failure_001"
  injection := { rawFlagKey := "paymentFailure", variant := "100%", enabledAtSecond := 300 }
  rootCause := { kind := "service", type := "config_error", service := some "payment" }
  culpritChangeId := "chg_1"
  expectedEvidence := ["charge errors"]
  decoyChangeIds := ["chg_2"]

def paymentReport : Json :=
  .dict [("root_cause", .dict [("kind", .str "service"), ("service", .str "payment")]),
    ("culprit_change_id", .str "chg_1")]

/-- The first run gives up, and the later ones find the cause. -/
def flakyHarness : Harness Unit PrivateTruth ℕ where
  openStore _ n := (.ok (), n)
  loadTruth _ n := (.ok paymentTruth, n)
  buildTaskPrompt _ n := (.ok "", n)
  investigate _ _ n := (.ok { report := if n = 0 then .null else paymentReport }, n + 1)
  mkdir _ n := (.ok (), n)
  writeText _ _ n := (.ok (), n)
  grader := grade

def paymentFailure : Scenario := ⟨"payment_failure_001", "public", "truth.json"⟩
def paymentOutage : Scenario := ⟨"payment_failure_002", "public", "truth.json"⟩

/-- Two scenarios of two runs each: the first run fails, the others pass. -/
theorem flaky_evaluated : ∃ results table t,
    flakyHarness.evaluate [paymentFailure, paymentOutage] 2 (0, []) = (.ok (results, table), t) ∧
      results.length = 4 ∧ (aggregate table).totalPasses = 3 ∧ (aggregate table).Ordered := by
  obtain ⟨results, table, t, returned, right⟩ : ∃ results table t,
      flakyHarness.evaluate [paymentFailure, paymentOutage] 2 (0, []) = (.ok (results, table), t) ∧
        results.countP (fun r => holds r.grade "correct") = 3 := ⟨_, _, _, rfl, rfl⟩
  obtain ⟨length, -, -, passed, ordered⟩ := evaluation_ordered rfl (by decide) returned
  exact ⟨results, table, t, returned, length, passed.trans right, ordered⟩

end Sample

end Sentinel.ToolEval
