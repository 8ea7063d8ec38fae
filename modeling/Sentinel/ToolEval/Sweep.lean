import Sentinel.ToolEval.Scorecard

/-! A sweep over the converted cases under a cost ceiling. A case that fails is skipped, the
ceiling is checked before each case, and the scorecard tells the graded, the skipped and the
cases that were not run apart. -/
namespace Sentinel.ToolEval
open Python Fixtures Tools Transition

/-- `build_case_scorecard`. -/
def buildCaseScorecard (result : TaskResult) : Json :=
  .dict [("scenario_id", .str result.scenarioId), ("diagnosis", result.grade),
    ("speed", .dict [("iterations", .int result.iterations)]),
    ("cost", .dict [("est_cost_usd", .float (roundFour result.estCostUsd)),
      ("tool_calls", .int result.callCount), ("manager_calls", .int result.calls.length),
      ("worker_calls", .int result.workerCalls.length), ("tokens_manager", counts result.usage),
      ("tokens_workers", counts result.workerUsage)]),
    ("reliability", .dict [("tool_errors", .int result.toolErrors),
      ("hook_denials", .int result.denials), ("stop", .str result.stop),
      ("subagents", .int result.subagents), ("completed", .bool (result.stop = "reported"))])]

/-- The documents that are kept of a case. -/
def caseFiles (caseDir : List String) (result : TaskResult) : List (List String × Json) :=
  [(caseDir ++ ["result.json"], resultJson result),
    (caseDir ++ ["trace.json"],
      .dict [("trace", .list result.trace), ("findings", .list result.findings)]),
    (caseDir ++ ["metrics.json"], buildCaseScorecard result)]

/-- What the loop of a sweep keeps. -/
structure Sweep where
  graded : List (String × Json) := []
  skipped : List (String × Exn) := []
  totalCost : ℚ := 0

/-- A case and how its run ended. -/
abbrev Attempt := Scenario × Py TaskResult

def Sweep.note (done : Sweep) (attempt : Attempt) : Sweep :=
  match attempt.2 with
  | .ok result =>
    { done with
      graded := done.graded ++ [(attempt.1.id, result.grade)]
      totalCost := rnd (done.totalCost + result.estCostUsd) }
  | .error e => { done with skipped := done.skipped ++ [(attempt.1.id, e)] }

/-- `max_cost is not None and total_cost >= max_cost`. -/
def atCeiling (maxCost : Option ℚ) (totalCost : ℚ) : Bool := maxCost.any fun limit => limit ≤ totalCost

/-- The scores and what `run_sweep` adds to them. -/
def scorecardOf (maxCost : Option ℚ) (done : Sweep) (left : Option (List Scenario)) (scores : Scores) :
    Scorecard :=
  { scores with
    overallAc1 := share scores.hits done.graded.length
    n := done.graded.length
    skipped := done.skipped
    notRun := (left.getD []).map Scenario.id
    stoppedEarly := left.isSome
    totalCostUsd := roundFour done.totalCost
    maxCostUsd := maxCost }

namespace Harness
variable {Store Truth W : Type} (harness : Harness Store Truth W)

def persistCase (caseDir : List String) (result : TaskResult) : Evaluating W Unit := do
  .call (harness.mkdir caseDir)
  let _ ← .forEach (fun file => harness.write file.1 file.2) (caseFiles caseDir result)
  pure ()

/-- The loop of `run_sweep`, and the cases that it leaves at a `break`. -/
def sweepCases (outDir : List String) (maxCost : Option ℚ) :
    Sweep → List Scenario → Evaluating W (Sweep × Option (List Scenario))
  | done, [] => pure (done, none)
  | done, scenario :: rest =>
    if atCeiling maxCost done.totalCost then pure (done, some (scenario :: rest))
    else do
      let outcome ← .catching (fun e => !e.base) (harness.runCase scenario)
      outcome.toOption.elim (pure ()) (harness.persistCase (outDir ++ [scenario.id]))
      sweepCases outDir maxCost (done.note (scenario, outcome)) rest

def runSweep [StrRepr] (reprExn : Exn → String) (outDir : List String) (scenarios : List Scenario)
    (maxCost : Option ℚ) : Evaluating W Scorecard := do
  .call (harness.mkdir outDir)
  let (done, left) ← harness.sweepCases outDir maxCost {} scenarios
  let scores ← .lift (aggregateScorecard done.graded)
  let card := scorecardOf maxCost done left scores
  harness.write (outDir ++ ["scorecard.json"]) (card.toJson reprExn)
  pure card

end Harness

/-! ### The cases of a sweep -/

namespace Harness
variable {Store Truth W : Type} (harness : Harness Store Truth W) {outDir : List String}
  {maxCost : Option ℚ}

/-- The cases that were run, one after the other, and how each ended: with a result that is
kept, or with an exception that is passed over. -/
inductive Attempted (outDir : List String) :
    W × List (List String × Json) → List Attempt → W × List (List String × Json) → Prop where
  | done (s) : Attempted outDir s [] s
  | graded {s t u v scenario result rest} : harness.runCase scenario s = (.ok result, t) →
      harness.persistCase (outDir ++ [scenario.id]) result t = (.ok (), u) →
      Attempted outDir u rest v → Attempted outDir s ((scenario, .ok result) :: rest) v
  | skipped {s t v scenario e rest} : harness.runCase scenario s = (.error e, t) →
      e.base = false → Attempted outDir t rest v →
      Attempted outDir s ((scenario, .error e) :: rest) v

/-- An exception that ends a sweep: an interrupt, or one of writing files. -/
def Fatal (e : Exn) : Prop :=
  e.base = true ∨ (∃ path w, (harness.mkdir path w).1 = .error e) ∨
    ∃ path document w, (harness.writeText path document w).1 = .error e

theorem throws_mkdir (path : List String) :
    Calls.Throws harness.Fatal (.call (harness.mkdir path) : Evaluating W Unit) :=
  Calls.throws_call fun w _ raised => .inr (.inl ⟨path, w, raised⟩)

theorem throws_write (path : List String) (document : Json) :
    Calls.Throws harness.Fatal (harness.write path document) :=
  Calls.throws_logged fun w _ raised => .inr (.inr ⟨path, document, w, raised⟩)

theorem throws_persistCase (caseDir : List String) (result : TaskResult) :
    Calls.Throws harness.Fatal (harness.persistCase caseDir result) := by
  refine (harness.throws_mkdir caseDir).bind fun _ => Calls.Throws.bind ?_ fun _ => Calls.throws_pure ()
  apply Calls.throws_forEach
  intro file
  exact harness.throws_write file.1 file.2

/-- Before every case that is run, what was spent is below the ceiling. -/
def Within (maxCost : Option ℚ) (start : Sweep) (attempts : List Attempt) : Prop :=
  ∀ earlier attempt later, attempts = earlier ++ attempt :: later →
    atCeiling maxCost (earlier.foldl Sweep.note start).totalCost = false

theorem Within.cons {start : Sweep} {attempt : Attempt} {rest : List Attempt}
    (below : atCeiling maxCost start.totalCost = false)
    (later : Within maxCost (start.note attempt) rest) : Within maxCost start (attempt :: rest) := by
  rintro (_ | ⟨first, earlier⟩) a after split
  · exact below
  · obtain ⟨rfl, rfl⟩ := List.cons.inj split
    exact later earlier a after rfl

/-- Where the loop ends: after the last case, or at the ceiling. -/
def Stops (maxCost : Option ℚ) (done : Sweep) (left : Option (List Scenario)) : Prop :=
  left = none ∨ ∃ scenario rest, left = some (scenario :: rest) ∧ atCeiling maxCost done.totalCost = true

theorem sweepCases_spec (outDir : List String) (maxCost : Option ℚ) (scenarios : List Scenario)
    (start : Sweep) (s : W × List (List String × Json)) :
    (∃ attempts left u, harness.sweepCases outDir maxCost start scenarios s =
        (.ok (attempts.foldl Sweep.note start, left), u) ∧
      harness.Attempted outDir s attempts u ∧ scenarios = attempts.map Prod.fst ++ left.getD [] ∧
      Within maxCost start attempts ∧ Stops maxCost (attempts.foldl Sweep.note start) left) ∨
    ∃ e u, harness.sweepCases outDir maxCost start scenarios s = (.error e, u) ∧ harness.Fatal e := by
  induction scenarios generalizing start s with
  | nil =>
    refine .inl ⟨[], none, s, rfl, .done s, rfl, ?_, .inl rfl⟩
    rintro (_ | ⟨_, _⟩) _ _ ⟨⟩
  | cons scenario rest ih =>
    rw [sweepCases]
    cases ceiling : atCeiling maxCost start.totalCost with
    | true =>
      rw [if_pos rfl]
      refine .inl ⟨[], some (scenario :: rest), s, rfl, .done s, rfl, ?_, .inr ⟨_, _, rfl, ceiling⟩⟩
      rintro (_ | ⟨_, _⟩) _ _ ⟨⟩
    | false =>
      rw [if_neg Bool.false_ne_true]
      rcases ran : harness.runCase scenario s with ⟨e | result, t⟩
      · cases base : e.base with
        | true =>
          have ended : Calls.catching (fun e => !e.base) (harness.runCase scenario) s = (.error e, t) :=
            Calls.catching_of_uncaught ran (by rw [base, Bool.not_true])
          exact .inr ⟨e, t, Calls.bind_of_raises ended, .inl base⟩
        | false =>
          have caught : (!e.base) = true := by rw [base, Bool.not_false]
          rw [Calls.bind_of_returns (Calls.catching_of_caught ran caught)]
          rcases ih (start.note (scenario, .error e)) t with
            ⟨attempts, left, u, swept, attempted, split, within, stops⟩ | ⟨e', u, raised, fatal⟩
          · refine .inl ⟨(scenario, .error e) :: attempts, left, u, swept, .skipped ran base attempted,
              ?_, within.cons ceiling, stops⟩
            rw [split]
            rfl
          · exact .inr ⟨e', u, raised, fatal⟩
      · rw [Calls.bind_of_returns (Calls.catching_of_returns ran)]
        rcases kept : harness.persistCase (outDir ++ [scenario.id]) result t with ⟨e | ⟨⟩, u⟩
        · exact .inr ⟨e, u, Calls.bind_of_raises kept, harness.throws_persistCase _ _ t e u kept⟩
        · have next : ((Except.toOption (.ok result : Py TaskResult)).elim (pure ())
              (harness.persistCase (outDir ++ [scenario.id])) : Evaluating W Unit) t = (.ok (), u) := kept
          rw [Calls.bind_of_returns next]
          rcases ih (start.note (scenario, .ok result)) u with
            ⟨attempts, left, v, swept, attempted, split, within, stops⟩ | ⟨e', v, raised, fatal⟩
          · refine .inl ⟨(scenario, .ok result) :: attempts, left, v, swept,
              .graded ran kept attempted, ?_, within.cons ceiling, stops⟩
            rw [split]
            rfl
          · exact .inr ⟨e', v, raised, fatal⟩

/-- What is written for a case. -/
def filesOf (outDir : List String) (attempt : Attempt) : List (List String × Json) :=
  attempt.2.toOption.elim [] (caseFiles (outDir ++ [attempt.1.id]))

theorem persistCase_writes {caseDir : List String} {result : TaskResult}
    {s t : W × List (List String × Json)} (kept : harness.persistCase caseDir result s = (.ok (), t)) :
    t.2 = s.2 ++ caseFiles caseDir result := by
  have written : harness.persistCase caseDir result =
      (.call (harness.mkdir caseDir) >>= fun _ =>
        Calls.forEach (fun file => harness.write file.1 file.2) (caseFiles caseDir result) >>= fun _ =>
          pure ()) := rfl
  rw [written] at kept
  obtain ⟨_, u, made, files⟩ := Calls.returned_of_bind kept
  obtain ⟨_, v, stored, ended⟩ := Calls.returned_of_bind files
  cases ended
  have log := Calls.log_forEach_of_returns (f := id) (fun file s b t wrote => Calls.logged_appends wrote) stored
  rw [log, (Calls.silent_call _).unchanged made, List.map_id]

theorem Attempted.writes {s t : W × List (List String × Json)} {attempts : List Attempt}
    (attempted : harness.Attempted outDir s attempts t) :
    t.2 = s.2 ++ attempts.flatMap (filesOf outDir) := by
  induction attempted with
  | done s => exact (List.append_nil _).symm
  | graded ran kept _ ih =>
    rw [ih, harness.persistCase_writes kept, (harness.silent_runCase _).unchanged ran,
      List.flatMap_cons, List.append_assoc]
    rfl
  | skipped ran _ _ ih =>
    rw [ih, (harness.silent_runCase _).unchanged ran, List.flatMap_cons]
    rfl

end Harness

/-- The grades of the cases that ended with a result. -/
def gradedOf (attempts : List Attempt) : List (String × Json) :=
  attempts.filterMap fun attempt => attempt.2.toOption.map fun result => (attempt.1.id, result.grade)

/-- The cases that raised, with what they raised. -/
def skippedOf (attempts : List Attempt) : List (String × Exn) :=
  attempts.filterMap fun attempt =>
    match attempt.2 with
    | .ok _ => none
    | .error e => some (attempt.1.id, e)

/-- What the cases cost, added up in their order. -/
def spent (attempts : List Attempt) : ℚ :=
  (attempts.filterMap fun attempt => attempt.2.toOption).foldl
    (fun total result => rnd (total + result.estCostUsd)) 0

/-- The loop keeps the grades, the exceptions and the cost of its cases. -/
theorem foldl_note (attempts : List Attempt) :
    attempts.foldl Sweep.note {} = ⟨gradedOf attempts, skippedOf attempts, spent attempts⟩ := by
  induction attempts using List.reverseRecOn with
  | nil => rfl
  | append_singleton attempts attempt ih =>
    obtain ⟨scenario, outcome⟩ := attempt
    rw [List.foldl_concat, ih]
    cases outcome <;> simp [Sweep.note, gradedOf, skippedOf, spent, Except.toOption]

theorem mem_gradedOf {attempts : List Attempt} {entry : String × Json}
    (member : entry ∈ gradedOf attempts) : ∃ attempt ∈ attempts, attempt.1.id = entry.1 := by
  obtain ⟨attempt, inside, made⟩ := List.mem_filterMap.mp member
  obtain ⟨result, -, rfl⟩ := Option.map_eq_some_iff.mp made
  exact ⟨attempt, inside, rfl⟩

/-- What a scorecard tells of the cases that were run and of those that were not. -/
structure Scorecard.Tells [StrRepr] (card : Scorecard) (maxCost : Option ℚ)
    (attempts : List Attempt) (notRun : List Scenario) : Prop where
  scores : card.toScores.Tell (gradedOf attempts)
  n : card.n = (gradedOf attempts).length
  overall : card.overallAc1 = share card.hits card.n
  skipped : card.skipped = skippedOf attempts
  unrun : card.notRun = notRun.map Scenario.id
  stopped : card.stoppedEarly = true ↔ notRun ≠ []
  cost : card.totalCostUsd = roundFour (spent attempts)
  below : ∀ earlier attempt later, attempts = earlier ++ attempt :: later →
    ∀ limit ∈ maxCost, spent earlier < limit
  reached : notRun ≠ [] → ∃ limit ∈ maxCost, limit ≤ spent attempts

/-- A sweep passes over the cases that fail, stops at the ceiling, and tells of every case
what became of it. It raises only at an interrupt, where a file cannot be written, and for a
case whose name tells no system and fault. -/
theorem sweep_accounts [StrRepr] {Store Truth W : Type} (harness : Harness Store Truth W)
    (reprExn : Exn → String) (outDir : List String) (scenarios : List Scenario) (maxCost : Option ℚ)
    (s : W × List (List String × Json)) :
    (∃ card attempts notRun t, harness.runSweep reprExn outDir scenarios maxCost s = (.ok card, t) ∧
      scenarios = attempts.map Prod.fst ++ notRun ∧
      (∃ u v, harness.mkdir outDir s.1 = (.ok (), u) ∧
        harness.Attempted outDir (u, s.2) attempts v) ∧
      t.2 = s.2 ++ attempts.flatMap (Harness.filesOf outDir) ++
        [(outDir ++ ["scorecard.json"], card.toJson reprExn)] ∧
      card.Tells maxCost attempts notRun) ∨
    ∃ e t, harness.runSweep reprExn outDir scenarios maxCost s = (.error e, t) ∧
      (harness.Fatal e ∨ ∃ scenario ∈ scenarios, parseCaseName scenario.id = .error e) := by
  rw [Harness.runSweep]
  rcases made : (.call (harness.mkdir outDir) : Evaluating W Unit) s with ⟨e | ⟨⟩, u⟩
  · exact .inr ⟨e, u, Calls.bind_of_raises made, .inl (harness.throws_mkdir outDir s e u made)⟩
  rw [Calls.bind_of_returns made]
  obtain ⟨created, quiet⟩ : harness.mkdir outDir s.1 = (.ok (), u.1) ∧ u.2 = s.2 := by
    rcases called : harness.mkdir outDir s.1 with ⟨result, w⟩
    simp only [Calls.call, called] at made
    cases made
    exact ⟨rfl, rfl⟩
  rcases harness.sweepCases_spec outDir maxCost scenarios {} u with
    ⟨attempts, left, v, swept, attempted, split, within, stops⟩ | ⟨e, v, raised, fatal⟩
  case inr => exact .inr ⟨e, v, Calls.bind_of_raises raised, .inl fatal⟩
  rw [Calls.bind_of_returns swept, foldl_note]
  rw [foldl_note] at stops
  rcases aggregateScorecard_spec (gradedOf attempts) with
    ⟨scores, added, told⟩ | ⟨e, raised, entry, member, bad⟩
  case inr =>
    refine .inr ⟨e, v, ?_, .inr ?_⟩
    · have lifted : (.lift (aggregateScorecard (gradedOf attempts)) : Evaluating W Scores) v =
          (.error e, v) := by
        rw [raised]
        rfl
      exact Calls.bind_of_raises lifted
    · obtain ⟨attempt, inside, named⟩ := mem_gradedOf member
      refine ⟨attempt.1, ?_, named ▸ bad⟩
      rw [split]
      exact List.mem_append_left _ (List.mem_map_of_mem inside)
  have lifted : (.lift (aggregateScorecard (gradedOf attempts)) : Evaluating W Scores) v =
      (.ok scores, v) := by
    rw [added]
    rfl
  dsimp only
  rw [Calls.bind_of_returns lifted]
  obtain ⟨card, made⟩ : ∃ card, scorecardOf maxCost
      ⟨gradedOf attempts, skippedOf attempts, spent attempts⟩ left scores = card := ⟨_, rfl⟩
  rw [made]
  have tells : card.Tells maxCost attempts (left.getD []) := by
    subst made
    constructor
    case scores => exact told
    case n | overall | skipped | unrun | cost => rfl
    case stopped =>
      rcases stops with rfl | ⟨scenario, rest, rfl, -⟩ <;> simp [scorecardOf]
    case below =>
      intro earlier attempt later same limit isLimit
      have below := within earlier attempt later same
      rw [foldl_note, isLimit] at below
      simpa [atCeiling] using below
    case reached =>
      intro nonempty
      rcases stops with rfl | ⟨scenario, rest, rfl, ceiling⟩
      · exact absurd rfl nonempty
      · obtain ⟨limit, isLimit, le⟩ := (Option.any_eq_true _ _).mp ceiling
        exact ⟨limit, isLimit, of_decide_eq_true le⟩
  rcases wrote : harness.write (outDir ++ ["scorecard.json"]) (card.toJson reprExn) v with ⟨e | ⟨⟩, w⟩
  · exact .inr ⟨e, w, Calls.bind_of_raises wrote, .inl (harness.throws_write _ _ v e w wrote)⟩
  refine .inl ⟨card, attempts, left.getD [], w, ?_, split, ⟨u.1, v, created, ?_⟩, ?_, tells⟩
  · rw [Calls.bind_of_returns wrote]
    rfl
  · rw [← quiet]
    exact attempted
  · rw [Calls.logged_appends wrote, attempted.writes, quiet]

end Sentinel.ToolEval
