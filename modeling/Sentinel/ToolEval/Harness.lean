import Sentinel.Python.Dict
import Sentinel.Python.Rounding
import Sentinel.ToolEval.Grader
import Sentinel.Transition.Calls

/-! One evaluated run: the agent is run on a scenario and its report is graded. What it cost
is estimated from the tokens of the manager and of the workers. -/
namespace Sentinel.ToolEval
open Python Fixtures Tools Transition

/-- `Scenario`. The paths are the text of what they name. -/
structure Scenario where
  id : String
  publicDir : String
  truthPath : String

/-- Prices of a million tokens. -/
structure Price where
  input : ℚ
  output : ℚ
  cacheRead : ℚ
  cacheWrite : ℚ

/-- `_OPUS`. -/
def opus : Price := ⟨5, 25, 1 / 2, 25 / 4⟩

/-- `_SONNET`. -/
def sonnet : Price := ⟨3, 15, rnd (3 / 10), 15 / 4⟩

/-- `usage.get(kind, 0) * price`. -/
def charge (usage : Dict String Int) (kind : String) (price : ℚ) : ℚ :=
  rnd (rnd ((usage.get? kind).getD 0) * price)

/-- `_cost`. -/
def cost (usage : Dict String Int) (price : Price) : ℚ :=
  let talk := rnd (charge usage "input" price.input + charge usage "output" price.output)
  let read := rnd (talk + charge usage "cache_read" price.cacheRead)
  rnd (rnd (read + charge usage "cache_write" price.cacheWrite) / 1000000)

/-- What a run of the agent leaves, in either tool mode. -/
structure Investigation where
  report : Json
  toolMode : String := "native"
  calls : List String := []
  workerCalls : List String := []
  internalCalls : List String := []
  toolErrors : ℕ := 0
  iterations : ℕ := 0
  stop : String := ""
  usage : Dict String Int := .empty
  workerUsage : Dict String Int := .empty
  feedback : String := ""
  denials : ℕ := 0
  subagents : ℕ := 0
  findings : List Json := []
  trace : List Json := []

structure TaskResult extends Investigation where
  scenarioId : String
  grade : Json

def TaskResult.callCount (result : TaskResult) : ℕ := result.calls.length + result.workerCalls.length

def TaskResult.estCostUsd (result : TaskResult) : ℚ :=
  rnd (cost result.usage opus + cost result.workerUsage sonnet)

def counts (counter : Dict String Int) : Json :=
  .dict (counter.items.map fun entry => (entry.1, .int entry.2))

/-- `_result_json`. -/
def resultJson (result : TaskResult) : Json :=
  .dict [("scenario_id", .str result.scenarioId), ("grade", result.grade), ("report", result.report),
    ("calls", texts result.calls), ("worker_calls", texts result.workerCalls),
    ("internal_calls", texts result.internalCalls), ("subagents", .int result.subagents),
    ("findings", .list result.findings), ("tool_errors", .int result.toolErrors),
    ("iterations", .int result.iterations), ("stop", .str result.stop),
    ("usage", counts result.usage), ("worker_usage", counts result.workerUsage),
    ("feedback", .str result.feedback), ("denials", .int result.denials)]

/-- What evaluation calls, for a ground truth of type `Truth`, over the state `W`. -/
structure Harness (Store Truth W : Type) where
  openStore : Scenario → W → Py Store × W
  loadTruth : Scenario → W → Py Truth × W
  buildTaskPrompt : Scenario → W → Py String × W
  /-- `run_manager`, or `run_code_agent` in the code mode. -/
  investigate : Store → String → W → Py Investigation × W
  mkdir : List String → W → Py Unit × W
  writeText : List String → Json → W → Py Unit × W
  grader : Json → Truth → Py Json

/-- Code that may write JSON documents. -/
abbrev Evaluating (W : Type) := Calls Exn (List String × Json) W

namespace Harness
variable {Store Truth W : Type} (harness : Harness Store Truth W)

def runTaskWith (store : Store) (truth : Truth) (prompt : String) (scenarioId : String) :
    Evaluating W TaskResult := do
  let found ← .call (harness.investigate store prompt)
  let grade ← .lift (harness.grader found.report truth)
  pure { found with scenarioId, grade }

def runTask (scenario : Scenario) : Evaluating W TaskResult := do
  let store ← .call (harness.openStore scenario)
  let truth ← .call (harness.loadTruth scenario)
  let prompt ← .call (harness.buildTaskPrompt scenario)
  harness.runTaskWith store truth prompt scenario.id

/-- `run_case` of the converted cases, which reads the truth first. -/
def runCase (scenario : Scenario) : Evaluating W TaskResult := do
  let truth ← .call (harness.loadTruth scenario)
  let store ← .call (harness.openStore scenario)
  let prompt ← .call (harness.buildTaskPrompt scenario)
  harness.runTaskWith store truth prompt scenario.id

def write (path : List String) (document : Json) : Evaluating W Unit :=
  .logged (path, document) (harness.writeText path document)

/-- The result bears the scenario's name and the grade of its report. -/
def Graded (scenario : Scenario) (result : TaskResult) : Prop :=
  result.scenarioId = scenario.id ∧ ∃ truth, harness.grader result.report truth = .ok result.grade

theorem yields_runTaskWith (store : Store) (truth : Truth) (prompt : String) (scenario : Scenario) :
    Calls.Yields (harness.Graded scenario) (harness.runTaskWith store truth prompt scenario.id) := by
  refine (Calls.yields_any _).bind fun found _ => ?_
  refine Calls.Yields.bind (Calls.yields_lift fun grade graded => graded) fun grade graded => ?_
  exact Calls.yields_pure ⟨rfl, truth, graded⟩

theorem yields_runTask (scenario : Scenario) :
    Calls.Yields (harness.Graded scenario) (harness.runTask scenario) :=
  (Calls.yields_any _).bind fun store _ => (Calls.yields_any _).bind fun truth _ =>
    (Calls.yields_any _).bind fun prompt _ => harness.yields_runTaskWith store truth prompt scenario

theorem silent_runTaskWith (store : Store) (truth : Truth) (prompt : String) (scenarioId : String) :
    Calls.Silent (harness.runTaskWith store truth prompt scenarioId) :=
  (Calls.silent_call _).bind fun _ => (Calls.silent_lift _).bind fun _ => Calls.silent_pure _

/-- Running a case writes nothing. -/
theorem silent_runCase (scenario : Scenario) : Calls.Silent (harness.runCase scenario) :=
  (Calls.silent_call _).bind fun truth => (Calls.silent_call _).bind fun store =>
    (Calls.silent_call _).bind fun prompt => harness.silent_runTaskWith store truth prompt scenario.id

end Harness

end Sentinel.ToolEval
