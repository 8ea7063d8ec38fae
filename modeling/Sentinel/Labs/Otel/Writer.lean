import Mathlib.Data.Prod.Lex
import Sentinel.Fixtures.Dumps
import Sentinel.Labs.Otel.Redactor
import Sentinel.Python.JsonLayout
import Sentinel.Transition.Calls

/-! Writing a sealed fixture directory: the public files, the scan of them for banned
tokens, and after it the private truth. File operations do not fail, and the log holds the
files that were written. -/
namespace Sentinel.Labs.Otel
open Python Fixtures Transition

def fixtureWriteError (message : String) : Exn := ⟨"FixtureWriteError", message, false⟩

/-- What `write_fixture` is given to write. -/
structure FixtureContents where
  manifest : PublicManifest
  metrics : List MetricRow
  logs : List LogRow
  traces : List TraceRow
  changes : List ChangeEvent
  truth : PrivateTruth
  injectionLog : Option (List (String × Json)) := none
  evalOnlyJson : List (String × List (String × Json)) := []
  runbooks : List (List (String × Json)) := []

abbrev Writing := Calls Exn Path Disk

def metricKey (row : MetricRow) : ℤ ×ₗ String ×ₗ String ×ₗ ℚ :=
  toLex (row.time, toLex (row.service, toLex (row.metric, row.value)))

def logKey (row : LogRow) : ℤ ×ₗ String ×ₗ String ×ₗ String :=
  toLex (row.time, toLex (row.service, toLex (row.severity, row.message)))

def traceKey (row : TraceRow) : ℤ ×ₗ String ×ₗ String :=
  toLex (row.time, toLex (row.traceId, row.spanId))

def changeKey (row : ChangeEvent) : ℤ ×ₗ String := toLex (row.time, row.id)

/-- `Path(name).name`. -/
def pathName (name : String) : String :=
  ((name.splitOn "/").filter fun part => part ≠ "" ∧ part ≠ ".").getLastD ""

/-- `Path(name).suffix`, from the last dot of the name, if it is neither first nor last. -/
def pathSuffix (name : String) : String :=
  let last := (pathName name).toList
  let tail := (last.reverse.takeWhile (· ≠ '.')).reverse
  if tail ≠ [] ∧ tail.length + 1 < last.length then String.ofList ('.' :: tail) else ""

section
variable [FloatRepr]

/-- The text of `_write_json` and `_write_plain_json`. -/
def jsonText (value : Json) : List Char := (Layout.indented 2).dumps 0 (sortKeys value) ++ ['\n']

/-- The text of `_write_jsonl`. -/
def jsonlText (rows : List Json) : List Char :=
  rows.flatMap fun row => Layout.compact.dumps 0 (sortKeys row) ++ ['\n']

def writeText (path : Path) (text : List Char) : Writing Unit :=
  .logged path fun disk => (.ok (), disk.write path text)

/-- `_write_json` of a model and `_write_plain_json`. -/
def writeJson (path : Path) (value : Json) : Writing Unit := writeText path (jsonText value)

def writeJsonl (path : Path) (rows : List Json) : Writing Unit := writeText path (jsonlText rows)

def writeEvalOnlyJson (evalDir : Path) (name : String) (value : List (String × Json)) :
    Writing Unit :=
  if pathName name ≠ name ∨ pathSuffix name ≠ ".json" then
    .lift (.error (fixtureWriteError s!"invalid eval-only artifact name: {name}"))
  else writeJson (evalDir ++ [name]) (.dict value)

def checkScenarioIds (fixture : FixtureContents) : Py Unit :=
  if fixture.manifest.scenarioId ≠ fixture.truth.scenarioId then
    .error (fixtureWriteError "manifest and truth scenario_id values must match")
  else .ok ()

def writePublic (publicDir : Path) (fixture : FixtureContents) : Writing Unit := do
  writeJson (publicDir ++ ["manifest.json"]) fixture.manifest.modelDump
  writeJsonl (publicDir ++ ["metrics.jsonl"])
    ((sortedBy metricKey fixture.metrics).map MetricRow.modelDump)
  writeJsonl (publicDir ++ ["logs.jsonl"]) ((sortedBy logKey fixture.logs).map LogRow.modelDump)
  writeJsonl (publicDir ++ ["traces.jsonl"])
    ((sortedBy traceKey fixture.traces).map TraceRow.modelDump)
  writeJsonl (publicDir ++ ["changes.jsonl"])
    ((sortedBy changeKey fixture.changes).map ChangeEvent.modelDump)
  writeJsonl (publicDir ++ ["runbooks.jsonl"]) (fixture.runbooks.map .dict)

def writeEvalOnly (evalDir : Path) (fixture : FixtureContents) : Writing Unit := do
  writeJson (evalDir ++ ["truth.json"]) fixture.truth.modelDump
  match fixture.injectionLog with
  | some injectionLog => writeJson (evalDir ++ ["injection_log.json"]) (.dict injectionLog)
  | none => pure ()
  let _ ← .forEach (fun artifact => writeEvalOnlyJson evalDir artifact.1 artifact.2)
    fixture.evalOnlyJson

def writeFixture (scenarioDir : Path) (fixture : FixtureContents) : Writing Unit := do
  .lift (checkScenarioIds fixture)
  let publicDir := scenarioDir ++ ["public"]
  let evalDir := scenarioDir ++ ["eval_only"]
  .call fun disk => (.ok (), disk.mkdir publicDir)
  .call fun disk => (.ok (), disk.mkdir evalDir)
  writePublic publicDir fixture
  .call fun disk => (assertNoBannedTokens publicDir disk, disk)
  writeEvalOnly evalDir fixture

end

end Sentinel.Labs.Otel
