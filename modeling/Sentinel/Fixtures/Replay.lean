import Mathlib.Data.Prod.Lex
import Sentinel.Fixtures.Validation
import Sentinel.Labs.Otel.Redactor

/-! The replay loader of public fixture directories: the rows of each file, validated and
put into one order. A file is its decoded text, and reading it does not fail. -/
namespace Sentinel.Fixtures
open Python Tools Labs.Otel

def fixtureAccessError (message : String) : Exn := ⟨"FixtureAccessError", message, false⟩

/-- `PublicFixture`, of which the stores query the rows. -/
structure LoadedFixture where
  root : Path
  manifest : PublicManifest
  metrics : List MetricRow
  logs : List LogRow
  traces : List TraceRow
  changes : List ChangeEvent
  runbooks : List (List (String × Json))

/-- `_require_public_dir`, of a path that is resolved. -/
def requirePublicDir (publicDir : Path) (disk : Disk) : Py Path :=
  if publicDir.getLast? ≠ some "public" then
    .error (fixtureAccessError "fixture replay requires a public/ directory")
  else if "eval_only" ∈ publicDir ∨ "raw" ∈ publicDir then
    .error (fixtureAccessError "fixture replay cannot read eval_only/ or raw/")
  else if disk.directories.contains publicDir then .ok publicDir
  else .error (fixtureAccessError s!"public fixture directory does not exist: {publicDir.display}")

section
variable [FloatRepr] [FloatReader]

def loadJson {α : Type} (path : Path) (validate : Json → Validated α) (disk : Disk) : Py α :=
  match disk.files.get? path with
  | none => .error ⟨"FileNotFoundError", s!"No such file or directory: '{path.display}'", false⟩
  | some text => do
    let v ← loads (universalNewlines text)
    validated (validate v)

/-- The lines of a file that are not blank, none of a file that is not there. -/
def rowLines (path : Path) (disk : Disk) : List (List Char) :=
  match disk.files.get? path with
  | none => []
  | some text => (textLines text).filter fun line => strip line ≠ []

def loadJsonl {α : Type} (path : Path) (validate : Json → Validated α) (disk : Disk) : Py (List α) :=
  (rowLines path disk).mapM fun line => do
    let v ← loads line
    validated (validate v)

def loadJsonlDicts (path : Path) (disk : Disk) : Py (List (List (String × Json))) :=
  (rowLines path disk).mapM fun line => do
    let v ← loads line
    match v with
    | .dict entries => pure entries
    | _ => throw ⟨"ValueError", s!"expected JSON object row in {path.display}", false⟩

/-- `_canonical_json`. -/
def canonicalJson (v : Json) : String := String.ofList (Layout.compact.dumps 0 (sortKeys v))

namespace Replay

def metricKey (row : MetricRow) : ℤ ×ₗ String ×ₗ String ×ₗ String ×ₗ ℚ :=
  toLex (row.time, toLex (row.service, toLex (row.metric,
    toLex (canonicalJson (.dict row.attributes), row.value))))

def logKey (row : LogRow) : ℤ ×ₗ String ×ₗ String ×ₗ String ×ₗ String :=
  toLex (row.time, toLex (row.service, toLex (row.severity,
    toLex (row.message, row.traceId.getD ""))))

def traceKey (row : TraceRow) : ℤ ×ₗ String ×ₗ String ×ₗ String :=
  toLex (row.time, toLex (row.traceId, toLex (row.spanId, row.parentSpanId.getD "")))

def changeKey (row : ChangeEvent) : ℤ ×ₗ String := toLex (row.time, row.id)

def runbookKey (runbook : List (String × Json)) : String := canonicalJson (.dict runbook)

end Replay

def loadPublicFixture [LaxNumbers] (publicDir : Path) (disk : Disk) : Py LoadedFixture := do
  let root ← requirePublicDir publicDir disk
  let metrics ← loadJsonl (root ++ ["metrics.jsonl"]) MetricRow.validate disk
  let logs ← loadJsonl (root ++ ["logs.jsonl"]) LogRow.validate disk
  let traces ← loadJsonl (root ++ ["traces.jsonl"]) TraceRow.validate disk
  let changes ← loadJsonl (root ++ ["changes.jsonl"]) ChangeEvent.validate disk
  let runbooks ← loadJsonlDicts (root ++ ["runbooks.jsonl"]) disk
  let manifest ← loadJson (root ++ ["manifest.json"]) PublicManifest.validate disk
  pure
    { root, manifest
      metrics := sortedBy Replay.metricKey metrics
      logs := sortedBy Replay.logKey logs
      traces := sortedBy Replay.traceKey traces
      changes := sortedBy Replay.changeKey changes
      runbooks := sortedBy Replay.runbookKey runbooks }

end

end Sentinel.Fixtures
