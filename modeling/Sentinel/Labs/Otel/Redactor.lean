import Mathlib.Data.List.Lex
import Mathlib.Data.String.Basic
import Sentinel.Python.Dict
import Sentinel.Python.Exn
import Sentinel.Python.Ordering
import Sentinel.Python.TextLines

/-! The scan of a public fixture directory for banned tokens. A file is its decoded text,
and the tree has no symbolic links. -/
namespace Sentinel.Labs.Otel
open Python

/-- The parts of an absolute path. -/
abbrev Path := List String

namespace Path

def display (path : Path) : String := "/" ++ "/".intercalate path

end Path

structure Disk where
  directories : List Path
  files : Dict Path (List Char)

namespace Disk

/-- `path.mkdir(parents=True, exist_ok=True)`. -/
def mkdir (path : Path) (disk : Disk) : Disk :=
  { disk with directories := disk.directories ++ path.inits.filter (· ∉ disk.directories) }

def write (path : Path) (text : List Char) (disk : Disk) : Disk :=
  { disk with files := disk.files.set path text }

def text (disk : Disk) (path : Path) : List Char := (disk.files.get? path).getD []

end Disk

def bannedPublicTokens : List String :=
  ["paymentFailure", "paymentUnreachable", "recommendationCacheFailure", "productCatalogFailure",
    "adHighCpu", "adManualGc", "cartFailure", "kafkaQueueProblems", "loadGeneratorFloodHomepage",
    "imageSlowLoad", "emailMemoryLeak", "feature_flag.key", "feature_flag.result.variant",
    "feature_flag.result.value", "feature_flag.", "raw_flag_key"]

structure RedactionFinding where
  path : Path
  token : String
  lineNumber : ℕ

def RedactionFinding.display (finding : RedactionFinding) : String :=
  s!"{finding.path.display}:{finding.lineNumber} contains {finding.token}"

def redactionError (findings : List RedactionFinding) : Exn :=
  let detail := ", ".intercalate ((findings.take 5).map RedactionFinding.display)
  let detail := if 5 < findings.length then s!"{detail}, and {findings.length - 5} more" else detail
  ⟨"RedactionError", s!"public fixture redaction failed: {detail}", false⟩

/-- `_iter_public_files`. -/
def iterPublicFiles (root : Path) (disk : Disk) : Py (List Path) :=
  if root.getLast? ≠ some "public" then
    .error ⟨"ValueError", "redaction scans must target a public/ directory", false⟩
  else if root ∉ disk.directories then
    .error ⟨"ValueError", s!"public fixture directory does not exist: {root.display}", false⟩
  else .ok (sortedBy id (disk.files.keys.filter fun path => root <+: path ∧ path ≠ root))

/-- The tokens of one line. -/
def lineFindings (bannedTokens : List String) (path : Path) (line : List Char × ℕ) :
    List RedactionFinding :=
  (bannedTokens.filter fun token => token.toList <:+: line.1).map fun token => ⟨path, token, line.2⟩

def findBannedTokens (publicDir : Path) (bannedTokens : List String) (disk : Disk) :
    Py (List RedactionFinding) := do
  let paths ← iterPublicFiles publicDir disk
  pure (paths.flatMap fun path =>
    ((textLines (disk.text path)).zipIdx 1).flatMap (lineFindings bannedTokens path))

def assertNoBannedTokens (publicDir : Path) (disk : Disk) : Py Unit := do
  let findings ← findBannedTokens publicDir bannedPublicTokens disk
  if findings.isEmpty then pure () else throw (redactionError findings)

end Sentinel.Labs.Otel
