import Sentinel.Agent.Hooks
import Sentinel.Sandbox.Kernel

/-! One worker: a bounded loop of chat turns over a code sandbox, ended by the
first turn whose output carries a verdict. The conversation itself, prompts and
nudges, only reaches the model, whose responses are the input here. -/
namespace Sentinel.Oss
open Python Agent Sandbox

structure Usage where
  input : ℕ := 0
  output : ℕ := 0
  deriving DecidableEq, Repr

def Usage.add (u v : Usage) : Usage := ⟨u.input + v.input, u.output + v.output⟩

/-- A tool call of a response, with what the executor does when it is handed
code at this point of the run. -/
structure FunctionCall where
  name : String
  arguments : String
  run : Json → Py ExecResult

structure Response where
  calls : List FunctionCall
  usage : Usage := {}

/-- The responses a worker is given, by iteration. -/
abbrev Chat := ℕ → Response

structure WorkerRun where
  verdict : Option Json
  harnessFail : Bool
  iters : ℕ
  usage : Usage

/-- `WorkerVerdict.model_validate(v).model_dump(mode="json")`, `none` standing
for a `ValidationError`. -/
class VerdictSchema where
  validate : Json → Option (List (String × Json))

def verdictTag : String := "__VERDICT__"

def isDecodeError (e : Exn) : Bool := e.type = "JSONDecodeError"

section Worker
variable [JsonLoads]

/-- A verdict line that is no JSON, or is `null`, counts as no verdict. -/
def readVerdict (text : List Char) : Py (Option Json) :=
  match JsonLoads.loads text with
  | .ok .null => .ok none
  | .ok v => .ok (some v)
  | .error e => if isDecodeError e then .ok none else .error e

/-- The text after the tag of the first tagged line. -/
def verdictText (stdout : String) : Option (List Char) :=
  ((splitlines stdout.toList).find? fun line => verdictTag.toList <+: line).map
    (List.drop verdictTag.toList.length)

def extractVerdict (stdout : String) : Py (Option Json) :=
  match verdictText stdout with
  | none => .ok none
  | some text => readVerdict text

/-- `json.loads(arguments).get("code", "")`. -/
def decodeCode (arguments : String) : Py Json :=
  match JsonLoads.loads arguments.toList with
  | .ok (.dict entries) => .ok ((entries.lookup "code").getD (.str ""))
  | .ok v => .error ⟨"AttributeError", s!"'{v.typeName}' object has no attribute 'get'", false⟩
  | .error e => if isDecodeError e then .ok (.str "") else .error e

def runCall (call : FunctionCall) : Py (Option Json) :=
  if call.name ≠ "run_code" then .ok none
  else do
    let code ← decodeCode call.arguments
    let res ← call.run code
    extractVerdict res.stdout

/-- All calls of a turn run; the last verdict found stands. -/
def runCalls : List FunctionCall → Option Json → Py (Option Json)
  | [], verdict => .ok verdict
  | call :: rest, verdict => do
    let found ← runCall call
    runCalls rest (found.or verdict)

/-- The iterations that are left, after `iters` of them. -/
def iterate (chat : Chat) : ℕ → ℕ → Usage → Py (Option Json × ℕ × Usage)
  | 0, iters, usage => .ok (none, iters, usage)
  | left + 1, iters, usage => do
    let resp := chat iters
    let usage := usage.add resp.usage
    match ← runCalls resp.calls none with
    | some verdict => .ok (some verdict, iters + 1, usage)
    | none => iterate chat left (iters + 1) usage

/-- A verdict that fails the schema is passed on all the same. -/
def runWorker [VerdictSchema] (chat : Chat) (maxIters : ℕ) : Py WorkerRun := do
  let (verdict, iters, usage) ← iterate chat maxIters 0 {}
  match verdict with
  | none => .ok { verdict := none, harnessFail := true, iters, usage }
  | some v =>
    match VerdictSchema.validate v with
    | none => .ok { verdict := some v, harnessFail := true, iters, usage }
    | some dump => .ok { verdict := some (.dict dump), harnessFail := false, iters, usage }

end Worker
end Sentinel.Oss
