import Sentinel.Python.Exn

/-! Preflight of a live run: fail fast, name the problem, name the fix. -/
namespace Sentinel.LiveLab
open Python

/-- A row of `lab.app_services()`. -/
structure Service where
  name : String
  state : String
  deriving DecidableEq, Repr

def Service.running (s : Service) : Bool := s.state = "running"

structure Check where
  name : String
  ok : Bool
  detail : String
  deriving DecidableEq, Repr

/-- `_NR_KEYS`. -/
def nrKeys : List String := ["NEW_RELIC_USER_KEY", "NEW_RELIC_ACCOUNT_ID", "NEW_RELIC_LICENSE_KEY"]

/-- `_BOOT_CMD`. -/
def bootCmd : String := "docker compose -f labs/sockshop/docker-compose.yml up -d"

/-- `env.get(key)` is truthy. -/
def isSet (env : String → Option String) (key : String) : Bool := ((env key).getD "") ≠ ""

/-- `run_preflight` without a reader, on what the lab answers. It asks for the
services only when the daemon is up. -/
def runPreflight (daemon : Bool) (services : List Service) (env : String → Option String) :
    List Check :=
  let notRunning := (services.filter fun s => !s.running).map (·.name)
  let missing := nrKeys.filter fun key => !isSet env key
  [⟨"docker", daemon,
      if daemon then "Docker daemon reachable"
      else "Docker daemon is not running; start Docker Desktop"⟩,
    if daemon then
      ⟨"lab", notRunning.isEmpty,
        if notRunning.isEmpty then "all 13 lab services running"
        else "not running: " ++ ", ".intercalate notRunning ++ s!"; run `{bootCmd}`"⟩
    else ⟨"lab", false, s!"unknown (docker down); run `{bootCmd}` once docker is up"⟩,
    ⟨"new_relic_keys", missing.isEmpty,
      if missing.isEmpty then "New Relic keys present"
      else "missing in .env: " ++ ", ".intercalate missing⟩,
    if isSet env "OPEN_ROUTER_API_KEY" then ⟨"openrouter_key", true, "OpenRouter key present"⟩
    else ⟨"openrouter_key", false,
      "missing in .env: OPEN_ROUTER_API_KEY (the gpt-oss agent needs it)"⟩]

/-- What `LiveRun._preflight` raises on: a lab that is down is booted, not refused. -/
def preflightVerdict (checks : List Check) : Py Unit :=
  let blocking := checks.filter fun c => !c.ok && c.name ≠ "lab"
  if blocking.isEmpty then .ok ()
  else .error ⟨"RuntimeError", "; ".intercalate (blocking.map fun c => s!"{c.name}: {c.detail}"),
    false⟩

end Sentinel.LiveLab
