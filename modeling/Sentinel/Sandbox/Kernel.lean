import Sentinel.Sandbox.Rpc
import Sentinel.Transition.Run

/-! A session of a kernel executor after its handshake. Host and kernel share one
stream in each direction; the frames carry no ids. User code is a tree of proxy
calls over a namespace that persists between executions. The stream is reliable
and no timeout fires. -/
namespace Sentinel.Sandbox
open Python Transition

structure ExecResult where
  stdout : String
  error : Option String
  deriving DecidableEq, Repr

/-- What `_rpc` gives the calling code: a result, or a `_ToolError` made of the
error entry. -/
inductive Reply where
  | result (value : Json)
  | toolError (error : Json)

/-- The rest of a piece of code. `exit` leaves the interpreter, as `sys.exit()`. -/
inductive Program (ν : Type) where
  | done (ns : ν) (result : ExecResult)
  | exit
  | rpc (tool args : Json) (resume : Reply → Program ν)

abbrev Code (ν : Type) := ν → Program ν

inductive ToKernel (ν : Type) where
  | exec (code : Code ν)
  | rpcResult (reply : Json)

inductive ToHost where
  | rpc (tool args : Json)
  | execResult (result : ExecResult)

/-- `_rpc` takes the next frame for its reply, whatever it is. -/
def ToKernel.asReply {ν : Type} : ToKernel ν → Reply
  | .exec _ => .toolError (.dict [])
  | .rpcResult reply =>
    if ((reply.lookup "ok").getD .null).truthy then .result ((reply.lookup "result").getD .null)
    else .toolError ((reply.lookup "error").getD (.dict []))

inductive Host (ν : Type) where
  | idle
  | pumping (code : Code ν)

inductive Kernel (ν : Type) where
  | serving (ns : ν)
  | running (code : Code ν) (program : Program ν)
  | awaiting (code : Code ν) (resume : Reply → Program ν)
  | exited

/-- How `run(code)` ended: the handler raised, or a result was returned. -/
inductive RunEnd where
  | raised (e : Exn)
  | returned (result : ExecResult)

/-- Runs that ended and executions that ended, each with its code, in order. -/
structure Session (ν : Type) where
  host : Host ν
  kernel : Kernel ν
  toKernel : List (ToKernel ν) := []
  toHost : List ToHost := []
  runs : List (Code ν × RunEnd) := []
  executions : List (Code ν × ExecResult) := []

/-- What the host returns once the kernel is gone. -/
def exitResult : ExecResult := ⟨"", some "sandbox exited unexpectedly"⟩

def startSession {ν : Type} (ns : ν) : Session ν := { host := .idle, kernel := .serving ns }

inductive Label (ν : Type) where
  | begin (code : Code ν)
  | answer (reply : Json)
  | raise (e : Exn)
  | receive
  | kernel

inductive Step {ν : Type} : Session ν → Label ν → Session ν → Prop where
  | begin {s : Session ν} {code} : s.host = .idle →
      Step s (.begin code) { s with host := .pumping code, toKernel := s.toKernel ++ [.exec code] }
  /-- Writing to a kernel that is gone may fail. -/
  | broken {s : Session ν} {code e} : s.host = .idle → s.kernel = .exited →
      Step s (.begin code) { s with runs := s.runs ++ [(code, .raised e)] }
  /-- The handler answers or denies a proxy call. -/
  | answer {s : Session ν} {code tool args rest reply} : s.host = .pumping code →
      s.toHost = .rpc tool args :: rest →
      Step s (.answer reply)
        { s with toHost := rest, toKernel := s.toKernel ++ [.rpcResult reply] }
  /-- The handler raises: the run ends and nothing is sent. -/
  | raise {s : Session ν} {code tool args rest e} : s.host = .pumping code →
      s.toHost = .rpc tool args :: rest →
      Step s (.raise e) { s with host := .idle, toHost := rest, runs := s.runs ++ [(code, .raised e)] }
  | result {s : Session ν} {code result rest} : s.host = .pumping code →
      s.toHost = .execResult result :: rest →
      Step s .receive
        { s with host := .idle, toHost := rest, runs := s.runs ++ [(code, .returned result)] }
  | closed {s : Session ν} {code} : s.host = .pumping code → s.toHost = [] → s.kernel = .exited →
      Step s .receive { s with host := .idle, runs := s.runs ++ [(code, .returned exitResult)] }
  | exec {s : Session ν} {ns code rest} : s.kernel = .serving ns → s.toKernel = .exec code :: rest →
      Step s .kernel { s with kernel := .running code (code ns), toKernel := rest }
  /-- `_serve` ignores a frame it does not know. -/
  | ignore {s : Session ν} {ns reply rest} : s.kernel = .serving ns →
      s.toKernel = .rpcResult reply :: rest → Step s .kernel { s with toKernel := rest }
  | call {s : Session ν} {code tool args resume} :
      s.kernel = .running code (.rpc tool args resume) →
      Step s .kernel
        { s with kernel := .awaiting code resume, toHost := s.toHost ++ [.rpc tool args] }
  | reply {s : Session ν} {code resume frame rest} : s.kernel = .awaiting code resume →
      s.toKernel = frame :: rest →
      Step s .kernel { s with kernel := .running code (resume frame.asReply), toKernel := rest }
  | done {s : Session ν} {code ns result} : s.kernel = .running code (.done ns result) →
      Step s .kernel
        { s with kernel := .serving ns, toHost := s.toHost ++ [.execResult result]
                 executions := s.executions ++ [(code, result)] }
  | exit {s : Session ν} {code} : s.kernel = .running code .exit →
      Step s .kernel
        { s with kernel := .exited, executions := s.executions ++ [(code, exitResult)] }

end Sentinel.Sandbox
