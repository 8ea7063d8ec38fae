import Sentinel.Agent.Hooks

/-! The hooked agentic loop shared by the manager and the investigators. The
model API is any function of the conversation so far; a dispatch acts on a world
of its own and may raise. Streaming events and logging are left out. -/
namespace Sentinel.Agent
open Python

structure ToolUse where
  id : String
  name : String
  input : Json

inductive Block where
  | text (text : String)
  | toolUse (use : ToolUse)
  | other

def Block.toolUse? : Block → Option ToolUse
  | .toolUse use => some use
  | _ => none

/-- Token counts of a response; absent ones count as zero. -/
structure Usage where
  input : Int := 0
  output : Int := 0
  cacheRead : Int := 0
  cacheWrite : Int := 0

structure Response where
  content : List Block
  stopReason : Option String
  usage : Usage := {}

/-- A tool result; its content is sent as the text `json.dumps` writes. -/
structure ToolResult where
  toolUseId : String
  content : Json
  isError : Option Bool := none

inductive Message where
  | user (content : String)
  | assistant (content : List Block)
  | toolResults (results : List ToolResult)

structure LoopConfig where
  create : List ToolSchema → List Message → Py Response
  toolsSchema : List ToolSchema
  initialUser : String
  terminalTool : String
  terminalModel : InputModel
  hooks : List Hook
  maxIters : ℕ
  outputBudget : Int

structure LoopResult where
  terminal : Option Json
  calls : List String
  toolErrors : ℕ
  denials : ℕ
  iterations : ℕ
  stop : String
  usage : Dict String Int
  feedback : String
  events : List HookEvent

/-- The variables of `run_loop`; `results` and `done` belong to the current turn. -/
structure LoopState where
  messages : List Message
  ctx : RunContext
  usage : Dict String Int := Dict.empty
  calls : List String := []
  feedbackParts : List String := []
  terminal : Option Json := none
  toolErrors : ℕ := 0
  denials : ℕ := 0
  results : List ToolResult := []
  done : Bool := false

def extractFeedback (text : String) : String :=
  match find "<feedback>".toList text.toList, find "</feedback>".toList text.toList with
  | some start, some stop =>
    if stop > start then
      let body := start + "<feedback>".length
      String.ofList (strip ((text.toList.drop body).take (stop - body)))
    else ""
  | _, _ => ""

def addUsage (counter : Dict String Int) (usage : Usage) : Dict String Int :=
  let bump := fun (counter : Dict String Int) (key : String) (n : Int) =>
    counter.set key ((counter.get? key).getD 0 + n)
  bump (bump (bump (bump counter "input" usage.input) "output" usage.output)
    "cache_read" usage.cacheRead) "cache_write" usage.cacheWrite

def LoopState.receive (st : LoopState) (resp : Response) : LoopState :=
  { st with
    usage := addUsage st.usage resp.usage
    feedbackParts := st.feedbackParts ++ resp.content.filterMap fun block =>
      match block with
      | .text text => if extractFeedback text = "" then none else some (extractFeedback text)
      | _ => none
    messages := st.messages ++ [.assistant resp.content]
    results := []
    done := false }

/-- `out` of a dispatch that may have raised. -/
def caughtOutput : Py Json → Py Json
  | .ok out => .ok out
  | .error e =>
    if e.base then .error e
    else .ok (errorDict [("code", .str "tool_failed"),
      ("message", .str ((s!"{e.type}: {e.message}").take 300).toString)])

section
variable {σ : Type*}

/-- One requested tool: the hooks decide, then the terminal tool is validated or
any other tool is dispatched and its output is filtered. -/
def runToolUse (config : LoopConfig) (dispatch : String → Json → σ → Py Json × σ)
    (st : LoopState) (world : σ) (tu : ToolUse) : Py LoopState × σ :=
  let st := { st with calls := st.calls ++ [tu.name] }
  let call : ToolCall := ⟨tu.name, if tu.input.isDict then tu.input else .dict []⟩
  match preToolUse config.hooks call st.ctx {} with
  | .error e => (.error e, world)
  | .ok decision =>
    if decision.action = .deny then
      (.ok { st with
        denials := st.denials + 1
        results := st.results ++ [⟨tu.id, errorDict [("code", .str "blocked_by_hook"),
          ("message", .str decision.reason)], some true⟩] }, world)
    else if tu.name = config.terminalTool then
      match config.terminalModel.validate (decision.chosenInput call) with
      | .ok parsed =>
        (.ok { st with
          terminal := some parsed
          done := true
          results := st.results ++ [⟨tu.id, .dict [("accepted", .bool true)], none⟩] }, world)
      | .error errors =>
        (.ok { st with
          toolErrors := st.toolErrors + 1
          results := st.results ++ [⟨tu.id, errorDict [("code", .str "invalid_input"),
            ("message", .str ((config.terminalModel.errorText errors).take 500).toString)],
            none⟩] }, world)
    else
      match dispatch tu.name (decision.chosenInput call) world with
      | (raw, world) =>
        match caughtOutput raw with
        | .error e => (.error e, world)
        | .ok out =>
          match postToolUse config.hooks call out st.ctx with
          | .error e => (.error e, world)
          | .ok (out, ctx) =>
            (.ok { st with
              ctx := { ctx with toolCalls := ctx.toolCalls + 1 }
              toolErrors := st.toolErrors + if hasError out then 1 else 0
              results := st.results ++ [⟨tu.id, out, some (hasError out)⟩] }, world)

def runToolUses (config : LoopConfig) (dispatch : String → Json → σ → Py Json × σ) :
    List ToolUse → LoopState → σ → Py LoopState × σ
  | [], st, world => (.ok st, world)
  | tu :: rest, st, world =>
    match runToolUse config dispatch st world tu with
    | (.error e, world) => (.error e, world)
    | (.ok st, world) => runToolUses config dispatch rest st world

def LoopState.result (st : LoopState) (iterations : ℕ) (stop : String) : LoopResult :=
  { terminal := st.terminal, calls := st.calls, toolErrors := st.toolErrors,
    denials := st.denials, iterations, stop, usage := st.usage,
    feedback := "\n\n".intercalate st.feedbackParts, events := st.ctx.events }

/-- The iterations left, of which `iterations` were made. -/
def runIterations (config : LoopConfig) (dispatch : String → Json → σ → Py Json × σ) :
    ℕ → ℕ → LoopState → σ → Py LoopResult × σ
  | 0, iterations, st, world => (.ok (st.result iterations "max_iters"), world)
  | left + 1, iterations, st, world =>
    match config.create config.toolsSchema st.messages with
    | .error e => (.error e, world)
    | .ok resp =>
      let st := st.receive resp
      if resp.stopReason ≠ some "tool_use" then
        let stop := resp.stopReason.getD ""
        (.ok (st.result (iterations + 1) (if stop = "" then "end_turn" else stop)), world)
      else
        match runToolUses config dispatch (resp.content.filterMap Block.toolUse?) st world with
        | (.error e, world) => (.error e, world)
        | (.ok st, world) =>
          let st : LoopState := { st with messages := st.messages ++ [.toolResults st.results] }
          if st.done then (.ok (st.result (iterations + 1) "reported"), world)
          else if (st.usage.get? "output").getD 0 > config.outputBudget then
            (.ok (st.result (iterations + 1) "budget_exceeded"), world)
          else runIterations config dispatch left (iterations + 1) st world

def runLoop (config : LoopConfig) (dispatch : String → Json → σ → Py Json × σ)
    (ctx : RunContext) (world : σ) : Py LoopResult × σ :=
  runIterations config dispatch config.maxIters 0
    { messages := [.user config.initialUser], ctx } world

end

end Sentinel.Agent
