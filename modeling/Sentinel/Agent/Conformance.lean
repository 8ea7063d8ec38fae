import Sentinel.Agent.LoopProofs
import Sentinel.Agent.ReportGates
import Sentinel.Python.JsonProofs
import Sentinel.Transition.Run

/-! The conversation of the agent loop, recorded exchange by exchange. Every
`tool_use` block of a turn meets one of four fates; the counters of the loop, its
messages and its stop are sums over these records. -/
namespace Sentinel.Agent
open Python Transition Tools

/-- The call that the hooks see. -/
def ToolUse.call (tu : ToolUse) : ToolCall :=
  ⟨tu.name, if tu.input.isDict then tu.input else .dict []⟩

def Response.uses (resp : Response) : List ToolUse := resp.content.filterMap Block.toolUse?

/-- What becomes of a `tool_use` block: a denial, a terminal attempt that
validates or not, or a dispatch. -/
inductive Fate where
  | denied
  | accepted (report : Json)
  | rejected
  | dispatched

namespace Fate

def isDenied : Fate → Bool
  | denied => true
  | _ => false

def isDispatched : Fate → Bool
  | dispatched => true
  | _ => false

/-- A terminal attempt that was not denied. -/
def isAttempt : Fate → Bool
  | accepted _ | rejected => true
  | _ => false

def report? : Fate → Option Json
  | accepted report => some report
  | _ => none

end Fate

def fateOf (config : LoopConfig) (ctx : RunContext) (tu : ToolUse) : Fate :=
  match preToolUse config.hooks tu.call ctx {} with
  | .error _ => .denied
  | .ok decision =>
    if decision.action = .deny then .denied
    else if tu.name = config.terminalTool then
      match config.terminalModel.validate (decision.chosenInput tu.call) with
      | .ok report => .accepted report
      | .error _ => .rejected
    else .dispatched

/-- One model call and its answer. -/
structure Exchange where
  response : Response
  handled : List (ToolUse × Fate)
  results : List ToolResult

namespace Exchange

/-- What the exchange adds to the conversation. -/
def messages (e : Exchange) : List Message :=
  .assistant e.response.content ::
    if e.response.stopReason = some "tool_use" then [.toolResults e.results] else []

def attempts (e : Exchange) : ℕ := e.handled.countP fun h => h.2.isAttempt

/-- The terminal tool's input was accepted. -/
def Accepts (e : Exchange) : Prop := ∃ h ∈ e.handled, h.2.report?.isSome

end Exchange

def attempts (log : List Exchange) : ℕ := (log.map Exchange.attempts).sum

def LoopState.reply (st : LoopState) : LoopState :=
  { st with messages := st.messages ++ [.toolResults st.results] }

def Response.stop (resp : Response) : String :=
  if resp.stopReason.getD "" = "" then "end_turn" else resp.stopReason.getD ""

section
variable {σ : Type*}

/-- One block handled by the loop. -/
def UseStep (config : LoopConfig) (dispatch : String → Json → σ → Py Json × σ)
    (s : LoopState × σ) (h : ToolUse × Fate) (s' : LoopState × σ) : Prop :=
  runToolUse config dispatch s.1 s.2 h.1 = (.ok s'.1, s'.2) ∧ h.2 = fateOf config s.1.ctx h.1

/-- The exchanges of a loop that may make the given number of iterations, the
state it ends in and its stop, for the given handling of blocks. -/
inductive Iterates (config : LoopConfig)
    (handle : LoopState × σ → ToolUse × Fate → LoopState × σ → Prop) :
    ℕ → LoopState × σ → List Exchange → LoopState × σ → String → Prop where
  | exhausted (s) : Iterates config handle 0 s [] s "max_iters"
  | ended {left st world resp} : config.create config.toolsSchema st.messages = .ok resp →
      resp.stopReason ≠ some "tool_use" →
      Iterates config handle (left + 1) (st, world) [⟨resp, [], []⟩] (st.receive resp, world)
        resp.stop
  | stopped {left st world resp handled st' world'} :
      config.create config.toolsSchema st.messages = .ok resp →
      resp.stopReason = some "tool_use" → handled.map Prod.fst = resp.uses →
      Run handle (st.receive resp, world) handled (st', world') →
      st'.done = true ∨ config.outputBudget < (st'.usage.get? "output").getD 0 →
      Iterates config handle (left + 1) (st, world) [⟨resp, handled, st'.results⟩]
        (st'.reply, world') (if st'.done then "reported" else "budget_exceeded")
  | next {left st world resp handled st' world' log final stop} :
      config.create config.toolsSchema st.messages = .ok resp →
      resp.stopReason = some "tool_use" → handled.map Prod.fst = resp.uses →
      Run handle (st.receive resp, world) handled (st', world') →
      st'.done = false → (st'.usage.get? "output").getD 0 ≤ config.outputBudget →
      Iterates config handle left (st'.reply, world') log final stop →
      Iterates config handle (left + 1) (st, world) (⟨resp, handled, st'.results⟩ :: log) final stop

variable (config : LoopConfig) (dispatch : String → Json → σ → Py Json × σ)

/-- On this block no hook raises or modifies the input, nor writes the count of
tool calls. -/
def QuietUse (s : LoopState × σ) (tu : ToolUse) : Prop :=
  ∃ decision, preToolUse config.hooks tu.call s.1.ctx {} = .ok decision ∧
    decision.action ≠ .modify ∧
    (decision.action ≠ .deny → tu.name ≠ config.terminalTool → ∀ out,
      caughtOutput (dispatch tu.name tu.call.input s.2).1 = .ok out →
        ∃ out' ctx', postToolUse config.hooks tu.call out s.1.ctx = .ok (out', ctx') ∧
          ctx'.toolCalls = s.1.ctx.toolCalls)

def QuietUses : List ToolUse → LoopState × σ → Prop
  | [], _ => True
  | tu :: rest, s => QuietUse config dispatch s tu ∧
      ∀ st world, runToolUse config dispatch s.1 s.2 tu = (.ok st, world) →
        QuietUses rest (st, world)

/-- No hook does any of these in a run with so many iterations left. -/
def Quiet : ℕ → LoopState × σ → Prop
  | 0, _ => True
  | left + 1, s => ∀ resp, config.create config.toolsSchema s.1.messages = .ok resp →
      resp.stopReason = some "tool_use" →
      QuietUses config dispatch resp.uses (s.1.receive resp, s.2) ∧
        ∀ st world, runToolUses config dispatch resp.uses (s.1.receive resp) s.2 = (.ok st, world) →
          st.done = false → (st.usage.get? "output").getD 0 ≤ config.outputBudget →
            Quiet left (st.reply, world)

variable {config dispatch}

/-- What one quietly handled block adds to the loop's variables. -/
structure Delta (config : LoopConfig) (s : LoopState × σ) (h : ToolUse × Fate)
    (s' : LoopState × σ) : Prop where
  messages : s'.1.messages = s.1.messages
  usage : s'.1.usage = s.1.usage
  calls : s'.1.calls.length = s.1.calls.length + 1
  ids : s'.1.results.map ToolResult.toolUseId = s.1.results.map ToolResult.toolUseId ++ [h.1.id]
  denials : s'.1.denials = s.1.denials + if h.2.isDenied then 1 else 0
  toolCalls : s'.1.ctx.toolCalls = s.1.ctx.toolCalls + if h.2.isDispatched then 1 else 0
  terminal : s'.1.terminal = h.2.report?.or s.1.terminal
  done : s'.1.done = (h.2.report?.isSome || s.1.done)
  ctx : s'.1.ctx = s.1.ctx ∨ ∃ call output out ctx',
    postToolUse config.hooks call output s.1.ctx = .ok (out, ctx') ∧
      s'.1.ctx = { ctx' with toolCalls := ctx'.toolCalls + 1 }

theorem chosenInput_quiet {decision : ToolDecision} {call : ToolCall}
    (quiet : decision.action ≠ .modify) : decision.chosenInput call = call.input := by
  unfold ToolDecision.chosenInput
  split
  · contradiction
  · rfl

theorem runToolUse_delta {s s' : LoopState × σ} {tu : ToolUse}
    (quiet : QuietUse config dispatch s tu)
    (ran : runToolUse config dispatch s.1 s.2 tu = (.ok s'.1, s'.2)) :
    Delta config s (tu, fateOf config s.1.ctx tu) s' := by
  obtain ⟨decision, decided, unmodified, posts⟩ := quiet
  obtain ⟨st, world⟩ := s
  obtain ⟨st', world'⟩ := s'
  have fates : fateOf config st.ctx tu = if decision.action = .deny then .denied
      else if tu.name = config.terminalTool then
        match config.terminalModel.validate tu.call.input with
        | .ok report => .accepted report
        | .error _ => .rejected
      else .dispatched := by
    simp only at decided
    simp only [fateOf, decided, chosenInput_quiet unmodified]
  simp only at decided posts ran ⊢
  rw [fates]
  simp only [runToolUse] at ran
  rw [show (⟨tu.name, if tu.input.isDict then tu.input else .dict []⟩ : ToolCall) = tu.call from rfl,
    decided] at ran
  simp only [chosenInput_quiet unmodified] at ran
  split at ran
  · rename_i denied
    cases ran
    simp only [if_pos denied]
    exact ⟨rfl, rfl, by simp, by simp, rfl, by simp [Fate.isDispatched], rfl, rfl,
      .inl rfl⟩
  · rename_i allowed
    rw [if_neg allowed]
    split at ran
    · rename_i terminal
      rw [if_pos terminal]
      cases validated : config.terminalModel.validate tu.call.input with
      | ok report =>
        rw [validated] at ran
        cases ran
        exact ⟨rfl, rfl, by simp, by simp, rfl, by simp [Fate.isDispatched], rfl, rfl,
      .inl rfl⟩
      | error errors =>
        rw [validated] at ran
        cases ran
        exact ⟨rfl, rfl, by simp, by simp, rfl, by simp [Fate.isDispatched], rfl, rfl,
      .inl rfl⟩
    · rename_i other
      rw [if_neg other]
      cases caught : caughtOutput (dispatch tu.name tu.call.input world).1 with
      | error e =>
        simp only [caught] at ran
        cases ran
      | ok out =>
        obtain ⟨out', ctx', posted, kept⟩ := posts allowed other out caught
        simp only [caught, posted] at ran
        cases ran
        exact ⟨rfl, rfl, by simp, by simp, rfl, by simp [Fate.isDispatched, kept], rfl, rfl,
          .inr ⟨_, _, _, _, posted, rfl⟩⟩

/-- A quietly handled block is answered, unless its dispatch raised past
`except Exception`. -/
theorem runToolUse_quiet {s : LoopState × σ} {tu : ToolUse} (quiet : QuietUse config dispatch s tu) :
    (∃ s', UseStep config dispatch s (tu, fateOf config s.1.ctx tu) s') ∨
      ∃ e, e.base = true ∧ (dispatch tu.name tu.call.input s.2).1 = .error e ∧
        (runToolUse config dispatch s.1 s.2 tu).1 = .error e := by
  obtain ⟨decision, decided, unmodified, posts⟩ := quiet
  obtain ⟨st, world⟩ := s
  simp only at decided posts
  unfold UseStep
  simp only [runToolUse]
  rw [show (⟨tu.name, if tu.input.isDict then tu.input else .dict []⟩ : ToolCall) = tu.call from rfl,
    decided]
  simp only [chosenInput_quiet unmodified]
  split
  · exact .inl ⟨(_, _), rfl, trivial⟩
  · rename_i allowed
    split
    · cases config.terminalModel.validate tu.call.input with
      | ok report => exact .inl ⟨(_, _), rfl, trivial⟩
      | error errors => exact .inl ⟨(_, _), rfl, trivial⟩
    · rename_i other
      cases caught : caughtOutput (dispatch tu.name tu.call.input world).1 with
      | error e =>
        right
        cases raised : (dispatch tu.name tu.call.input world).1 with
        | ok out =>
          rw [raised] at caught
          cases caught
        | error e' =>
          simp only [raised, caughtOutput] at caught
          split at caught
          · rename_i base
            cases caught
            exact ⟨e, base, rfl, rfl⟩
          · cases caught
      | ok out =>
        obtain ⟨out', ctx', posted, kept⟩ := posts allowed other out caught
        simp only [posted]
        exact .inl ⟨(_, _), rfl, trivial⟩

/-- What the blocks of a turn add up to. -/
structure TurnDelta (s : LoopState × σ) (handled : List (ToolUse × Fate)) (s' : LoopState × σ) :
    Prop where
  messages : s'.1.messages = s.1.messages
  usage : s'.1.usage = s.1.usage
  calls : s'.1.calls.length = s.1.calls.length + handled.length
  ids : s'.1.results.map ToolResult.toolUseId =
    s.1.results.map ToolResult.toolUseId ++ handled.map fun h => h.1.id
  denials : s'.1.denials = s.1.denials + handled.countP fun h => h.2.isDenied
  toolCalls : s'.1.ctx.toolCalls = s.1.ctx.toolCalls + (handled.countP fun h => h.2.isDispatched : ℕ)
  done : s'.1.done = (s.1.done || handled.any fun h => h.2.report?.isSome)
  terminal : s'.1.terminal.isSome = (s.1.terminal.isSome || handled.any fun h => h.2.report?.isSome)

theorem TurnDelta.refl (s : LoopState × σ) : TurnDelta s [] s :=
  ⟨rfl, rfl, rfl, by simp, rfl, by simp, by simp, by simp⟩

theorem Delta.cons {s t u : LoopState × σ} {h : ToolUse × Fate} {handled : List (ToolUse × Fate)}
    (first : Delta config s h t) (rest : TurnDelta t handled u) : TurnDelta s (h :: handled) u where
  messages := rest.messages.trans first.messages
  usage := rest.usage.trans first.usage
  calls := by
    rw [rest.calls, first.calls, List.length_cons]
    omega
  ids := by
    rw [rest.ids, first.ids]
    simp
  denials := by
    rw [rest.denials, first.denials, List.countP_cons]
    omega
  toolCalls := by
    rw [rest.toolCalls, first.toolCalls, List.countP_cons]
    split <;> push_cast <;> omega
  done := by
    rw [rest.done, first.done, List.any_cons]
    cases h.2.report?.isSome <;> simp
  terminal := by
    rw [rest.terminal, first.terminal, List.any_cons]
    cases h.2 <;> simp [Fate.report?]

/-- A block handled quietly. -/
abbrev QuietStep (config : LoopConfig) (dispatch : String → Json → σ → Py Json × σ) :
    LoopState × σ → ToolUse × Fate → LoopState × σ → Prop :=
  Guarded (fun s h => QuietUse config dispatch s h.1) (UseStep config dispatch)

theorem QuietStep.delta {s s' : LoopState × σ} {h : ToolUse × Fate}
    (step : QuietStep config dispatch s h s') : Delta config s h s' := by
  obtain ⟨quiet, ran, fate⟩ := step
  have delta := runToolUse_delta quiet ran
  rwa [← fate] at delta

theorem run_turnDelta {s s' : LoopState × σ} {handled : List (ToolUse × Fate)}
    (run : Run (QuietStep config dispatch) s handled s') : TurnDelta s handled s' := by
  induction run with
  | refl s => exact .refl s
  | next first _ ih => exact first.delta.cons ih

/-- A dispatch raised past `except Exception`, and so did the loop. -/
def Interrupted (dispatch : String → Json → σ → Py Json × σ) {α : Type} (result : Py α) : Prop :=
  ∃ e name input world, e.base = true ∧ (dispatch name input world).1 = .error e ∧
    result = .error e

/-- The turn's blocks are all handled, unless one is interrupted. -/
theorem runToolUses_quiet (uses : List ToolUse) : ∀ {s : LoopState × σ},
    QuietUses config dispatch uses s →
      (∃ handled s', handled.map Prod.fst = uses ∧ Run (QuietStep config dispatch) s handled s' ∧
        runToolUses config dispatch uses s.1 s.2 = (.ok s'.1, s'.2)) ∨
      Interrupted dispatch (runToolUses config dispatch uses s.1 s.2).1 := by
  induction uses with
  | nil => exact fun {s} _ => .inl ⟨[], s, rfl, .refl s, rfl⟩
  | cons tu rest ih =>
    intro s quiet
    obtain ⟨now, later⟩ := quiet
    rcases runToolUse_quiet now with ⟨s', step⟩ | ⟨e, base, raised, failed⟩
    · have ran := step.1
      simp only at ran
      simp only [runToolUses, ran]
      rcases ih (later _ _ ran) with ⟨handled, s'', uses, run, rest⟩ | interrupted
      · exact .inl ⟨(tu, fateOf config s.1.ctx tu) :: handled, s'', by simp [uses],
          .next ⟨now, step⟩ run, rest⟩
      · exact .inr interrupted
    · right
      refine ⟨e, _, _, _, base, raised, ?_⟩
      rcases ran : runToolUse config dispatch s.1 s.2 tu with ⟨e' | st, world'⟩
      · rw [ran] at failed
        cases failed
        simp only [runToolUses, ran]
      · rw [ran] at failed
        cases failed

/-- A loop whose model answers returns after some exchanges, unless it is
interrupted. -/
theorem runIterations_quiet
    (answers : ∀ schemas messages, ∃ resp, config.create schemas messages = .ok resp) (left : ℕ) :
    ∀ (made : ℕ) {s : LoopState × σ}, Quiet config dispatch left s →
      (∃ log final stop, Iterates config (QuietStep config dispatch) left s log final stop ∧
        runIterations config dispatch left made s.1 s.2 =
          (.ok (final.1.result (made + log.length) stop), final.2)) ∨
      Interrupted dispatch (runIterations config dispatch left made s.1 s.2).1 := by
  induction left with
  | zero => exact fun _ s _ => .inl ⟨[], s, "max_iters", .exhausted s, rfl⟩
  | succ left ih =>
    intro made s quiet
    obtain ⟨st, world⟩ := s
    obtain ⟨resp, answered⟩ := answers config.toolsSchema st.messages
    simp only [runIterations, answered]
    by_cases tool : resp.stopReason = some "tool_use"
    · obtain ⟨quietTurn, later⟩ := quiet resp answered tool
      rw [if_neg (not_not.mpr tool), show resp.content.filterMap Block.toolUse? = resp.uses from rfl]
      rcases runToolUses_quiet resp.uses quietTurn with ⟨handled, ⟨st', world'⟩, uses, run, ran⟩ |
        ⟨e, name, input, at_, base, raised, failed⟩
      · simp only at ran later
        simp only [ran]
        by_cases done : st'.done = true
        · left
          refine ⟨_, _, _, .stopped answered tool uses run (.inl done), ?_⟩
          simp only [done, if_true]
          rfl
        · have open_ : st'.done = false := by simpa using done
          rw [if_neg done]
          by_cases exceeded : (st'.usage.get? "output").getD 0 > config.outputBudget
          · left
            refine ⟨_, _, _, .stopped answered tool uses run (.inr exceeded), ?_⟩
            simp only [if_pos exceeded, if_neg done]
            rfl
          · rw [if_neg exceeded]
            rcases ih (made + 1) (later _ _ ran open_ (not_lt.mp exceeded)) with
              ⟨log, final, stop, iterates, ended⟩ | interrupted
            · refine .inl ⟨_, final, stop,
                .next answered tool uses run open_ (not_lt.mp exceeded) iterates, ?_⟩
              rw [List.length_cons, show made + (log.length + 1) = made + 1 + log.length by omega]
              exact ended
            · exact .inr interrupted
      · right
        refine ⟨e, name, input, at_, base, raised, ?_⟩
        simp only at failed
        rcases ran : runToolUses config dispatch resp.uses (st.receive resp) world with
          ⟨e' | st', world'⟩
        · rw [ran] at failed
          cases failed
          rfl
        · rw [ran] at failed
          cases failed
    · left
      refine ⟨_, _, _, .ended answered tool, ?_⟩
      rw [if_pos tool]
      rfl

theorem Iterates.mono {handle handle' : LoopState × σ → ToolUse × Fate → LoopState × σ → Prop}
    (weaker : ∀ s h s', handle s h s' → handle' s h s') {left : ℕ} {s final : LoopState × σ}
    {log : List Exchange} {stop : String} (iterates : Iterates config handle left s log final stop) :
    Iterates config handle' left s log final stop := by
  have lift : ∀ {s s' : LoopState × σ} {handled}, Run handle s handled s' →
      Run handle' s handled s' := by
    intro s s' handled run
    induction run with
    | refl s => exact .refl s
    | next first _ ih => exact .next (weaker _ _ _ first) ih
  induction iterates with
  | exhausted s => exact .exhausted s
  | ended answered other => exact .ended answered other
  | stopped answered tool uses run ends => exact .stopped answered tool uses (lift run) ends
  | next answered tool uses run going within _ ih =>
    exact .next answered tool uses (lift run) going within ih

/-- What an API and a reader of the result may rely on. -/
structure Conforms (config : LoopConfig) (s : LoopState × σ) (log : List Exchange)
    (final : LoopState × σ) (stop : String) : Prop where
  messages : final.1.messages = s.1.messages ++ log.flatMap Exchange.messages
  asked : ∀ before e after, log = before ++ e :: after →
    config.create config.toolsSchema (s.1.messages ++ before.flatMap Exchange.messages) =
      .ok e.response
  answered : ∀ e ∈ log, e.response.stopReason = some "tool_use" →
    e.results.map ToolResult.toolUseId = e.response.uses.map ToolUse.id
  calls : (final.1.calls.length : ℤ) - s.1.calls.length = final.1.denials - s.1.denials +
    attempts log + (final.1.ctx.toolCalls - s.1.ctx.toolCalls)
  reported : stop = "reported" ↔ final.1.terminal ≠ none
  terminal : final.1.terminal ≠ none ↔ ∃ e ∈ log, e.Accepts
  last : ∀ before e after, log = before ++ e :: after → e.Accepts → after = []

theorem fates_partition (handled : List (ToolUse × Fate)) :
    handled.length = (handled.countP fun h => h.2.isDenied) +
      (handled.countP fun h => h.2.isAttempt) + handled.countP fun h => h.2.isDispatched := by
  induction handled with
  | nil => rfl
  | cons h rest ih =>
    simp only [List.length_cons, List.countP_cons, ih]
    cases h.2 <;> simp [Fate.isDenied, Fate.isAttempt, Fate.isDispatched] <;> omega

theorem Exchange.accepts_iff {resp : Response} {handled : List (ToolUse × Fate)}
    {results : List ToolResult} : (⟨resp, handled, results⟩ : Exchange).Accepts ↔
      (handled.any fun h => h.2.report?.isSome) = true := by
  simp [Exchange.Accepts, List.any_eq_true]

theorem Response.stop_ne_reported {resp : Response} (other : resp.stopReason ≠ some "reported") :
    resp.stop ≠ "reported" := by
  unfold Response.stop
  split
  · decide
  · cases found : resp.stopReason with
    | none => decide
    | some stop =>
      rw [Option.getD_some]
      rintro rfl
      exact other found

/-- A loop that makes no exchange conforms, unless it calls itself reported. -/
theorem Conforms.nil {s : LoopState × σ} {stop : String} (fresh : s.1.terminal = none)
    (other : stop ≠ "reported") : Conforms config s [] s stop where
  messages := by simp
  asked := by simp
  answered := by simp
  calls := by simp [attempts]
  reported := by simp [fresh, other]
  terminal := by simp [fresh]
  last := by simp

theorem singleton_split {e e' : Exchange} {before after : List Exchange}
    (split : [e] = before ++ e' :: after) : before = [] ∧ e' = e ∧ after = [] := by
  cases before with
  | nil => simpa [eq_comm] using split
  | cons => simp at split

section Turn
variable {st st' : LoopState} {world world' : σ} {resp : Response}
  {handled : List (ToolUse × Fate)}

theorem turn_messages (turn : TurnDelta (st.receive resp, world) handled (st', world'))
    (tool : resp.stopReason = some "tool_use") : st'.reply.messages =
      st.messages ++ (⟨resp, handled, st'.results⟩ : Exchange).messages := by
  have kept : st'.messages = st.messages ++ [.assistant resp.content] := turn.messages
  simp only [LoopState.reply, kept, Exchange.messages, tool, if_true]
  simp

theorem turn_ids (turn : TurnDelta (st.receive resp, world) handled (st', world'))
    (uses : handled.map Prod.fst = resp.uses) :
    st'.results.map ToolResult.toolUseId = resp.uses.map ToolUse.id := by
  have results := turn.ids
  simp only [LoopState.receive, List.map_nil, List.nil_append] at results
  rw [results, ← uses, List.map_map]
  rfl

theorem turn_calls (turn : TurnDelta (st.receive resp, world) handled (st', world')) :
    (st'.reply.calls.length : ℤ) - st.calls.length = st'.reply.denials - st.denials +
      (⟨resp, handled, st'.results⟩ : Exchange).attempts +
        (st'.reply.ctx.toolCalls - st.ctx.toolCalls) := by
  have calls : st'.calls.length = st.calls.length + handled.length := turn.calls
  have denials : st'.denials = st.denials + handled.countP fun h => h.2.isDenied := turn.denials
  have toolCalls : st'.ctx.toolCalls = st.ctx.toolCalls +
    (handled.countP fun h => h.2.isDispatched : ℕ) := turn.toolCalls
  have parts := fates_partition handled
  simp only [LoopState.reply, Exchange.attempts]
  omega

/-- In a turn before which nothing was accepted, the report is set exactly when
the turn accepts one, and then the turn is the last. -/
theorem turn_terminal (turn : TurnDelta (st.receive resp, world) handled (st', world'))
    (fresh : st.terminal = none) :
    (st'.reply.terminal ≠ none ↔ (⟨resp, handled, st'.results⟩ : Exchange).Accepts) ∧
      (st'.done = true ↔ (⟨resp, handled, st'.results⟩ : Exchange).Accepts) := by
  have terminal : st'.terminal.isSome = (st.terminal.isSome || _) := turn.terminal
  have done : st'.done = (false || _) := turn.done
  rw [fresh, Option.isSome_none, Bool.false_or] at terminal
  rw [Exchange.accepts_iff, ← terminal, done, Bool.false_or, ← terminal]
  exact ⟨Option.isSome_iff_ne_none.symm, Iff.rfl⟩

/-- A turn that ends the loop. -/
theorem Conforms.single {stop : String}
    (answered : config.create config.toolsSchema st.messages = .ok resp)
    (tool : resp.stopReason = some "tool_use") (uses : handled.map Prod.fst = resp.uses)
    (turn : TurnDelta (st.receive resp, world) handled (st', world'))
    (fresh : st.terminal = none) (reported : stop = "reported" ↔ st'.done = true) :
    Conforms config (st, world) [⟨resp, handled, st'.results⟩] (st'.reply, world') stop where
  messages := by simpa using turn_messages turn tool
  asked := by
    intro before e after split
    obtain ⟨rfl, rfl, rfl⟩ := singleton_split split
    simpa using answered
  answered := by simpa using fun _ => turn_ids turn uses
  calls := by simpa [attempts] using turn_calls turn
  reported := by
    obtain ⟨terminal, done⟩ := turn_terminal turn fresh
    rw [reported, done, terminal]
  terminal := by simpa using (turn_terminal turn fresh).1
  last _ _ _ split _ := (singleton_split split).2.2

/-- A turn that accepts nothing, before a conforming rest. -/
theorem Conforms.cons {log : List Exchange} {final : LoopState × σ} {stop : String}
    (answered : config.create config.toolsSchema st.messages = .ok resp)
    (tool : resp.stopReason = some "tool_use") (uses : handled.map Prod.fst = resp.uses)
    (turn : TurnDelta (st.receive resp, world) handled (st', world'))
    (open_ : ¬ (⟨resp, handled, st'.results⟩ : Exchange).Accepts)
    (rest : Conforms config (st'.reply, world') log final stop) :
    Conforms config (st, world) (⟨resp, handled, st'.results⟩ :: log) final stop where
  messages := by
    rw [rest.messages]
    simp only [turn_messages turn tool, List.flatMap_cons, List.append_assoc]
  asked := by
    intro before e after split
    obtain ⟨rfl, same⟩ | ⟨before, rfl, later⟩ := List.cons_eq_append_iff.mp split
    · cases same
      simpa using answered
    · have asked := rest.asked before e after later
      simp only [turn_messages turn tool] at asked
      simpa using asked
  answered := by
    intro e member
    rcases List.mem_cons.mp member with rfl | later
    · exact fun _ => turn_ids turn uses
    · exact rest.answered e later
  calls := by
    have later := rest.calls
    have now := turn_calls turn
    simp only [attempts, List.map_cons, List.sum_cons] at later now ⊢
    omega
  reported := rest.reported
  terminal := by simpa [open_] using rest.terminal
  last := by
    intro before e after split accepted
    obtain ⟨rfl, same⟩ | ⟨before, rfl, later⟩ := List.cons_eq_append_iff.mp split
    · cases same
      exact absurd accepted open_
    · exact rest.last before e after later accepted

end Turn

/-- Every quiet loop conforms. -/
theorem Iterates.conforms
    (vocabulary : ∀ schemas messages resp, config.create schemas messages = .ok resp →
      resp.stopReason ≠ some "reported") {left : ℕ} {s final : LoopState × σ}
    {log : List Exchange} {stop : String}
    (iterates : Iterates config (QuietStep config dispatch) left s log final stop)
    (fresh : s.1.terminal = none) : Conforms config s log final stop := by
  induction iterates with
  | exhausted s => exact .nil fresh (by decide)
  | @ended left st world resp answered other =>
    have stop := Response.stop_ne_reported (vocabulary _ _ _ answered)
    have idle : Conforms config (st, world) [] (st, world) resp.stop := .nil fresh stop
    refine ⟨by simp [Exchange.messages, other, LoopState.receive], ?_, by simp [other], ?_,
      idle.reported, ?_, fun _ _ _ split _ => (singleton_split split).2.2⟩
    · intro before e after split
      obtain ⟨rfl, rfl, rfl⟩ := singleton_split split
      simpa using answered
    · simp [attempts, Exchange.attempts, LoopState.receive]
    · simpa [LoopState.receive, Exchange.Accepts] using fresh
  | stopped answered tool uses run ends =>
    refine .single answered tool uses (run_turnDelta run) fresh ?_
    split
    · simp_all
    · simp_all
  | next answered tool uses run going within rest ih =>
    have turn := run_turnDelta run
    obtain ⟨terminal, done⟩ := turn_terminal turn fresh
    rw [going] at done
    have open_ : ¬ Exchange.Accepts _ := fun accepts => absurd (done.mpr accepts) (by decide)
    refine .cons answered tool uses turn open_ (ih ?_)
    by_contra set
    exact open_ (terminal.mp set)

/-- Invariant rule of the exchanges. -/
theorem Iterates.invariant (P : LoopState → Prop)
    {handle : LoopState × σ → ToolUse × Fate → LoopState × σ → Prop}
    (receives : ∀ st resp, P st → P (st.receive resp)) (replies : ∀ st, P st → P st.reply)
    (handles : ∀ s h s', P s.1 → handle s h s' → P s'.1) {left : ℕ} {s final : LoopState × σ}
    {log : List Exchange} {stop : String} (iterates : Iterates config handle left s log final stop)
    (initial : P s.1) : P final.1 := by
  induction iterates with
  | exhausted => exact initial
  | ended => exact receives _ _ initial
  | stopped _ _ _ run _ => exact replies _ (run.invariant (fun s => P s.1) handles (receives _ _ initial))
  | next _ _ _ run _ _ _ ih =>
    exact ih (replies _ (run.invariant (fun s => P s.1) handles (receives _ _ initial)))

theorem preToolUse_allowed {hooks : List Hook} {call : ToolCall} {ctx : RunContext}
    {decision : ToolDecision} : ∀ {start}, preToolUse hooks call ctx start = .ok decision →
      decision.action ≠ .deny → ∀ hook ∈ hooks, ∃ result, hook.preToolUse call ctx = .ok result ∧
        ∀ d, result = some d → d.action ≠ .deny := by
  induction hooks with
  | nil => simp
  | cons hook rest ih =>
    intro start decided allowed h member
    simp only [preToolUse] at decided
    cases answer : hook.preToolUse call ctx with
    | error e => simp [answer] at decided
    | ok result =>
      cases result with
      | none =>
        simp only [answer] at decided
        rcases List.mem_cons.mp member with rfl | later
        · exact ⟨none, answer, by simp⟩
        · exact ih decided allowed h later
      | some d =>
        simp only [answer] at decided
        have passes : d.action ≠ .deny := by
          intro denied
          simp only [denied, Except.ok.injEq] at decided
          exact allowed (decided ▸ denied)
        rcases List.mem_cons.mp member with rfl | later
        · exact ⟨some d, answer, by simpa using passes⟩
        · split at decided
          · exact absurd ‹_› passes
          · exact ih decided allowed h later
          · exact ih decided allowed h later

end

section Report
variable [FloatRepr] [LaxInt] {σ : Type*}

/-- The loop that `run_code_agent` and the manager run: it ends with a final
report that both report gates let through. -/
structure ReportsRootCause (config : LoopConfig) : Prop where
  tool : config.terminalTool = "report_root_cause"
  model : ∀ v, config.terminalModel.validate v =
    (RootCauseReport.validate v).map RootCauseReport.modelDump
  gate : reportGate ∈ config.hooks
  completeness : decoyCompletenessGate ∈ config.hooks
  -- the run is over one store
  store : ∀ call output ctx out ctx', postToolUse config.hooks call output ctx = .ok (out, ctx') →
    ctx'.store = ctx.store

/-- A report without issues that accounts for every known change. -/
structure Accounted (store : Option Store) (report : RootCauseReport) : Prop where
  issues : reportIssues report.modelDump store = .ok []
  changes : ∀ known, knownChanges store = .ok known → ∀ id ∈ known,
    report.culpritChangeId = some id ∨ id ∈ report.ruledOutChangeIds

variable {config : LoopConfig} {dispatch : String → Json → σ → Py Json × σ}

theorem accepted_accounted (reports : ReportsRootCause config) {ctx : RunContext} {tu : ToolUse}
    {terminal : Json} (quiet : ∃ decision, preToolUse config.hooks tu.call ctx {} = .ok decision ∧
      decision.action ≠ .modify) (accepted : fateOf config ctx tu = .accepted terminal) :
    ∃ report : RootCauseReport, terminal = report.modelDump ∧ Accounted ctx.store report := by
  obtain ⟨decision, decided, unmodified⟩ := quiet
  simp only [fateOf, decided, chosenInput_quiet unmodified] at accepted
  split at accepted
  · cases accepted
  · rename_i allowed
    split at accepted
    · rename_i named
      have name : tu.call.name = "report_root_cause" := named.trans reports.tool
      have passed := preToolUse_allowed decided allowed
      rw [reports.model] at accepted
      cases valid : RootCauseReport.validate tu.call.input with
      | error errors =>
        rw [valid] at accepted
        cases accepted
      | ok report =>
        rw [valid] at accepted
        cases accepted
        have reads := validate_reads valid
        refine ⟨report, rfl, ?_, ?_⟩
        · rw [(modelDump_reads report).reportIssues_eq reads]
          exact reportGate_none name (passed _ reports.gate)
        · exact fun known changes =>
            decoyCompletenessGate_none name (passed _ reports.completeness) reads changes
    · cases accepted

/-- A quietly handled block leaves the store. -/
theorem QuietUse.store (reports : ReportsRootCause config) {s : LoopState × σ} {tu : ToolUse}
    (quiet : QuietUse config dispatch s tu) {st : LoopState} {world : σ}
    (ran : runToolUse config dispatch s.1 s.2 tu = (.ok st, world)) :
    st.ctx.store = s.1.ctx.store := by
  have delta : Delta config s (tu, _) (st, world) := runToolUse_delta quiet ran
  rcases delta.ctx with same | ⟨call, output, out, ctx', posted, same⟩
  · rw [same]
  · rw [same]
    exact reports.store call output s.1.ctx out ctx' posted

/-- The store of a quiet step stays, and a report it sets is accounted for. -/
theorem QuietStep.accounted (reports : ReportsRootCause config) {store : Option Store}
    {s s' : LoopState × σ} {h : ToolUse × Fate} (step : QuietStep config dispatch s h s')
    (before : s.1.ctx.store = store ∧ ∀ terminal, s.1.terminal = some terminal →
      ∃ report : RootCauseReport, terminal = report.modelDump ∧ Accounted store report) :
    s'.1.ctx.store = store ∧ ∀ terminal, s'.1.terminal = some terminal →
      ∃ report : RootCauseReport, terminal = report.modelDump ∧ Accounted store report := by
  obtain ⟨rfl, earlier⟩ := before
  have delta := step.delta
  have kept := step.1.store reports step.2.1
  obtain ⟨⟨decision, decided, unmodified, posts⟩, ran, fate⟩ := step
  constructor
  · exact kept
  · intro terminal set
    rw [delta.terminal] at set
    cases accepted : h.2 with
    | accepted report =>
      rw [accepted] at set
      cases set
      exact accepted_accounted reports ⟨decision, decided, unmodified⟩ (fate.symm.trans accepted)
    | _ =>
      rw [accepted] at set
      exact earlier terminal set

section
variable {store : Option Store}

theorem quietUses_of_each (reports : ReportsRootCause config) {uses : List ToolUse}
    (each : ∀ tu ∈ uses, ∀ s : LoopState × σ, s.1.ctx.store = store → QuietUse config dispatch s tu) :
    ∀ s : LoopState × σ, s.1.ctx.store = store → QuietUses config dispatch uses s ∧
      ∀ st world, runToolUses config dispatch uses s.1 s.2 = (.ok st, world) →
        st.ctx.store = store := by
  induction uses with
  | nil =>
    intro s kept
    refine ⟨trivial, fun st world ran => ?_⟩
    cases ran
    exact kept
  | cons tu rest ih =>
    rw [List.forall_mem_cons] at each
    intro s kept
    have now := each.1 s kept
    have later : ∀ st world, runToolUse config dispatch s.1 s.2 tu = (.ok st, world) →
        st.ctx.store = store := fun st world ran => (now.store reports ran).trans kept
    refine ⟨⟨now, fun st world ran => (ih each.2 (st, world) (later st world ran)).1⟩, ?_⟩
    intro st world ran
    rw [runToolUses] at ran
    split at ran
    · cases ran
    · rename_i st' world' first
      exact (ih each.2 (st', world') (later st' world' first)).2 st world ran

/-- A loop is quiet whose blocks are, whatever the conversation, over the store of the run. -/
theorem quiet_of_uses (reports : ReportsRootCause config)
    (each : ∀ schemas messages resp, config.create schemas messages = .ok resp →
      ∀ tu ∈ resp.uses, ∀ s : LoopState × σ, s.1.ctx.store = store → QuietUse config dispatch s tu)
    (left : ℕ) : ∀ s : LoopState × σ, s.1.ctx.store = store → Quiet config dispatch left s := by
  induction left with
  | zero => exact fun _ _ => trivial
  | succ left ih =>
    intro s kept resp answered _
    obtain ⟨quiet, after⟩ := quietUses_of_each reports (each _ _ resp answered)
      (s.1.receive resp, s.2) kept
    exact ⟨quiet, fun st world ran _ _ => ih (st.reply, world) (after st world ran)⟩

end

/-- Where the model always answers and the hooks keep quiet, the loop returns
after a conforming conversation, unless a dispatch raised past `except
Exception`; a report it returns has no issues and names every known change. -/
theorem runLoop_conforms (config : LoopConfig) (dispatch : String → Json → σ → Py Json × σ)
    (ctx : RunContext) (world : σ)
    (transcript : ∀ schemas messages, ∃ resp, config.create schemas messages = .ok resp ∧
      resp.stopReason ≠ some "reported")
    (quiet : Quiet config dispatch config.maxIters
      ({ messages := [.user config.initialUser], ctx }, world)) :
    (∃ log final stop,
      Iterates config (UseStep config dispatch) config.maxIters
        ({ messages := [.user config.initialUser], ctx }, world) log final stop ∧
      runLoop config dispatch ctx world = (.ok (final.1.result log.length stop), final.2) ∧
      Conforms config ({ messages := [.user config.initialUser], ctx }, world) log final stop ∧
      (ReportsRootCause config → ∀ terminal, final.1.terminal = some terminal →
        ∃ report : RootCauseReport, terminal = report.modelDump ∧ Accounted ctx.store report)) ∨
    Interrupted dispatch (runLoop config dispatch ctx world).1 := by
  have answers : ∀ schemas messages, ∃ resp, config.create schemas messages = .ok resp := by
    intro schemas messages
    obtain ⟨resp, answered, _⟩ := transcript schemas messages
    exact ⟨resp, answered⟩
  have vocabulary : ∀ schemas messages resp, config.create schemas messages = .ok resp →
      resp.stopReason ≠ some "reported" := by
    intro schemas messages resp answered
    obtain ⟨resp', answered', other⟩ := transcript schemas messages
    rw [answered] at answered'
    cases answered'
    exact other
  rcases runIterations_quiet answers config.maxIters 0 quiet with
    ⟨log, final, stop, iterates, ended⟩ | interrupted
  · left
    refine ⟨log, final, stop, iterates.mono fun _ _ _ step => step.2, ?_,
      iterates.conforms vocabulary rfl, ?_⟩
    · rw [Nat.zero_add] at ended
      exact ended
    · intro reports
      have initial : ctx.store = ctx.store ∧ ∀ terminal, (none : Option Json) = some terminal →
          ∃ report : RootCauseReport, terminal = report.modelDump ∧ Accounted ctx.store report :=
        ⟨rfl, by simp⟩
      exact (iterates.invariant (fun st => st.ctx.store = ctx.store ∧ ∀ terminal,
        st.terminal = some terminal → ∃ report : RootCauseReport,
          terminal = report.modelDump ∧ Accounted ctx.store report)
        (fun _ _ before => before) (fun _ before => before)
        (fun _ _ _ before step => step.accounted reports before) initial).2
  · exact .inr interrupted

end Report

/-- The outer hooks of `run_code_agent`. -/
def codeAgentHooks [FloatRepr] [JsonLoads] : List Hook :=
  [sealGuard, reportGate, decoyCompletenessGate, observer]

theorem codeAgent_reports [FloatRepr] [JsonLoads] [LaxInt] {config : LoopConfig}
    (hooks : config.hooks = codeAgentHooks) (tool : config.terminalTool = "report_root_cause")
    (model : ∀ v, config.terminalModel.validate v =
      (RootCauseReport.validate v).map RootCauseReport.modelDump) : ReportsRootCause config where
  tool := tool
  model := model
  gate := by simp [hooks, codeAgentHooks]
  completeness := by simp [hooks, codeAgentHooks]
  store := by
    intro call output ctx out ctx' posted
    simp only [hooks, codeAgentHooks, postToolUse, sealGuard, reportGate, decoyCompletenessGate,
      observer] at posted
    split at posted
    · cases posted
    · rename_i sealed
      split at sealed
      · cases sealed
        cases posted
        rfl
      · split at sealed <;> cases sealed
        cases posted
        rfl

section Samples
attribute [local instance] fractionRepr

@[reducible] def plainInt : LaxInt where
  parse
    | .int n => .ok n
    | _ => .error "Input should be a valid integer"

/-- No output is redacted in the sample, so nothing is parsed back. -/
@[reducible] def unreadable : JsonLoads := ⟨fun _ => .error ⟨"JSONDecodeError", "", false⟩⟩

attribute [local instance] plainInt unreadable

def ordersReport : Json := .dict [("root_cause",
  .dict [("kind", .str "service"), ("type", .str "cpu"), ("service", .str "orders")])]

/-- A code agent that reports the orders service at once. -/
def ordersConfig : LoopConfig where
  create := insist "report_root_cause" ordersReport
  toolsSchema := []
  initialUser := "checkout is failing"
  terminalTool := "report_root_cause"
  terminalModel :=
    { validate := fun v => (RootCauseReport.validate v).map RootCauseReport.modelDump
      errorText := fun _ => "", jsonSchema := .dict [], fields := [] }
  hooks := codeAgentHooks
  maxIters := 1
  outputBudget := 1000

def ordersDispatch : String → Json → Unit → Py Json × Unit := fun _ _ _ => (.ok (.dict []), ())

/-- The changes of a window. -/
def changesStore : Store := ⟨.ok ["chg_1", "chg_2"]⟩
def changesContext : RunContext := { store := some changesStore }

def accountedReport : Json := .dict [("root_cause",
    .dict [("kind", .str "service"), ("type", .str "cpu"), ("service", .str "orders")]),
  ("culprit_change_id", .str "chg_1"), ("ruled_out_change_ids", .list [.str "chg_2"])]

/-- A tool call, and one that the seal guard denies. -/
def firstTurn : Response where
  content := [.text "The changes first.", .toolUse ⟨"u1", "changes_list", .dict []⟩,
    .toolUse ⟨"u2", "logs_search", .dict [("query", .str "truth.json")]⟩]
  stopReason := some "tool_use"

/-- A report that leaves the changes out, which is denied, and one that names them. -/
def secondTurn : Response where
  content := [.toolUse ⟨"u3", "report_root_cause", ordersReport⟩,
    .toolUse ⟨"u4", "report_root_cause", accountedReport⟩]
  stopReason := some "tool_use"

def changesConfig : LoopConfig :=
  { ordersConfig with
    create := fun _ messages => .ok (if messages.length = 1 then firstTurn else secondTurn)
    maxIters := 3 }

def changesAnswer : Json := .dict [("changes", .list [.str "chg_1", .str "chg_2"])]

def changesDispatch : String → Json → Unit → Py Json × Unit := fun _ _ _ => (.ok changesAnswer, ())

theorem changesConfig_reports : ReportsRootCause changesConfig :=
  codeAgent_reports rfl rfl fun _ => rfl

/-- The hooks decide on the block without raising, over the store. -/
def decides (tu : ToolUse) : Bool :=
  match preToolUse codeAgentHooks tu.call changesContext {} with
  | .ok decision => decision.action ≠ .modify
  | .error _ => false

theorem changesAnswer_posted (call : ToolCall) (ctx : RunContext) : ∃ ctx',
    postToolUse codeAgentHooks call changesAnswer ctx = .ok (changesAnswer, ctx') ∧
      ctx'.toolCalls = ctx.toolCalls := by
  have clean : bannedTokens.foldl (fun text token =>
      replaceAll token.toList "[redacted]".toList text) (dumps changesAnswer) = dumps changesAnswer := by
    decide +kernel
  simp only [codeAgentHooks, postToolUse, sealGuard, clean, if_true]
  exact ⟨_, rfl, rfl⟩

theorem quiet_of_decides {tu : ToolUse} (decided : decides tu = true) (s : LoopState × Unit)
    (stored : s.1.ctx.store = some changesStore) : QuietUse changesConfig changesDispatch s tu := by
  -- of the context the hooks read the store only
  have same : preToolUse codeAgentHooks tu.call s.1.ctx {} =
      preToolUse codeAgentHooks tu.call changesContext {} := by
    rw [changesContext, ← stored]
    rfl
  unfold decides at decided
  rw [← same] at decided
  split at decided
  · rename_i decision chosen
    refine ⟨decision, chosen, by simpa using decided, fun _ _ out caught => ?_⟩
    cases caught
    obtain ⟨ctx', posted, counted⟩ := changesAnswer_posted tu.call s.1.ctx
    exact ⟨changesAnswer, ctx', posted, counted⟩
  · cases decided

/-- Two turns: a call and a denied one, then a denied report and one that is accepted. -/
theorem runLoop_conforms_orders : ∃ log final stop,
    runLoop changesConfig changesDispatch changesContext () =
        (.ok (final.1.result log.length stop), final.2) ∧
      Conforms changesConfig
        ({ messages := [.user "checkout is failing"], ctx := changesContext }, ()) log final stop ∧
      (∀ terminal, final.1.terminal = some terminal →
        ∃ report : RootCauseReport, terminal = report.modelDump ∧
          Accounted (some changesStore) report) ∧
      (stop, log.length, final.1.calls.length, final.1.denials) = ("reported", 2, 4, 2) := by
  have uses : ∀ tu ∈ firstTurn.uses ++ secondTurn.uses, decides tu = true := by decide +kernel
  have quiet : Quiet changesConfig changesDispatch changesConfig.maxIters
      ({ messages := [.user "checkout is failing"], ctx := changesContext }, ()) := by
    refine quiet_of_uses changesConfig_reports ?_ _ _ rfl
    intro _ messages resp answered tu member s stored
    cases answered
    refine quiet_of_decides (uses tu (List.mem_append.mpr ?_)) s stored
    split at member
    · exact .inl member
    · exact .inr member
  rcases runLoop_conforms changesConfig changesDispatch changesContext ()
      (fun _ _ => ⟨_, rfl, by split <;> decide⟩) quiet with
    ⟨log, final, stop, -, ran, conforms, reports⟩ | ⟨e, _, _, _, _, raised, _⟩
  · have shown : (runLoop changesConfig changesDispatch changesContext ()).1.toOption.map
        (fun r => (r.stop, r.iterations, r.calls.length, r.denials)) = some ("reported", 2, 4, 2) := by
      decide +kernel
    rw [ran] at shown
    exact ⟨log, final, stop, ran, conforms, reports changesConfig_reports, Option.some.inj shown⟩
  · cases raised

end Samples

end Sentinel.Agent
