import Sentinel.Agent.Loop

/-! The invariant rule of the loop. Whatever the model answers, the world changes
only by dispatches of calls that the hooks let through and that do not name the
terminal tool. -/
namespace Sentinel.Agent
open Python

/-- The hooks let the call through, to be dispatched with `input`. -/
def Passes (hooks : List Hook) (ctx : RunContext) (call : ToolCall) (input : Json) : Prop :=
  ∃ decision, preToolUse hooks call ctx {} = .ok decision ∧ decision.action ≠ .deny ∧
    input = decision.chosenInput call

section
variable {σ : Type*}

/-- What a dispatch of the loop preserves, as long as the contexts stay within
`context`. -/
structure LoopInvariant (config : LoopConfig) (dispatch : String → Json → σ → Py Json × σ)
    (context : RunContext → Prop) (P : σ → Prop) : Prop where
  keeps : ∀ call output ctx out ctx', context ctx →
    postToolUse config.hooks call output ctx = .ok (out, ctx') →
      context { ctx' with toolCalls := ctx'.toolCalls + 1 }
  preserves : ∀ name fields input ctx world, context ctx → name ≠ config.terminalTool →
    Passes config.hooks ctx ⟨name, .dict fields⟩ input → P world → P (dispatch name input world).2

/-- `J` relates context and world between two calls, and `P` is what then holds of the
world, also if the loop ends right after a dispatch. -/
structure LoopRule (config : LoopConfig) (dispatch : String → Json → σ → Py Json × σ)
    (J : RunContext → σ → Prop) (P : σ → Prop) : Prop where
  holds : ∀ ctx world, J ctx world → P world
  dispatched : ∀ name fields input ctx world, J ctx world → name ≠ config.terminalTool →
    Passes config.hooks ctx ⟨name, .dict fields⟩ input → P (dispatch name input world).2 ∧
      ∀ output out ctx', postToolUse config.hooks ⟨name, .dict fields⟩ output ctx = .ok (out, ctx') →
        J { ctx' with toolCalls := ctx'.toolCalls + 1 } (dispatch name input world).2

variable {config : LoopConfig} {dispatch : String → Json → σ → Py Json × σ}
  {context : RunContext → Prop} {J : RunContext → σ → Prop} {P : σ → Prop}

theorem callInput_dict (input : Json) :
    ∃ fields, (if input.isDict then input else .dict []) = Json.dict fields := by
  cases input with
  | dict fields => exact ⟨fields, rfl⟩
  | _ => exact ⟨[], rfl⟩

theorem runToolUse_rule (rule : LoopRule config dispatch J P) {st : LoopState} {world : σ}
    (tu : ToolUse) (joint : J st.ctx world) :
    P (runToolUse config dispatch st world tu).2 ∧
      ∀ st', (runToolUse config dispatch st world tu).1 = .ok st' →
        J st'.ctx (runToolUse config dispatch st world tu).2 := by
  obtain ⟨fields, input⟩ := callInput_dict tu.input
  have holds := rule.holds _ _ joint
  simp only [runToolUse, input]
  cases decided : preToolUse config.hooks ⟨tu.name, .dict fields⟩ st.ctx {} with
  | error e =>
    dsimp only
    refine ⟨holds, ?_⟩
    rintro _ ⟨⟩
  | ok decision =>
    dsimp only
    split
    · refine ⟨holds, ?_⟩
      rintro _ ⟨⟩
      exact joint
    · rename_i passed
      split
      · cases config.terminalModel.validate (decision.chosenInput ⟨tu.name, .dict fields⟩) with
        | error errors =>
          refine ⟨holds, ?_⟩
          rintro _ ⟨⟩
          exact joint
        | ok parsed =>
          refine ⟨holds, ?_⟩
          rintro _ ⟨⟩
          exact joint
      · rename_i other
        obtain ⟨moved, counted⟩ := rule.dispatched tu.name fields _ st.ctx world joint other
          ⟨decision, decided, passed, rfl⟩
        cases caught : caughtOutput
            (dispatch tu.name (decision.chosenInput ⟨tu.name, .dict fields⟩) world).1 with
        | error e =>
          dsimp only
          refine ⟨moved, ?_⟩
          rintro _ ⟨⟩
        | ok out =>
          dsimp only
          cases posted : postToolUse config.hooks ⟨tu.name, .dict fields⟩ out st.ctx with
          | error e =>
            dsimp only
            refine ⟨moved, ?_⟩
            rintro _ ⟨⟩
          | ok after =>
            refine ⟨moved, ?_⟩
            rintro _ ⟨⟩
            exact counted out after.1 after.2 posted

theorem runToolUses_rule (rule : LoopRule config dispatch J P) (uses : List ToolUse) :
    ∀ {st : LoopState} {world : σ}, J st.ctx world →
      P (runToolUses config dispatch uses st world).2 ∧
        ∀ st', (runToolUses config dispatch uses st world).1 = .ok st' →
          J st'.ctx (runToolUses config dispatch uses st world).2 := by
  induction uses with
  | nil =>
    intro st world joint
    refine ⟨rule.holds _ _ joint, ?_⟩
    rintro _ ⟨⟩
    exact joint
  | cons tu rest ih =>
    intro st world joint
    obtain ⟨moved, kept⟩ := runToolUse_rule rule tu joint
    simp only [runToolUses]
    rcases ran : runToolUse config dispatch st world tu with ⟨e | st', world'⟩
    · rw [ran] at moved
      refine ⟨moved, ?_⟩
      rintro _ ⟨⟩
    · rw [ran] at kept
      exact ih (kept st' rfl)

theorem runIterations_rule (rule : LoopRule config dispatch J P) (left : ℕ) :
    ∀ {iterations : ℕ} {st : LoopState} {world : σ}, J st.ctx world →
      P (runIterations config dispatch left iterations st world).2 := by
  induction left with
  | zero => exact fun joint => rule.holds _ _ joint
  | succ left ih =>
    intro iterations st world joint
    have holds := rule.holds _ _ joint
    simp only [runIterations]
    cases config.create config.toolsSchema st.messages with
    | error e => exact holds
    | ok resp =>
      dsimp only
      split
      · exact holds
      · have received : J (st.receive resp).ctx world := joint
        obtain ⟨moved, kept⟩ := runToolUses_rule rule
          (resp.content.filterMap Block.toolUse?) received
        rcases ran : runToolUses config dispatch (resp.content.filterMap Block.toolUse?)
          (st.receive resp) world with ⟨e | st', world'⟩
        · rw [ran] at moved
          exact moved
        · rw [ran] at moved kept
          dsimp only
          split
          · exact moved
          · split
            · exact moved
            · exact ih (kept st' rfl)

/-- The rule for `run_loop`. -/
theorem runLoop_rule (rule : LoopRule config dispatch J P) {ctx : RunContext} {world : σ}
    (joint : J ctx world) : P (runLoop config dispatch ctx world).2 :=
  runIterations_rule rule config.maxIters joint

theorem LoopInvariant.rule (inv : LoopInvariant config dispatch context P) :
    LoopRule config dispatch (fun ctx world => context ctx ∧ P world) P where
  holds _ _ joint := joint.2
  dispatched name fields input ctx world joint other passes := by
    have moved := inv.preserves name fields input ctx world joint.1 other passes joint.2
    exact ⟨moved, fun output out ctx' posted => ⟨inv.keeps _ output ctx out ctx' joint.1 posted, moved⟩⟩

/-- Invariant rule of `run_loop`. -/
theorem runLoop_invariant (inv : LoopInvariant config dispatch context P) {ctx : RunContext}
    {world : σ} (within : context ctx) (holds : P world) :
    P (runLoop config dispatch ctx world).2 :=
  runLoop_rule inv.rule ⟨within, holds⟩

section
variable {τ : Type*} {observed : String → Json → τ → Py Json × τ} {view : τ → σ}

/-- The loop answers the same when its dispatch keeps more of the world on record. -/
theorem runToolUse_view (same : ∀ name input world, dispatch name input (view world) =
      ((observed name input world).1, view (observed name input world).2))
    (st : LoopState) (world : τ) (tu : ToolUse) :
    runToolUse config dispatch st (view world) tu =
      ((runToolUse config observed st world tu).1, view (runToolUse config observed st world tu).2) := by
  simp only [runToolUse, same]
  split
  · rfl
  · split
    · rfl
    · split
      · split <;> rfl
      · split
        · rfl
        · split <;> rfl

theorem runToolUses_view (same : ∀ name input world, dispatch name input (view world) =
      ((observed name input world).1, view (observed name input world).2)) (uses : List ToolUse)
    (st : LoopState) (world : τ) :
    runToolUses config dispatch uses st (view world) =
      ((runToolUses config observed uses st world).1,
        view (runToolUses config observed uses st world).2) := by
  induction uses generalizing st world with
  | nil => rfl
  | cons tu rest ih =>
    simp only [runToolUses, runToolUse_view same]
    rcases runToolUse config observed st world tu with ⟨e | st', world'⟩
    · rfl
    · exact ih st' world'

theorem runIterations_view (same : ∀ name input world, dispatch name input (view world) =
      ((observed name input world).1, view (observed name input world).2)) (left iterations : ℕ)
    (st : LoopState) (world : τ) :
    runIterations config dispatch left iterations st (view world) =
      ((runIterations config observed left iterations st world).1,
        view (runIterations config observed left iterations st world).2) := by
  induction left generalizing iterations st world with
  | zero => rfl
  | succ left ih =>
    simp only [runIterations, runToolUses_view same]
    cases config.create config.toolsSchema st.messages with
    | error e => rfl
    | ok resp =>
      dsimp only
      split
      · rfl
      · rcases runToolUses config observed (resp.content.filterMap Block.toolUse?)
          (st.receive resp) world with ⟨e | st', world'⟩
        · rfl
        · dsimp only
          split
          · rfl
          · split
            · rfl
            · exact ih _ _ world'

end

/-- A passing call that does not name the terminal tool is dispatched. -/
theorem runToolUse_dispatches {st : LoopState} {world : σ} {tu : ToolUse}
    {fields : List (String × Json)} {input : Json} (asked : tu.input = .dict fields)
    (other : tu.name ≠ config.terminalTool)
    (passes : Passes config.hooks st.ctx ⟨tu.name, .dict fields⟩ input) :
    (runToolUse config dispatch st world tu).2 = (dispatch tu.name input world).2 := by
  obtain ⟨decision, decided, passed, rfl⟩ := passes
  simp only [runToolUse, asked, Json.isDict, if_true, decided, if_neg passed, if_neg other]
  split
  · rfl
  · split <;> rfl

theorem runToolUses_single (st : LoopState) (world : σ) (tu : ToolUse) :
    runToolUses config dispatch [tu] st world = runToolUse config dispatch st world tu := by
  simp only [runToolUses]
  split <;> simp_all

/-- A model that asks for one tool, always. -/
def insist (name : String) (input : Json) : List ToolSchema → List Message → Py Response :=
  fun _ _ => .ok { content := [.toolUse ⟨"use", name, input⟩], stopReason := some "tool_use" }

/-- A loop that makes an iteration dispatches what a passing call asks for. -/
theorem runLoop_insist {name : String} {fields : List (String × Json)} {input : Json}
    {ctx : RunContext} {world : σ} (asks : config.create = insist name (.dict fields))
    (iterates : config.maxIters ≠ 0) (other : name ≠ config.terminalTool)
    (passes : Passes config.hooks ctx ⟨name, .dict fields⟩ input)
    (reached : P (dispatch name input world).2)
    (keeps : ∀ name input world, P world → P (dispatch name input world).2) :
    P (runLoop config dispatch ctx world).2 := by
  have inv : LoopInvariant config dispatch (fun _ => True) P :=
    ⟨fun _ _ _ _ _ _ _ => trivial, fun name _ input _ world _ _ _ holds => keeps name input world holds⟩
  obtain ⟨left, iterations⟩ := Nat.exists_eq_succ_of_ne_zero iterates
  have first : ∀ st : LoopState, st.ctx = ctx →
      P (runToolUse config dispatch st world ⟨"use", name, .dict fields⟩).2 := by
    rintro st rfl
    rw [runToolUse_dispatches rfl other passes]
    exact reached
  simp only [runLoop, iterations, runIterations, asks, insist, ne_eq, not_true_eq_false, if_false,
    List.filterMap_cons, List.filterMap_nil, Block.toolUse?, runToolUses_single]
  split
  · rename_i world' ran
    have same := congrArg Prod.snd ran
    simp only at same
    rw [← same]
    exact first _ rfl
  · rename_i st' world' ran
    have same := congrArg Prod.snd ran
    simp only at same
    have done : P world' := by
      rw [← same]
      exact first _ rfl
    split
    · exact done
    · split
      · exact done
      · exact runIterations_rule inv.rule left ⟨trivial, done⟩

end

end Sentinel.Agent
