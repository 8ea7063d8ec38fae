import Sentinel.Agent.Conformance

/-! What a loop puts on its account: the tokens of every answer it was given, and the name of
every tool an answer called for. -/
namespace Sentinel.Agent
open Python Transition

/-- The counts that the loop keeps of a response's tokens. -/
def Usage.tokens (usage : Usage) (key : String) : ℤ :=
  if key = "input" then usage.input
  else if key = "output" then usage.output
  else if key = "cache_read" then usage.cacheRead
  else if key = "cache_write" then usage.cacheWrite
  else 0

/-- The count of a key in a `Counter`. -/
def tokensOf (counter : Dict String Int) (key : String) : ℤ := (counter.get? key).getD 0

/-- The tools that a turn calls for. -/
def Response.called (resp : Response) : List String :=
  if resp.stopReason = some "tool_use" then resp.uses.map ToolUse.name else []

theorem tokensOf_addUsage (counter : Dict String Int) (usage : Usage) (key : String) :
    tokensOf (addUsage counter usage) key = tokensOf counter key + usage.tokens key := by
  simp only [tokensOf, addUsage, Dict.get?_set, Usage.tokens]
  by_cases input : key = "input"
  · subst input
    rfl
  by_cases output : key = "output"
  · subst output
    rfl
  by_cases read : key = "cache_read"
  · subst read
    rfl
  by_cases write : key = "cache_write"
  · subst write
    rfl
  simp [input, output, read, write]

section
variable {σ : Type*} {config : LoopConfig} {dispatch : String → Json → σ → Py Json × σ}

/-- What handling tool uses leaves alone, and the names it keeps. -/
structure Keeps (st : LoopState) (names : List String) (st' : LoopState) : Prop where
  calls : st'.calls = st.calls ++ names
  usage : st'.usage = st.usage

theorem runToolUse_keeps {st st' : LoopState} {world world' : σ} {tu : ToolUse}
    (ran : runToolUse config dispatch st world tu = (.ok st', world')) : Keeps st [tu.name] st' := by
  unfold runToolUse at ran
  dsimp only at ran
  split at ran
  · cases ran
  split at ran
  · cases ran
    exact ⟨rfl, rfl⟩
  split at ran
  · split at ran
    · cases ran
      exact ⟨rfl, rfl⟩
    · cases ran
      exact ⟨rfl, rfl⟩
  split at ran
  · cases ran
  split at ran
  · cases ran
  · cases ran
    exact ⟨rfl, rfl⟩

theorem run_keeps {s s' : LoopState × σ} {handled : List (ToolUse × Fate)}
    (run : Run (UseStep config dispatch) s handled s') :
    Keeps s.1 (handled.map fun h => h.1.name) s'.1 := by
  induction run with
  | refl s => exact ⟨(List.append_nil _).symm, rfl⟩
  | next step _ ih =>
    have head := runToolUse_keeps step.1
    exact ⟨by rw [ih.calls, head.calls, List.map_cons, List.append_assoc]; rfl, ih.usage.trans head.usage⟩

/-- Blocks that are all handled are handled one by one. -/
theorem run_of_runToolUses {uses : List ToolUse} : ∀ {st st' : LoopState} {world world' : σ},
    runToolUses config dispatch uses st world = (.ok st', world') →
      ∃ handled, handled.map Prod.fst = uses ∧
        Run (UseStep config dispatch) (st, world) handled (st', world') := by
  induction uses with
  | nil =>
    rintro st st' world world' ⟨⟩
    exact ⟨[], rfl, .refl _⟩
  | cons tu rest ih =>
    intro st st' world world' ran
    rw [runToolUses] at ran
    split at ran
    · cases ran
    · rename_i st'' world'' first
      obtain ⟨handled, uses, run⟩ := ih ran
      exact ⟨(tu, fateOf config st.ctx tu) :: handled, by rw [List.map_cons, uses], .next ⟨first, rfl⟩ run⟩

/-- A loop that returns has gone through the exchanges of some log. -/
theorem iterates_of_runIterations {left : ℕ} : ∀ {made : ℕ} {st : LoopState} {world world' : σ}
    {result : LoopResult}, runIterations config dispatch left made st world = (.ok result, world') →
    ∃ log final stop, Iterates config (UseStep config dispatch) left (st, world) log final stop ∧
      result = final.1.result (made + log.length) stop := by
  induction left with
  | zero =>
    rintro made st world world' result ⟨⟩
    exact ⟨[], _, _, .exhausted _, rfl⟩
  | succ left ih =>
    intro made st world world' result ran
    rw [runIterations] at ran
    split at ran
    · cases ran
    rename_i resp answered
    dsimp only at ran
    split at ran
    · rename_i other
      cases ran
      exact ⟨_, _, _, .ended answered other, rfl⟩
    rename_i tool
    rw [not_not] at tool
    split at ran
    · cases ran
    rename_i st' _ used
    obtain ⟨handled, uses, run⟩ := run_of_runToolUses used
    by_cases done : st'.done = true
    · rw [if_pos done] at ran
      cases ran
      refine ⟨_, _, _, .stopped answered tool uses run (.inl done), ?_⟩
      rw [if_pos done]
      rfl
    have open_ : st'.done = false := by simpa using done
    rw [if_neg done] at ran
    by_cases exceeded : (st'.usage.get? "output").getD 0 > config.outputBudget
    · rw [if_pos exceeded] at ran
      cases ran
      refine ⟨_, _, _, .stopped answered tool uses run (.inr exceeded), ?_⟩
      rw [if_neg done]
      rfl
    · rw [if_neg exceeded] at ran
      obtain ⟨log, final, stop, iterates, ended⟩ := ih ran
      refine ⟨_, final, stop, .next answered tool uses run open_ (not_lt.mp exceeded) iterates, ?_⟩
      rw [ended, List.length_cons]
      congr 1
      omega

/-- The account of exchanges is the sum over their answers. -/
structure Account (st : LoopState) (log : List Exchange) (st' : LoopState) : Prop where
  calls : st'.calls = st.calls ++ log.flatMap fun e => e.response.called
  tokens : ∀ key, tokensOf st'.usage key =
    tokensOf st.usage key + (log.map fun e => e.response.usage.tokens key).sum

theorem account_turn {st st' : LoopState} {world world' : σ} {resp : Response}
    {handled : List (ToolUse × Fate)} (results : List ToolResult) (tool : resp.stopReason = some "tool_use")
    (uses : handled.map Prod.fst = resp.uses)
    (run : Run (UseStep config dispatch) (st.receive resp, world) handled (st', world')) :
    Account st [⟨resp, handled, results⟩] st' := by
  have kept := run_keeps run
  constructor
  · rw [kept.calls, List.flatMap_singleton, Response.called, if_pos tool, ← uses, List.map_map]
    rfl
  · intro key
    rw [kept.usage, List.map_singleton, List.sum_singleton]
    exact tokensOf_addUsage st.usage resp.usage key

theorem Account.append {st st' st'' : LoopState} {log later : List Exchange} (first : Account st log st')
    (second : Account st' later st'') : Account st (log ++ later) st'' := by
  constructor
  · rw [second.calls, first.calls, List.flatMap_append, List.append_assoc]
  · intro key
    rw [second.tokens key, first.tokens key, List.map_append, List.sum_append, add_assoc]

theorem Iterates.account {left : ℕ} {s final : LoopState × σ} {log : List Exchange} {stop : String}
    (iterates : Iterates config (UseStep config dispatch) left s log final stop) :
    Account s.1 log final.1 := by
  induction iterates with
  | exhausted s => exact ⟨(List.append_nil _).symm, fun _ => (add_zero _).symm⟩
  | @ended left st world resp answered other =>
    constructor
    · rw [List.flatMap_singleton, Response.called, if_neg other]
      exact (List.append_nil _).symm
    · intro key
      rw [List.map_singleton, List.sum_singleton]
      exact tokensOf_addUsage st.usage resp.usage key
  | stopped answered tool uses run ends =>
    obtain ⟨calls, tokens⟩ := account_turn _ tool uses run
    exact ⟨calls, tokens⟩
  | @next _ st _ resp handled st' _ _ _ _ answered tool uses run open_ within _ ih =>
    obtain ⟨calls, tokens⟩ := account_turn st'.results tool uses run
    have replied : Account st [⟨resp, handled, st'.results⟩] st'.reply := ⟨calls, tokens⟩
    exact replied.append ih

/-- A loop that returns has gone through exchanges, and its account is the sum over them. -/
theorem runLoop_account {ctx : RunContext} {world : σ} {result : LoopResult}
    (ran : (runLoop config dispatch ctx world).1 = .ok result) :
    ∃ log final stop, Iterates config (UseStep config dispatch) config.maxIters
        ({ messages := [.user config.initialUser], ctx }, world) log final stop ∧
      result = final.1.result log.length stop ∧
      result.calls = log.flatMap (fun e => e.response.called) ∧
      ∀ key, tokensOf result.usage key = (log.map fun e => e.response.usage.tokens key).sum := by
  obtain ⟨log, final, stop, iterates, ended⟩ := iterates_of_runIterations (Prod.ext ran rfl)
  rw [Nat.zero_add] at ended
  obtain ⟨calls, tokens⟩ := iterates.account
  refine ⟨log, final, stop, iterates, ended, ?_, fun key => ?_⟩
  · rw [ended]
    exact calls
  · rw [ended]
    exact (tokens key).trans (zero_add _)

end
end Sentinel.Agent
