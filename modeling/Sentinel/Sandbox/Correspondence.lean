import Sentinel.Sandbox.Kernel

/-! Host and kernel in step. After a handler raised in the middle of a reply, the
kernel still waits for that reply and takes the next `exec` for it; as long as no
run is begun after that, the n-th execution is of the n-th run's code and its
outcome is what that run returns. -/
namespace Sentinel.Sandbox
open Python Transition

variable {ν : Type}

def Host.current : Host ν → List (Code ν)
  | .idle => []
  | .pumping code => [code]

def Kernel.current : Kernel ν → List (Code ν)
  | .running code _ | .awaiting code _ => [code]
  | _ => []

/-- The codes of all runs, and of all executions, in the order they were begun. -/
def Session.issued (s : Session ν) : List (Code ν) := s.runs.map Prod.fst ++ s.host.current

def Session.executed (s : Session ν) : List (Code ν) :=
  s.executions.map Prod.fst ++ s.kernel.current

/-- Each run's code is executed once, in order, and what a run returns is the
outcome of that execution. -/
structure Corresponds (s : Session ν) : Prop where
  once : s.executed <+: s.issued
  ended : s.runs.length ≤ s.executed.length
  outcome : ∀ (k : ℕ) (code : Code ν) (result : ExecResult),
    s.runs[k]? = some (code, .returned result) → s.executions[k]? = some (code, result)

/-- A run is begun only while the kernel lives and no earlier run was cut short
by its handler. -/
def Undisturbed (s : Session ν) : Label ν → Prop
  | .begin _ => s.kernel ≠ .exited ∧ ∀ r ∈ s.runs, ∀ e, r.2 ≠ .raised e
  | _ => True

/-- The runs that returned, as the host records them. -/
def returned (past : List (Code ν × ExecResult)) : List (Code ν × RunEnd) :=
  past.map fun (code, result) => (code, .returned result)

/-- Where an undisturbed session can be, after the executions of `past`. -/
inductive Phase (past : List (Code ν × ExecResult)) : Session ν → Prop where
  | ready (ns) : Phase past
      { host := .idle, kernel := .serving ns, runs := returned past, executions := past }
  | sent (ns code) : Phase past
      { host := .pumping code, kernel := .serving ns, toKernel := [.exec code],
        runs := returned past, executions := past }
  | running (code program) : Phase past
      { host := .pumping code, kernel := .running code program,
        runs := returned past, executions := past }
  | asked (code resume tool args) : Phase past
      { host := .pumping code, kernel := .awaiting code resume, toHost := [.rpc tool args],
        runs := returned past, executions := past }
  | answered (code resume reply) : Phase past
      { host := .pumping code, kernel := .awaiting code resume, toKernel := [.rpcResult reply],
        runs := returned past, executions := past }
  | finished (ns code result) : Phase past
      { host := .pumping code, kernel := .serving ns, toHost := [.execResult result],
        runs := returned past, executions := past ++ [(code, result)] }
  | stranded (code resume e) : Phase past
      { host := .idle, kernel := .awaiting code resume,
        runs := returned past ++ [(code, .raised e)], executions := past }
  | dying (code) : Phase past
      { host := .pumping code, kernel := .exited,
        runs := returned past, executions := past ++ [(code, exitResult)] }
  | dead (code) : Phase past
      { host := .idle, kernel := .exited,
        runs := returned past ++ [(code, .returned exitResult)],
        executions := past ++ [(code, exitResult)] }

theorem returned_append (past : List (Code ν × ExecResult)) (code : Code ν) (result : ExecResult) :
    returned past ++ [(code, .returned result)] = returned (past ++ [(code, result)]) := by
  simp [returned]

theorem Phase.step {past : List (Code ν × ExecResult)} {s s' : Session ν} {l : Label ν}
    (phase : Phase past s) (step : Guarded Undisturbed Step s l s') : ∃ past', Phase past' s' := by
  obtain ⟨undisturbed, taken⟩ := step
  cases phase with
  | ready ns =>
    cases taken with
    | begin => exact ⟨past, .sent ns _⟩
    | _ => simp_all
  | sent ns code =>
    cases taken with
    | exec serving frame =>
      cases serving
      cases frame
      exact ⟨past, .running code _⟩
    | _ => simp_all
  | running code program =>
    cases taken with
    | call at_ =>
      cases at_
      exact ⟨past, .asked code _ _ _⟩
    | done at_ =>
      cases at_
      exact ⟨past, .finished _ code _⟩
    | exit at_ =>
      cases at_
      exact ⟨past, .dying code⟩
    | _ => simp_all
  | asked code resume tool args =>
    cases taken with
    | answer pumping frame =>
      cases frame
      exact ⟨past, .answered code resume _⟩
    | raise pumping frame =>
      cases pumping
      cases frame
      exact ⟨past, .stranded code resume _⟩
    | _ => simp_all
  | answered code resume reply =>
    cases taken with
    | reply awaiting frame =>
      cases awaiting
      cases frame
      exact ⟨past, .running code _⟩
    | _ => simp_all
  | finished ns code result =>
    cases taken with
    | result pumping frame =>
      cases pumping
      cases frame
      refine ⟨past ++ [(code, result)], ?_⟩
      simp only [returned_append]
      exact .ready ns
    | _ => simp_all
  | stranded code resume e =>
    cases taken with
    | begin => exact absurd rfl (undisturbed.2 (code, .raised e) (by simp) e)
    | _ => simp_all
  | dying code =>
    cases taken with
    | closed pumping =>
      cases pumping
      exact ⟨past, .dead code⟩
    | _ => simp_all
  | dead code =>
    cases taken with
    | begin => exact absurd rfl undisturbed.1
    | broken => exact absurd rfl undisturbed.1
    | _ => simp_all

@[simp] theorem returned_codes (past : List (Code ν × ExecResult)) :
    (returned past).map Prod.fst = past.map Prod.fst := by
  simp [returned, Function.comp_def]

theorem returned_getElem? {past : List (Code ν × ExecResult)} {k : ℕ} {code : Code ν}
    {result : ExecResult} (run : (returned past)[k]? = some (code, .returned result)) :
    past[k]? = some (code, result) := by
  simp only [returned, List.getElem?_map, Option.map_eq_some_iff] at run
  obtain ⟨⟨code', result'⟩, found, same⟩ := run
  simp only [Prod.mk.injEq, RunEnd.returned.injEq] at same
  obtain ⟨rfl, rfl⟩ := same
  exact found

theorem returned_length (past : List (Code ν × ExecResult)) :
    (returned past).length = past.length := by
  simp [returned]

/-- The outcomes agree when the last execution has no run of its own yet. -/
theorem outcome_append {past : List (Code ν × ExecResult)} (last : List (Code ν × ExecResult))
    (k : ℕ) (code : Code ν) (result : ExecResult)
    (run : (returned past)[k]? = some (code, .returned result)) :
    (past ++ last)[k]? = some (code, result) := by
  have found := returned_getElem? run
  rw [List.getElem?_append_left (List.getElem?_eq_some_iff.mp found).1]
  exact found

theorem Phase.corresponds {past : List (Code ν × ExecResult)} {s : Session ν}
    (phase : Phase past s) : Corresponds s := by
  have lengths := returned_length past
  cases phase with
  | ready ns | sent ns code | running code program | asked code | answered code | finished ns code =>
    refine ⟨?_, ?_, ?_⟩
    · simp [Session.executed, Session.issued, Host.current, Kernel.current]
    · simp [Session.executed, lengths]
    · first
        | exact fun k code result run => returned_getElem? run
        | exact outcome_append _
  | stranded code resume e =>
    refine ⟨?_, ?_, ?_⟩
    · simp [Session.executed, Session.issued, Host.current, Kernel.current]
    · simp [Session.executed, Kernel.current, lengths]
    · intro k code' result run
      rw [List.getElem?_append] at run
      split at run
      · exact returned_getElem? run
      · obtain ⟨-, last⟩ := List.mem_singleton.mp (List.mem_of_getElem? run) |> Prod.mk.inj
        cases last
  | dying code =>
    refine ⟨?_, ?_, outcome_append _⟩
    · simp [Session.executed, Session.issued, Host.current, Kernel.current]
    · simp [Session.executed, lengths]
  | dead code =>
    simp only [returned_append]
    refine ⟨?_, ?_, fun k code result run => returned_getElem? run⟩
    · simp [Session.executed, Session.issued, Host.current, Kernel.current]
    · simp [Session.executed, returned_length]

/-- As long as no run is begun after a raising handler or a dead kernel, runs
and executions correspond in every state of a session. -/
theorem session_corresponds (ns : ν) (ls : List (Label ν)) (s : Session ν)
    (run : Run (Guarded Undisturbed Step) (startSession ns) ls s) : Corresponds s := by
  obtain ⟨past, phase⟩ := run.invariant (fun s => ∃ past, Phase past s)
    (fun _ _ _ inv step => inv.elim fun _ phase => phase.step step) ⟨[], .ready ns⟩
  exact phase.corresponds

/-- Code that makes one proxy call and prints its mark whatever comes back. -/
def callThenPrint (tool : Json) (mark : String) : Code Unit := fun ns =>
  .rpc tool (.dict []) fun _ => .done ns ⟨mark, none⟩

/-- Two runs, the first with an answered call and the second with a refused one. -/
theorem session_corresponds_answered :
    Corresponds
      ({ host := .idle, kernel := .serving ()
         runs := [(callThenPrint (.str "metrics_names") "one", .returned ⟨"one", none⟩),
           (callThenPrint (.str "no_such_tool") "two", .returned ⟨"two", none⟩)]
         executions := [(callThenPrint (.str "metrics_names") "one", ⟨"one", none⟩),
           (callThenPrint (.str "no_such_tool") "two", ⟨"two", none⟩)] } :
        Session Unit) :=
  session_corresponds ()
    [.begin (callThenPrint (.str "metrics_names") "one"), .kernel, .kernel,
      .answer (.dict [("ok", .bool true), ("result", .list [])]), .kernel, .kernel, .receive,
      .begin (callThenPrint (.str "no_such_tool") "two"), .kernel, .kernel,
      .answer (.dict [("ok", .bool false), ("error", .str "unknown tool")]), .kernel, .kernel,
      .receive] _
    (.next ⟨⟨nofun, by simp [startSession]⟩, .begin rfl⟩ <|
      .next ⟨trivial, .exec rfl rfl⟩ <| .next ⟨trivial, .call rfl⟩ <|
      .next ⟨trivial, .answer rfl rfl⟩ <| .next ⟨trivial, .reply rfl rfl⟩ <|
      .next ⟨trivial, .done rfl⟩ <| .next ⟨trivial, .result rfl rfl⟩ <|
      .next ⟨⟨nofun, by simp [startSession]⟩, .begin rfl⟩ <|
      .next ⟨trivial, .exec rfl rfl⟩ <| .next ⟨trivial, .call rfl⟩ <|
      .next ⟨trivial, .answer rfl rfl⟩ <| .next ⟨trivial, .reply rfl rfl⟩ <|
      .next ⟨trivial, .done rfl⟩ <| .next ⟨trivial, .result rfl rfl⟩ <| .refl _)

/-- After an unhashable tool name, the next run returns the first one's output. -/
theorem session_shifted : ¬ ∀ (ls : List (Label Unit)) (s : Session Unit),
    Run Step (startSession ()) ls s → Corresponds s := by
  intro always
  have shifted := always
    [.begin (callThenPrint (.list []) "one"), .kernel, .kernel,
      .raise (Json.unhashable (.list [])), .begin (callThenPrint (.str "metrics_names") "two"),
      .kernel, .kernel, .receive] _
    (.next (.begin rfl) <| .next (.exec rfl rfl) <| .next (.call rfl) <| .next (.raise rfl rfl) <|
      .next (.begin rfl) <| .next (.reply rfl rfl) <| .next (.done rfl) <|
      .next (.result rfl rfl) <| .refl _)
  have second := shifted.outcome 1 (callThenPrint (.str "metrics_names") "two") ⟨"one", none⟩ rfl
  cases second

end Sentinel.Sandbox
