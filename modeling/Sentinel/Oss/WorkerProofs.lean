import Sentinel.Oss.Worker

/-! When a worker returns, and with what, said of its responses alone: which
verdict they hand in, and which of their calls it gets to. -/
namespace Sentinel.Oss
open Python Agent Sandbox

section Text
variable [JsonLoads]

/-- `json.loads` gives a value, or says the text is no JSON. -/
def Readable (text : List Char) : Prop :=
  (∃ v, JsonLoads.loads text = .ok v) ∨
    ∃ e, JsonLoads.loads text = .error e ∧ isDecodeError e = true

/-- The arguments are an object, or no JSON at all. -/
def Decodes (arguments : String) : Prop :=
  (∃ entries, JsonLoads.loads arguments.toList = .ok (.dict entries)) ∨
    ∃ e, JsonLoads.loads arguments.toList = .error e ∧ isDecodeError e = true

/-- The code that decodable arguments hand to the executor. -/
def handedCode (arguments : String) : Json :=
  match JsonLoads.loads arguments.toList with
  | .ok (.dict entries) => (entries.lookup "code").getD (.str "")
  | _ => .str ""

/-- The verdict that output carries. -/
def spoken (stdout : String) : Option Json :=
  match (verdictText stdout).map JsonLoads.loads with
  | some (.ok .null) => none
  | some (.ok v) => some v
  | _ => none

/-- A `run_code` call whose arguments decode, whose code the executor runs to an
end, and whose verdict line can be read. -/
structure Benign (call : FunctionCall) : Prop where
  decodes : Decodes call.arguments
  runs : ∃ res, call.run (handedCode call.arguments) = .ok res ∧
    ∀ text, verdictText res.stdout = some text → Readable text

/-- The verdict a call hands in. -/
def printed (call : FunctionCall) : Option Json :=
  if call.name ≠ "run_code" then none
  else
    match call.run (handedCode call.arguments) with
    | .ok res => spoken res.stdout
    | .error _ => none

def turnVerdict (calls : List FunctionCall) : Option Json := (calls.filterMap printed).getLast?

/-- The first verdict of `left` turns, from turn `iters` on. -/
def handedInFrom (chat : Chat) (iters left : ℕ) : Option Json :=
  (List.range' iters left).findSome? fun i => turnVerdict (chat i).calls

/-- The verdict that the responses of a worker hand in. -/
def handedIn (chat : Chat) (maxIters : ℕ) : Option Json := handedInFrom chat 0 maxIters

/-- Every code call of a turn that no verdict precedes is benign. -/
def UndisturbedFrom (chat : Chat) (iters left : ℕ) : Prop :=
  ∀ i < left, handedInFrom chat iters i = none →
    ∀ call ∈ (chat (iters + i)).calls, call.name = "run_code" → Benign call

def Undisturbed (chat : Chat) (maxIters : ℕ) : Prop := UndisturbedFrom chat 0 maxIters

theorem readVerdict_returns_iff {text : List Char} : Returns (readVerdict text) ↔ Readable text := by
  unfold readVerdict Readable
  cases JsonLoads.loads text with
  | ok v => cases v <;> simp [returns_ok]
  | error e =>
    by_cases decode : isDecodeError e = true
    · simp [decode, returns_ok]
    · simp [decode, not_returns_error]

theorem extractVerdict_returns_iff {stdout : String} :
    Returns (extractVerdict stdout) ↔ ∀ text, verdictText stdout = some text → Readable text := by
  unfold extractVerdict
  cases verdictText stdout with
  | none => simp [returns_ok]
  | some text => simpa using readVerdict_returns_iff

theorem extractVerdict_spoken {stdout : String} (returns : Returns (extractVerdict stdout)) :
    extractVerdict stdout = .ok (spoken stdout) := by
  unfold extractVerdict at returns ⊢
  unfold spoken
  cases carried : verdictText stdout with
  | none => rfl
  | some text =>
    rw [carried] at returns
    simp only [readVerdict, Option.map_some] at returns ⊢
    cases read : JsonLoads.loads text with
    | ok v => cases v <;> rfl
    | error e =>
      rw [read] at returns
      by_cases decode : isDecodeError e = true
      · simp [decode]
      · simp [decode, not_returns_error] at returns

theorem decodeCode_returns_iff {arguments : String} :
    Returns (decodeCode arguments) ↔ Decodes arguments := by
  unfold decodeCode Decodes
  cases JsonLoads.loads arguments.toList with
  | ok v => cases v <;> simp [returns_ok, not_returns_error]
  | error e =>
    by_cases decode : isDecodeError e = true
    · simp [decode, returns_ok]
    · simp [decode, not_returns_error]

theorem decodeCode_handed {arguments : String} (decodes : Decodes arguments) :
    decodeCode arguments = .ok (handedCode arguments) := by
  rcases decodes with ⟨entries, object⟩ | ⟨e, malformed, decode⟩
  · simp [decodeCode, handedCode, object]
  · simp [decodeCode, handedCode, malformed, decode]

theorem runCall_returns_iff {call : FunctionCall} :
    Returns (runCall call) ↔ (call.name = "run_code" → Benign call) := by
  unfold runCall
  by_cases code : call.name = "run_code"
  · simp only [code, ne_eq, not_true_eq_false, if_false, true_imp_iff]
    constructor
    · rintro ⟨verdict, ran⟩
      obtain ⟨decoded, decodes, rest⟩ := bind_ok_iff.mp ran
      obtain ⟨res, executed, extracted⟩ := bind_ok_iff.mp rest
      have decodable := decodeCode_returns_iff.mp ⟨_, decodes⟩
      rw [decodeCode_handed decodable] at decodes
      cases decodes
      exact ⟨decodable, res, executed, extractVerdict_returns_iff.mp ⟨_, extracted⟩⟩
    · rintro ⟨decodes, res, executed, readable⟩
      obtain ⟨verdict, extracted⟩ := extractVerdict_returns_iff.mpr readable
      exact ⟨verdict, bind_ok_iff.mpr ⟨_, decodeCode_handed decodes,
        bind_ok_iff.mpr ⟨res, executed, extracted⟩⟩⟩
  · simp [code, returns_ok]

theorem runCall_printed {call : FunctionCall} (benign : call.name = "run_code" → Benign call) :
    runCall call = .ok (printed call) := by
  unfold runCall printed
  by_cases code : call.name = "run_code"
  · obtain ⟨decodes, res, executed, readable⟩ := benign code
    have extracted := extractVerdict_spoken (extractVerdict_returns_iff.mpr readable)
    simp [code, decodeCode_handed decodes, executed, extracted, bind, Except.bind]
  · simp [code]

theorem runCalls_returns_iff {calls : List FunctionCall} {verdict : Option Json} :
    Returns (runCalls calls verdict) ↔ ∀ call ∈ calls, call.name = "run_code" → Benign call := by
  induction calls generalizing verdict with
  | nil => simp [runCalls, returns_ok]
  | cons call rest ih =>
    rw [List.forall_mem_cons, ← runCall_returns_iff]
    constructor
    · rintro ⟨last, ran⟩
      obtain ⟨found, first, later⟩ := bind_ok_iff.mp ran
      exact ⟨⟨found, first⟩, ih.mp ⟨last, later⟩⟩
    · rintro ⟨⟨found, first⟩, benign⟩
      obtain ⟨last, later⟩ := ih.mpr benign
      exact ⟨last, bind_ok_iff.mpr ⟨found, first, later⟩⟩

theorem runCalls_turnVerdict {calls : List FunctionCall} {verdict : Option Json}
    (benign : ∀ call ∈ calls, call.name = "run_code" → Benign call) :
    runCalls calls verdict = .ok ((turnVerdict calls).or verdict) := by
  induction calls generalizing verdict with
  | nil => rfl
  | cons call rest ih =>
    obtain ⟨first, later⟩ := List.forall_mem_cons.mp benign
    rw [runCalls, runCall_printed first]
    change runCalls rest ((printed call).or verdict) = _
    rw [ih later]
    unfold turnVerdict
    cases found : printed call with
    | none => simp [found]
    | some v =>
      rw [List.filterMap_cons_some found, List.getLast?_cons]
      cases (rest.filterMap printed).getLast? <;> simp

theorem handedInFrom_succ (chat : Chat) (iters left : ℕ) :
    handedInFrom chat iters (left + 1) =
      (turnVerdict (chat iters).calls).or (handedInFrom chat (iters + 1) left) := by
  unfold handedInFrom
  rw [List.range'_succ, List.findSome?_cons]
  cases turnVerdict (chat iters).calls <;> rfl

/-- One turn is undisturbed, and so are the turns after it if it hands nothing in. -/
theorem undisturbedFrom_succ {chat : Chat} {iters left : ℕ} :
    UndisturbedFrom chat iters (left + 1) ↔
      (∀ call ∈ (chat iters).calls, call.name = "run_code" → Benign call) ∧
        (turnVerdict (chat iters).calls = none → UndisturbedFrom chat (iters + 1) left) := by
  constructor
  · intro undisturbed
    refine ⟨undisturbed 0 (Nat.zero_lt_succ left) rfl, fun silent i below none call member => ?_⟩
    rw [Nat.add_right_comm] at member
    exact undisturbed (i + 1) (Nat.succ_lt_succ below)
      (by rw [handedInFrom_succ, silent, none]; rfl) call member
  · rintro ⟨first, later⟩ i below none call member
    cases i with
    | zero => exact first call member
    | succ i =>
      rw [handedInFrom_succ] at none
      obtain ⟨silent, none⟩ := Option.or_eq_none_iff.mp none
      refine later silent i (Nat.lt_of_succ_lt_succ below) none call ?_
      rwa [Nat.add_right_comm]

/-- The loop returns exactly on undisturbed turns, and then with the verdict
that they hand in. -/
theorem iterate_returns_iff {chat : Chat} {left iters : ℕ} {usage : Usage} :
    Returns (iterate chat left iters usage) ↔ UndisturbedFrom chat iters left := by
  induction left generalizing iters usage with
  | zero => simp [iterate, returns_ok, UndisturbedFrom]
  | succ left ih =>
    rw [undisturbedFrom_succ]
    constructor
    · rintro ⟨result, ran⟩
      obtain ⟨verdict, turn, rest⟩ := bind_ok_iff.mp ran
      have benign := runCalls_returns_iff.mp ⟨_, turn⟩
      refine ⟨benign, fun silent => ?_⟩
      rw [runCalls_turnVerdict benign, silent] at turn
      cases turn
      exact ih.mp ⟨result, rest⟩
    · rintro ⟨benign, later⟩
      have turn : runCalls (chat iters).calls none = _ := runCalls_turnVerdict benign
      cases found : turnVerdict (chat iters).calls with
      | some v =>
        rw [found] at turn
        exact ⟨_, bind_ok_iff.mpr ⟨_, turn, rfl⟩⟩
      | none =>
        rw [found] at turn
        obtain ⟨result, rest⟩ := ih.mpr (later found)
        exact ⟨result, bind_ok_iff.mpr ⟨_, turn, rest⟩⟩

theorem iterate_handedIn {chat : Chat} {left iters : ℕ} {usage : Usage}
    {result : Option Json × ℕ × Usage} (ran : iterate chat left iters usage = .ok result) :
    result.1 = handedInFrom chat iters left := by
  induction left generalizing iters usage with
  | zero =>
    cases ran
    rfl
  | succ left ih =>
    obtain ⟨verdict, turn, rest⟩ := bind_ok_iff.mp ran
    rw [runCalls_turnVerdict (runCalls_returns_iff.mp ⟨_, turn⟩), Option.or_none] at turn
    cases turn
    rw [handedInFrom_succ]
    cases found : turnVerdict (chat iters).calls with
    | some v =>
      simp only [found, Except.ok.injEq] at rest
      rw [← rest]
      rfl
    | none =>
      simp only [found] at rest
      rw [ih rest]
      rfl

end Text

section Judgement
variable [JsonLoads] [VerdictSchema]

/-- Whether a worker counts as failed, and the verdict it passes on. -/
def judgement (handed : Option Json) : Bool × Option Json :=
  match handed with
  | none => (true, none)
  | some v =>
    match VerdictSchema.validate v with
    | none => (true, some v)
    | some dump => (false, some (.dict dump))

theorem runWorker_returns_iff {chat : Chat} {maxIters : ℕ} :
    Returns (runWorker chat maxIters) ↔ Undisturbed chat maxIters := by
  have loop : Returns (iterate chat maxIters 0 {}) ↔ Undisturbed chat maxIters :=
    iterate_returns_iff
  rw [← loop]
  constructor
  · rintro ⟨run, ran⟩
    obtain ⟨result, looped, -⟩ := bind_ok_iff.mp ran
    exact ⟨result, looped⟩
  · rintro ⟨⟨verdict, iters, usage⟩, looped⟩
    simp only [runWorker, looped, bind, Except.bind]
    cases verdict with
    | none => exact returns_ok _
    | some v =>
      cases checked : VerdictSchema.validate v with
      | none =>
        simp only [checked]
        exact returns_ok _
      | some dump =>
        simp only [checked]
        exact returns_ok _

/-- A worker run is the judgement of what was handed in. -/
theorem runWorker_judgement {chat : Chat} {maxIters : ℕ} {run : WorkerRun}
    (ran : runWorker chat maxIters = .ok run) :
    (run.harnessFail, run.verdict) = judgement (handedIn chat maxIters) := by
  obtain ⟨⟨verdict, iters, usage⟩, looped, judged⟩ := bind_ok_iff.mp ran
  rw [handedIn, ← iterate_handedIn looped]
  cases verdict with
  | none =>
    cases judged
    rfl
  | some v =>
    cases checked : VerdictSchema.validate v with
    | none =>
      simp only [checked, Except.ok.injEq] at judged
      simp [judgement, checked, ← judged]
    | some dump =>
      simp only [checked, Except.ok.injEq] at judged
      simp [judgement, checked, ← judged]

end Judgement
end Sentinel.Oss
