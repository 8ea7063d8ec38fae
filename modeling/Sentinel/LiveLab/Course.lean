import Sentinel.LiveLab.MachineProofs

/-! The course of a live run: how many phases it has announced, and whether it is
on its way to the terminal phase or past it. Every exit path goes through the
handlers, except for exceptions outside `Exception`. -/
namespace Sentinel.LiveLab
open Python Actions

/-- The phases before the terminal one. -/
def phaseOrder : List Phase :=
  [.preflight, .booting, .baseline, .injecting, .soak, .investigating, .report,
    .awaitingApproval, .executing, .recovering]

def Note.isFrame : Note → Bool
  | .frame _ => true
  | _ => false

/-- What happened, without the frames. -/
def LiveRun.milestones (live : LiveRun) : List Note := live.log.filter fun note => !note.isFrame

def Note.phase? : Note → Option Phase
  | .phase p => some p
  | _ => none

/-- The phases announced so far. -/
def LiveRun.phases (live : LiveRun) : List Phase := live.milestones.filterMap Note.phase?

inductive Course where
  -- this many phases are announced
  | running (announced : ℕ)
  -- in a handler, or after `_decide_and_execute`
  | ending
  | finished
  -- past the last `clear()`
  | swept

def Window.announced : Window → ℕ
  | .baseline => 3
  | .soak => 5

def Return.announced : Return → ℕ
  | .boot => 2
  | .injected => 4
  | .wait window _ => window.announced

def Task.announced : Task → ℕ
  | .daemonUp | .preflightServices => 1
  | .bootServices | .labUp | .bootAbort _ | .bootPoll _ | .bootSleep _ | .ingestAbort _
  | .ingestPoll _ | .ingestSleep _ | .baselineStart => 2
  | .injectedAt => 4
  | .labServices back | .labIngestAge back _ => back.announced
  | .waitStart window | .waitAbort window _ | .waitRemaining window _ | .waitSleep window _ =>
    window.announced
  | .windowEnd => 5
  | .storeFactory | .runRca => 6
  | .executorFactory _ | .suggest _ | .expires _ => 7
  | .deadline _ | .awaiting .. | .ttl .. | .decisionAbort _ | .renderDetail _ => 8
  | .gateNow _ => 9
  | .recoveryAbort .. | .recoverySleep .. | .recoveryHealth .. => 10

def Entry.course : Entry → Course
  | .preflight => .running 0
  | .booting => .running 1
  | .baseline => .running 2
  | .injecting => .running 3
  | .soak => .running 4
  | .investigating => .running 5
  | .report _ => .running 6
  | .awaitingApproval _ => .running 7
  | .executing _ => .running 8
  | .recovering .. => .running 9
  | .done | .failed | .cancelled => .ending

def Pc.course : Pc → Course
  | .task t => .running t.announced
  | .enter entry | .announce entry => entry.course
  | .sweep => .running 2
  | .inject => .running 4
  | .propose .. | .post _ => .running 7
  | .decisionNone _ | .decisionRead _ | .expire _ | .deny .. | .approve .. => .running 8
  | .gateCheck .. | .gateExpire _ | .gateMismatch _ | .gateRender .. | .gateStart ..
  | .gateExecute .. | .gateResult .. | .gateDetail .. | .settle .. => .running 9
  | .finalClear => .finished
  | .close | .ended => .swept

/-- The moves of the course, with the phases they announce. -/
inductive CourseStep (tame : Prop) : Course → Course → List Phase → Prop where
  | stay (c) : CourseStep tame c c []
  | advance {k p} : phaseOrder[k]? = some p → CourseStep tame (.running k) (.running (k + 1)) [p]
  | leave (k) : CourseStep tame (.running k) .ending []
  | advanceLeave {k p} : phaseOrder[k]? = some p → CourseStep tame (.running k) .ending [p]
  | escape (k) : ¬ tame → CourseStep tame (.running k) .finished []
  | conclude {p} : p.terminal = true → CourseStep tame .ending .finished [p]
  | sweep : CourseStep tame .finished .swept []

/-- What the course says of the phases announced. -/
def Course.Holds (tame : Prop) (phases : List Phase) : Course → Prop
  | .running k => phases = phaseOrder.take k
  | .ending => ∃ k, phases = phaseOrder.take k
  | .finished | .swept => (∃ k p, p.terminal = true ∧ phases = phaseOrder.take k ++ [p]) ∨
      (¬ tame ∧ ∃ k, phases = phaseOrder.take k)

theorem take_advance {k : ℕ} {p : Phase} (next : phaseOrder[k]? = some p) :
    phaseOrder.take k ++ [p] = phaseOrder.take (k + 1) := by
  simp [List.take_add_one, next]

theorem CourseStep.holds {tame : Prop} {c c' : Course} {phases announced : List Phase}
    (step : CourseStep tame c c' announced) (holds : c.Holds tame phases) :
    c'.Holds tame (phases ++ announced) := by
  cases step with
  | stay => simpa using holds
  | advance next =>
    cases holds
    exact take_advance next
  | leave k =>
    cases holds
    exact ⟨k, List.append_nil _⟩
  | advanceLeave next =>
    cases holds
    exact ⟨_, take_advance next⟩
  | escape k wild =>
    cases holds
    exact .inr ⟨wild, k, List.append_nil _⟩
  | conclude terminal =>
    obtain ⟨k, rfl⟩ := holds
    exact .inl ⟨k, _, terminal, rfl⟩
  | sweep =>
    rw [List.append_nil]
    exact holds

theorem CourseStep.to_swept {tame : Prop} {c c' : Course} {announced : List Phase}
    (step : CourseStep tame c c' announced) (swept : c' = .swept) : c = .swept ∨ c = .finished := by
  cases step with
  | stay => exact .inl swept
  | sweep => exact .inr rfl
  | _ => cases swept

/-! ### What a step adds -/

section Milestones

@[simp] theorem milestones_noted (live : LiveRun) (notes : List Note) :
    (live.noted notes).milestones = live.milestones ++ notes.filter fun note => !note.isFrame :=
  List.filter_append ..

@[simp] theorem milestones_emit (live : LiveRun) (frames : List Frame) :
    (live.emit frames).milestones = live.milestones := by
  simp [LiveRun.emit, List.filter_map, Function.comp_def, Note.isFrame]

theorem milestones_fail (live : LiveRun) (e : Exn) :
    (live.fail e).1.milestones = live.milestones := by
  unfold LiveRun.fail
  split
  · rfl
  · exact milestones_emit live _

theorem milestones_attempt {α : Type} {live : LiveRun} {result : Py α} {next : α → LiveRun × Pc}
    {written : List Note} (called : live.milestones = written)
    (returned : ∀ a, (next a).1.milestones = written) :
    (live.attempt result next).1.milestones = written := by
  cases result with
  | ok a => exact returned a
  | error e => exact (milestones_fail live e).trans called

/-- What a step of the run thread adds to the milestones. -/
def Pc.writes (live : LiveRun) : Pc → List Note
  | .announce entry => [.phase entry.phase]
  | .sweep | .finalClear => [.clear]
  | .inject => [.inject]
  | .decisionNone _ => if live.decision = none then [.lapsed] else []
  | .gateExecute _ now => [.execute now]
  | _ => []

variable [FloatRepr] [Hashlib] {config : Config}

theorem Pc.next_milestones (pc : Pc) (live : LiveRun) (n : ℕ)
    (clocked : Returns (config.deps.clock n)) :
    (pc.next config live n).1.milestones = live.milestones ++ pc.writes live := by
  have same : live.milestones = live.milestones ++ [] := (List.append_nil _).symm
  cases pc with
  | task t =>
    simp only [Pc.next]
    cases t.turn config live n with
    | go frames pc => simp [LiveRun.follow, Pc.writes]
    | raise e => exact (milestones_fail live e).trans same
    | aborted => exact same
  | enter entry => exact same
  | announce entry =>
    obtain ⟨now, read⟩ := clocked
    simp [Pc.next, read, Pc.writes, Note.isFrame]
  | sweep | inject =>
    exact milestones_attempt (milestones_noted live _) fun _ => milestones_noted live _
  | gateExecute => exact milestones_attempt (milestones_noted live _) fun _ => milestones_noted live _
  | propose | gateExpire | gateMismatch | gateStart | gateResult | gateRender | gateDetail =>
    exact milestones_attempt same fun _ => same
  | post | expire | deny | approve =>
    exact milestones_attempt same fun _ => (milestones_emit _ _).trans same
  | settle =>
    exact milestones_attempt ((milestones_emit _ _).trans same) fun _ =>
      (milestones_emit _ _).trans ((milestones_emit _ _).trans same)
  | decisionNone =>
    simp only [Pc.next]
    split
    · rename_i undecided
      simp [Pc.writes, Note.isFrame, undecided]
    · rename_i decided
      simp [Pc.writes, decided]
  | decisionRead =>
    simp only [Pc.next]
    split
    · exact (milestones_fail live _).trans same
    · split <;> exact same
  | gateCheck =>
    simp only [Pc.next]
    split <;> exact same
  | finalClear =>
    simp only [Pc.next]
    split <;> exact milestones_noted live _
  | close | ended => exact same

end Milestones

/-! ### The run thread keeps its course -/

/-- No dependency raises anything that `except Exception` lets through. -/
structure Deps.Tame (deps : Deps) : Prop where
  daemonUp : ∀ n, Ordinary (deps.daemonUp n)
  appServices : ∀ n, Ordinary (deps.appServices n)
  labUp : ∀ n, Ordinary (deps.labUp n)
  ingestAgeS : ∀ n, Ordinary (deps.ingestAgeS n)
  inject : ∀ n, Ordinary (deps.inject n)
  clear : ∀ n, Ordinary (deps.clear n)
  healthNow : ∀ n, Ordinary (deps.healthNow n)
  storeFactory : ∀ n, Ordinary (deps.storeFactory n)
  runRca : ∀ n, Ordinary (deps.runRca n)
  executorFactory : ∀ n, Ordinary (deps.executorFactory n)
  render : ∀ n action, Ordinary ((deps.executor n).render action)
  execute : ∀ n action, Ordinary ((deps.executor n).execute action)
  sleep : ∀ n, Ordinary (deps.sleep n)

section Course
variable {config : Config}

theorem preflightVerdict_ordinary (checks : List Check) : Ordinary (preflightVerdict checks) := by
  simp only [preflightVerdict]
  split
  · exact ordinary_ok _
  · exact ordinary_error rfl

theorem lessThan_ordinary (value : Json) (bound : ℚ) : Ordinary (lessThan value bound) := by
  unfold lessThan
  split
  · exact ordinary_ok _
  · exact ordinary_error rfl

theorem isRecovered_ordinary (recoveredBelow : Option ℚ) (before value : Json) :
    Ordinary (isRecovered recoveredBelow before value) := by
  unfold isRecovered
  repeat' split
  all_goals first | exact ordinary_ok _ | exact ordinary_error rfl | exact lessThan_ordinary _ _

theorem synthesisText_ordinary (result : RcaResult) (key : String) {refused : Json → Exn}
    (caught : ∀ value, (refused value).base = false) :
    Ordinary (synthesisText result key refused) := by
  unfold synthesisText
  split
  · exact ordinary_ok _
  · split
    · exact ordinary_error (caught _)
    · exact ordinary_ok _

variable [FloatRepr] [Hashlib]

theorem proposal_ordinary {n : ℕ} {result : RcaResult}
    (rendered : ∀ action, Ordinary ((config.deps.executor n).render action)) :
    Ordinary (proposal config result n) := by
  have fault : Ordinary (faultType config.scenario result) := by
    unfold faultType
    split
    · exact ordinary_ok _
    · exact synthesisText_ordinary _ _ fun _ => rfl
  have cited : Ordinary (citations result) :=
    (synthesisText_ordinary _ _ fun _ => rfl).bind fun _ _ => ordinary_ok _
  refine fault.bind fun _ _ => cited.bind fun _ _ => ?_
  exact (suggestActions_ordinary rendered).bind fun _ _ => ordinary_ok _

/-- The task raises only what `except Exception` catches. -/
def Turn.Caught (turn : Turn) : Prop := ∀ e, turn = .raise e → e.base = false

omit [FloatRepr] [Hashlib] in
theorem caught_goto (pc : Pc) : (Turn.goto pc).Caught := by
  rintro e ⟨⟩

omit [FloatRepr] [Hashlib] in
theorem caught_attempt {α : Type} {result : Py α} {next : α → Turn} (called : Ordinary result)
    (returned : ∀ a, (next a).Caught) : (attempt result next).Caught := by
  cases result with
  | ok a => exact returned a
  | error e =>
    rintro _ ⟨⟩
    exact called e rfl

omit [FloatRepr] [Hashlib] in
theorem caught_labFailed {back : Return} {e : Exn} (caught : e.base = false) :
    (labFailed back e).Caught := by
  simp only [labFailed, caught]
  exact caught_goto _

omit [FloatRepr] [Hashlib] in
theorem caught_abort {abort : Bool} (pc : Pc) :
    (if abort = true then Turn.aborted else .goto pc).Caught := by
  split
  · rintro e ⟨⟩
  · exact caught_goto pc

theorem Task.turn_caught (t : Task) (live : LiveRun) {n : ℕ} (tame : config.deps.Tame)
    (clocked : Returns (config.deps.clock n)) : (t.turn config live n).Caught := by
  have clock : Ordinary (config.deps.clock n) := by
    obtain ⟨now, read⟩ := clocked
    rw [read]
    exact ordinary_ok now
  cases t with
  | daemonUp =>
    refine caught_attempt (tame.daemonUp n) fun daemon => ?_
    split
    · exact caught_goto _
    · exact caught_attempt (preflightVerdict_ordinary _) fun _ => caught_goto _
  | preflightServices =>
    exact caught_attempt (tame.appServices n) fun _ =>
      caught_attempt (preflightVerdict_ordinary _) fun _ => caught_goto _
  | bootServices | bootPoll =>
    refine caught_attempt (tame.appServices n) fun _ => ?_
    split <;> exact caught_goto _
  | labUp => exact caught_attempt (tame.labUp n) fun _ => caught_goto _
  | bootAbort | ingestAbort | waitAbort | decisionAbort | recoveryAbort => exact caught_abort _
  | bootSleep | ingestSleep =>
    refine caught_attempt (tame.sleep n) fun _ => ?_
    split
    · exact caught_goto _
    · rintro _ ⟨⟩
      rfl
  | ingestPoll =>
    refine caught_attempt (tame.ingestAgeS n) fun _ => ?_
    split <;> exact caught_goto _
  | labServices back =>
    simp only [Task.turn]
    split
    · exact caught_goto _
    · rename_i e failed
      exact caught_labFailed (tame.appServices n e failed)
  | labIngestAge back services =>
    simp only [Task.turn]
    split
    · rintro e ⟨⟩
    · rename_i e failed
      exact caught_labFailed (tame.ingestAgeS n e failed)
  | baselineStart | injectedAt | waitStart | windowEnd | expires | deadline | gateNow =>
    exact caught_attempt clock fun _ => caught_goto _
  | waitRemaining window due =>
    refine caught_attempt clock fun _ => ?_
    split
    · split <;> exact caught_goto _
    · exact caught_goto _
  | waitSleep | recoverySleep => exact caught_attempt (tame.sleep n) fun _ => caught_goto _
  | storeFactory => exact caught_attempt (tame.storeFactory n) fun _ => caught_goto _
  | runRca => exact caught_attempt (tame.runRca n) fun _ => caught_goto _
  | executorFactory => exact caught_attempt (tame.executorFactory n) fun _ => caught_goto _
  | suggest result =>
    refine caught_attempt (proposal_ordinary (tame.render n)) fun primary => ?_
    cases primary with
    | none =>
      rintro _ ⟨⟩
      rfl
    | some action => exact caught_goto _
  | awaiting =>
    simp only [Task.turn]
    split <;> exact caught_goto _
  | ttl =>
    refine caught_attempt clock fun _ => ?_
    split <;> exact caught_goto _
  | renderDetail => exact caught_attempt (tame.render n _) fun _ => caught_goto _
  | recoveryHealth poll before =>
    refine caught_attempt (tame.healthNow n) fun _ =>
      caught_attempt (isRecovered_ordinary _ _ _) fun _ => ?_
    rintro _ ⟨⟩

omit [FloatRepr] [Hashlib] in
theorem Return.pc_course (back : Return) : back.pc.course = .running back.announced := by
  cases back <;> rfl

omit [FloatRepr] [Hashlib] in
theorem labFailed_course {back : Return} {e : Exn} {frames : List Frame} {pc : Pc}
    (turned : labFailed back e = .go frames pc) : pc.course = .running back.announced := by
  unfold labFailed at turned
  split at turned
  · cases turned
  · cases turned
    exact back.pc_course

omit [FloatRepr] [Hashlib] in
theorem recoveryLoop_course (poll : ℕ) (before : Json) (recovered : Bool) :
    (recoveryLoop poll before recovered).course = .running 10 ∨
      (recoveryLoop poll before recovered).course = .ending := by
  unfold recoveryLoop
  split
  · exact .inr rfl
  · exact .inl rfl

/-- A task announces nothing; only the recovery polls end by themselves. -/
theorem Task.turn_course {t : Task} {live : LiveRun} {n : ℕ} {frames : List Frame} {pc : Pc}
    {tame : Prop} (turned : t.turn config live n = .go frames pc) :
    CourseStep tame (.running t.announced) pc.course [] := by
  cases t with
  | labServices back =>
    simp only [Task.turn] at turned
    split at turned
    · cases turned
      exact .stay _
    · rw [labFailed_course turned]
      exact .stay _
  | labIngestAge back services =>
    simp only [Task.turn] at turned
    split at turned
    · cases turned
      rw [back.pc_course]
      exact .stay _
    · rw [labFailed_course turned]
      exact .stay _
  | recoveryHealth poll before =>
    simp only [Task.turn, attempt] at turned
    repeat' split at turned
    all_goals cases turned
    rename_i recovered _
    rcases recoveryLoop_course (poll + 1) before recovered with same | same
    · rw [same]
      exact .stay _
    · rw [same]
      exact .leave _
  | _ =>
    simp only [Task.turn, attempt, Turn.goto] at turned
    repeat' split at turned
    all_goals first | contradiction | (cases turned; exact .stay _)

/-- The phase that a step announces. -/
def Pc.announces : Pc → List Phase
  | .announce entry => [entry.phase]
  | _ => []

omit [FloatRepr] [Hashlib] in
theorem Pc.writes_phases (pc : Pc) (live : LiveRun) :
    (pc.writes live).filterMap Note.phase? = pc.announces := by
  cases pc with
  | decisionNone =>
    simp only [Pc.writes]
    split <;> rfl
  | _ => rfl

omit [FloatRepr] [Hashlib] in
theorem fail_course {k : ℕ} (live : LiveRun) {e : Exn}
    (caught : config.deps.Tame → e.base = false) :
    CourseStep config.deps.Tame (.running k) (live.fail e).2.course [] := by
  unfold LiveRun.fail
  split
  · rename_i base
    refine .escape k fun tame => ?_
    rw [caught tame] at base
    cases base
  · exact .leave k

omit [FloatRepr] [Hashlib] in
theorem attempt_course {α : Type} {k : ℕ} {live : LiveRun} {result : Py α}
    {next : α → LiveRun × Pc} (caught : config.deps.Tame → Ordinary result)
    (returned : ∀ a, CourseStep config.deps.Tame (.running k) (next a).2.course []) :
    CourseStep config.deps.Tame (.running k) (live.attempt result next).2.course [] := by
  cases result with
  | ok a => exact returned a
  | error e => exact fail_course live fun tame => caught tame e rfl

omit [FloatRepr] [Hashlib] in
/-- Announcing a phase moves the course on. -/
theorem Entry.body_course (entry : Entry) (scenario : Scenario) {tame : Prop} :
    CourseStep tame entry.course (entry.body scenario).2.course [entry.phase] := by
  cases entry with
  | recovering before recovered =>
    rcases recoveryLoop_course 0 before recovered with same | same
    · simp only [Entry.body, same]
      exact .advance rfl
    · simp only [Entry.body, same]
      exact .advanceLeave rfl
  | done | failed | cancelled => exact .conclude rfl
  | _ => exact .advance rfl

/-- Each step of the run thread is a move of the course. -/
theorem Pc.next_course (pc : Pc) (live : LiveRun) (n : ℕ)
    (clocked : Returns (config.deps.clock n)) :
    CourseStep config.deps.Tame pc.course (pc.next config live n).2.course pc.announces := by
  have clock : config.deps.Tame → Ordinary (config.deps.clock n) := by
    obtain ⟨now, read⟩ := clocked
    rw [read]
    exact fun _ => ordinary_ok now
  cases pc with
  | task t =>
    simp only [Pc.next]
    cases turned : t.turn config live n with
    | go frames pc => exact t.turn_course turned
    | raise e => exact fail_course live fun tame => t.turn_caught live tame clocked e turned
    | aborted => exact .leave _
  | enter entry => exact .stay _
  | announce entry =>
    obtain ⟨now, read⟩ := clocked
    simp only [Pc.next, read]
    exact entry.body_course config.scenario
  | sweep => exact attempt_course (fun tame => tame.clear n) fun _ => .stay _
  | inject => exact attempt_course (fun tame => tame.inject n) fun _ => .stay _
  | propose | post | approve | gateExpire | gateMismatch | gateStart | gateResult =>
    exact attempt_course clock fun _ => .stay _
  | expire | deny => exact attempt_course clock fun _ => .leave _
  | decisionNone =>
    simp only [Pc.next]
    split <;> exact .stay _
  | decisionRead =>
    simp only [Pc.next]
    split
    · exact fail_course live fun _ => rfl
    · split <;> exact .stay _
  | gateCheck =>
    simp only [Pc.next]
    split <;> exact .stay _
  | gateRender | gateDetail => exact attempt_course (fun tame => tame.render n _) fun _ => .stay _
  | gateExecute => exact attempt_course (fun tame => tame.execute n _) fun _ => .stay _
  | settle => exact attempt_course (fun _ => isRecovered_ordinary _ _ _) fun _ => .stay _
  | finalClear =>
    simp only [Pc.next]
    split
    · exact .sweep
    · split <;> exact .sweep
  | close | ended => exact .stay _

end Course

end Sentinel.LiveLab
