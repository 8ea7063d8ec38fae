import Sentinel.Actions.Binding
import Sentinel.LiveLab.Machine

/-! What one step of a live run can do: the run thread leaves the fields of the
requests alone, a request thread leaves the journal and the run thread alone,
and the log only grows. -/
namespace Sentinel.LiveLab
open Python Actions

/-- The phases that end a run. -/
def Phase.terminal : Phase → Bool
  | .done | .failed | .cancelled => true
  | _ => false

/-- A decision that the call has assigned; such a call answers True. -/
def Click.recorded : Click → Option Decision
  | .signalling decision | .accepted decision => some decision
  | _ => none

/-- The decisions that calls have assigned; these calls answer True. -/
def System.recorded (s : System) : List Decision := s.clicks.filterMap Click.recorded

theorem mem_recorded {s : System} {d : Decision} :
    d ∈ s.recorded ↔ ∃ click ∈ s.clicks, click.recorded = some d :=
  List.mem_filterMap

theorem mem_recorded_set {s : System} {live : LiveRun} {i : ℕ} {click' : Click} {d : Decision}
    (member : d ∈ System.recorded ⟨live, s.pc, s.clicks.set i click'⟩) :
    d ∈ s.recorded ∨ click'.recorded = some d := by
  obtain ⟨click, inSet, recorded⟩ := mem_recorded.mp member
  rcases List.mem_or_eq_of_mem_set inSet with earlier | rfl
  · exact .inl (mem_recorded.mpr ⟨click, earlier, recorded⟩)
  · exact .inr recorded

/-- A recorded decision stays recorded. -/
theorem mem_recorded_of_mem {s : System} {live : LiveRun} {i : ℕ} {click click' : Click}
    {d : Decision} (found : s.clicks[i]? = some click)
    (kept : ∀ d, click.recorded = some d → click'.recorded = some d) (member : d ∈ s.recorded) :
    d ∈ System.recorded ⟨live, s.pc, s.clicks.set i click'⟩ := by
  obtain ⟨c, inClicks, recorded⟩ := mem_recorded.mp member
  obtain ⟨j, here⟩ := List.mem_iff_getElem?.mp inClicks
  have inside : i < s.clicks.length := (List.getElem?_eq_some_iff.mp found).1
  by_cases same : i = j
  · subst same
    cases here.symm.trans found
    refine mem_recorded.mpr ⟨click', ?_, kept d recorded⟩
    exact List.mem_iff_getElem?.mpr ⟨i, by simp [inside]⟩
  · refine mem_recorded.mpr ⟨c, List.mem_iff_getElem?.mpr ⟨j, ?_⟩, recorded⟩
    rw [List.getElem?_set_ne same, here]

/-- The notes that a step of the run thread may add, besides frames. -/
def Pc.Writes (pc : Pc) (note : Note) : Prop :=
  match pc, note with
  | _, .frame _ => True
  | .announce entry, .phase phase => phase = entry.phase
  | .sweep, .clear | .finalClear, .clear | .inject, .inject | .decisionNone _, .lapsed => True
  | .gateExecute _ now, .execute now' => now' = now
  | _, _ => False

/-- What no step of the run thread changes; it adds notes that it may write. -/
structure Framed (writes : Note → Prop) (live live' : LiveRun) : Prop where
  abort : live'.abort = live.abort
  decisionReady : live'.decisionReady = live.decisionReady
  decision : live'.decision = live.decision
  log : ∃ notes, live'.log = live.log ++ notes ∧ ∀ note ∈ notes, writes note

section Framed
variable {writes : Note → Prop}

theorem Framed.refl (live : LiveRun) : Framed writes live live :=
  ⟨rfl, rfl, rfl, [], by simp, by simp⟩

theorem Framed.trans {live live' live'' : LiveRun} (first : Framed writes live live')
    (later : Framed writes live' live'') : Framed writes live live'' := by
  obtain ⟨notes, same, written⟩ := first.log
  obtain ⟨notes', same', written'⟩ := later.log
  refine ⟨later.abort.trans first.abort, later.decisionReady.trans first.decisionReady,
    later.decision.trans first.decision, notes ++ notes', by rw [same', same, List.append_assoc], ?_⟩
  intro note member
  rcases List.mem_append.mp member with here | there
  · exact written note here
  · exact written' note there

theorem framed_noted (live : LiveRun) {note : Note} (written : writes note) :
    Framed writes live (live.noted [note]) :=
  ⟨rfl, rfl, rfl, [note], rfl, by simpa using written⟩

theorem framed_emit (live : LiveRun) {frames : List Frame} (written : ∀ frame, writes (.frame frame)) :
    Framed writes live (live.emit frames) :=
  ⟨rfl, rfl, rfl, frames.map .frame, rfl, by simp [written]⟩

theorem framed_append (live : LiveRun) (e : Event) : Framed writes live (live.append e) :=
  ⟨rfl, rfl, rfl, [], by simp [LiveRun.append], by simp⟩

theorem framed_fail (live : LiveRun) (e : Exn) (written : ∀ frame, writes (.frame frame)) :
    Framed writes live (live.fail e).1 := by
  unfold LiveRun.fail
  split
  · exact .refl live
  · exact framed_emit live written

theorem framed_attempt {α : Type} {live live' : LiveRun} {result : Py α} {next : α → LiveRun × Pc}
    (written : ∀ frame, writes (.frame frame)) (called : Framed writes live live')
    (returned : ∀ a, Framed writes live (next a).1) :
    Framed writes live (live'.attempt result next).1 := by
  cases result with
  | ok a => exact returned a
  | error e => exact called.trans (framed_fail live' e written)

end Framed

theorem Pc.writes_frame (pc : Pc) (frame : Frame) : pc.Writes (.frame frame) := by
  cases pc <;> trivial

theorem fail_phase (live : LiveRun) (e : Exn) : (live.fail e).1.phase = live.phase := by
  unfold LiveRun.fail
  split <;> rfl

theorem attempt_phase {α : Type} {live live' : LiveRun} {result : Py α} {next : α → LiveRun × Pc}
    (called : live'.phase = live.phase) (returned : ∀ a, (next a).1.phase = live.phase) :
    (live'.attempt result next).1.phase = live.phase := by
  cases result with
  | ok a => exact returned a
  | error e => exact (fail_phase live' e).trans called

section
variable [FloatRepr] [Hashlib] {config : Config}

variable (config) in
theorem Pc.next_framed (pc : Pc) (live : LiveRun) (n : ℕ) :
    Framed pc.Writes live (pc.next config live n).1 := by
  have frames := pc.writes_frame
  cases pc with
  | task t =>
    simp only [Pc.next]
    cases t.turn config live n with
    | go _ pc => exact framed_emit live frames
    | raise e => exact framed_fail live e frames
    | aborted => exact .refl live
  | enter entry => exact ⟨rfl, rfl, rfl, [], by simp [Pc.next], by simp⟩
  | announce entry =>
    simp only [Pc.next]
    split
    · have entered : Framed (Pc.announce entry).Writes live (live.noted [.phase entry.phase]) :=
        framed_noted live rfl
      exact entered.trans (framed_emit _ frames)
    · split
      · exact .refl live
      · exact .refl live
      · exact framed_fail live _ frames
  | sweep | inject =>
    exact framed_attempt frames (framed_noted live trivial) fun _ => framed_noted live trivial
  | gateExecute => exact framed_attempt frames (framed_noted live rfl) fun _ => framed_noted live rfl
  | propose | gateExpire | gateMismatch | gateStart | gateResult =>
    exact framed_attempt frames (.refl live) fun _ => framed_append live _
  | post | expire | deny | approve =>
    exact framed_attempt frames (.refl live) fun _ =>
      (framed_append live _).trans (framed_emit _ frames)
  | gateRender | gateDetail => exact framed_attempt frames (.refl live) fun _ => .refl live
  | settle =>
    exact framed_attempt frames (framed_emit live frames) fun _ =>
      (framed_emit live frames).trans (framed_emit _ frames)
  | decisionNone =>
    simp only [Pc.next]
    split
    · exact framed_noted live trivial
    · exact .refl live
  | decisionRead =>
    simp only [Pc.next]
    split
    · exact framed_fail live _ frames
    · split <;> exact .refl live
  | gateCheck =>
    simp only [Pc.next]
    split <;> exact .refl live
  | finalClear =>
    simp only [Pc.next]
    split <;> exact framed_noted live trivial
  | close | ended => exact .refl live

/-- Only the assignment of `_emit_phase` writes the phase. -/
theorem Pc.next_phase (pc : Pc) (live : LiveRun) (n : ℕ) (other : ∀ entry, pc ≠ .enter entry) :
    (pc.next config live n).1.phase = live.phase := by
  cases pc with
  | enter entry => exact absurd rfl (other entry)
  | task t =>
    simp only [Pc.next]
    cases t.turn config live n with
    | go frames pc => rfl
    | raise e => exact fail_phase live e
    | aborted => rfl
  | announce entry =>
    simp only [Pc.next]
    split
    · rfl
    · split
      · rfl
      · rfl
      · exact fail_phase live _
  | decisionNone | gateCheck | finalClear =>
    simp only [Pc.next]
    split <;> rfl
  | decisionRead =>
    simp only [Pc.next]
    split
    · exact fail_phase live _
    · split <;> rfl
  | close | ended => rfl
  | _ => exact attempt_phase rfl fun _ => rfl

/-- A step is one of the run thread, or one of a request thread. -/
theorem step_cases {s s' : System} {l : Party} (step : Step config s l s') :
    (l = .run ∧ s.pc ≠ .ended ∧
      s' = ⟨{ (s.pc.next config s.live s.live.steps).1 with steps := s.live.steps + 1 },
        (s.pc.next config s.live s.live.steps).2, s.clicks⟩) ∨
    ∃ i click live click', l = .click i ∧ s.clicks[i]? = some click ∧
      click.next s.live = some (live, click') ∧ s' = ⟨live, s.pc, s.clicks.set i click'⟩ := by
  cases l with
  | run =>
    left
    simp only [Step, System.next] at step
    split at step
    · cases step
    · rename_i running
      exact ⟨rfl, running, (Option.some.inj step).symm⟩
  | click i =>
    right
    simp only [Step, System.next] at step
    split at step
    · cases step
    · rename_i click found
      obtain ⟨⟨live, click'⟩, taken, rfl⟩ := Option.map_eq_some_iff.mp step
      exact ⟨i, click, live, click', rfl, found, taken, rfl⟩

end

/-- What a step of a request thread does: it answers on the phase it reads,
assigns its decision, signals it, or serves an abort. -/
theorem click_cases {live live' : LiveRun} {click click' : Click}
    (taken : click.next live = some (live', click')) :
    (live' = live ∧ click.recorded = none ∧
      (click' = .refused ∨ ∃ decision, click = .deciding decision ∧ click' = .assigning decision ∧
        live.phase = .awaitingApproval)) ∨
    (∃ decision, click = .assigning decision ∧ click' = .signalling decision ∧
      live' = { live with decision := some decision }.noted [.decided decision]) ∨
    (∃ decision, click = .signalling decision ∧ click' = .accepted decision ∧
      live' = { live with decisionReady := true }.noted [.accepted decision]) ∨
    (click = .aborting ∧ click' = .waking ∧ live' = { live with abort := true }) ∨
    (click = .waking ∧ click' = .aborted ∧ live' = { live with decisionReady := true }) := by
  cases click with
  | deciding decision =>
    simp only [Click.next] at taken
    split at taken
    · cases taken
      exact .inl ⟨rfl, rfl, .inr ⟨decision, rfl, rfl, ‹_›⟩⟩
    · cases taken
      exact .inl ⟨rfl, rfl, .inl rfl⟩
  | assigning decision =>
    cases taken
    exact .inr (.inl ⟨decision, rfl, rfl, rfl⟩)
  | signalling decision =>
    cases taken
    exact .inr (.inr (.inl ⟨decision, rfl, rfl, rfl⟩))
  | aborting =>
    cases taken
    exact .inr (.inr (.inr (.inl ⟨rfl, rfl, rfl⟩)))
  | waking =>
    cases taken
    exact .inr (.inr (.inr (.inr ⟨rfl, rfl, rfl⟩)))
  | accepted | refused | aborted => cases taken

theorem click_recorded {live live' : LiveRun} {click click' : Click}
    (taken : click.next live = some (live', click')) :
    ∀ d, click.recorded = some d → click'.recorded = some d := by
  intro d recorded
  rcases click_cases taken with ⟨-, unrecorded, -⟩ | ⟨_, rfl, -, -⟩ | ⟨_, rfl, rfl, -⟩ |
    ⟨rfl, -, -⟩ | ⟨rfl, -, -⟩
  · rw [unrecorded] at recorded
    cases recorded
  · cases recorded
  · exact recorded
  · cases recorded
  · cases recorded

/-- A request thread leaves the journal, the phase and the run's steps alone. -/
theorem click_frame {live live' : LiveRun} {click click' : Click}
    (taken : click.next live = some (live', click')) :
    live'.journal = live.journal ∧ live'.phase = live.phase ∧ live'.steps = live.steps := by
  rcases click_cases taken with ⟨rfl, -, -⟩ | ⟨_, -, -, rfl⟩ | ⟨_, -, -, rfl⟩ | ⟨-, -, rfl⟩ |
    ⟨-, -, rfl⟩ <;> exact ⟨rfl, rfl, rfl⟩

/-! ### A sample lab -/

/-- It takes the metric from 90 to 20. -/
def calmExecutor : Executor :=
  { dryRunExecutor 0 with execute _ := .ok ⟨true, .ofOption (some 90), .ofOption (some 20), 5, ""⟩ }

/-- No call fails, and each step takes a hundred seconds. -/
def calmDeps : Deps where
  daemonUp _ := .ok true
  appServices _ := .ok [⟨"orders", "running"⟩]
  labUp _ := .ok ()
  ingestAgeS _ := .ok (some 10)
  inject _ := .ok ()
  clear _ := .ok ()
  healthNow _ := .ok (some 1)
  storeFactory _ := .ok ()
  runRca _ := .ok ⟨some "orders", [("fault_type", .str "cpu")]⟩
  executorFactory _ := .ok ()
  executor _ := calmExecutor
  clock n := .ok (n * 100)
  sleep _ := .ok ()
  uuid4 _ _ := "a1"
  env _ := some "set"
  approvalTtlS := 3600

def calmConfig : Config where
  runId := "r1"
  scenario := ⟨"orders", ["orders"], "cpu", some 50, none⟩
  preset := .proven
  deps := calmDeps

end Sentinel.LiveLab
