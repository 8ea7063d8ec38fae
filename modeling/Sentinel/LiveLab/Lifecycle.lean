import Sentinel.LiveLab.Course
import Sentinel.LiveLab.Desk
import Sentinel.Python.JsonProofs

/-! The lifecycle of a live run and its fault hygiene. Under a clock that reads, the
phases follow the documented order into one terminal phase, the injected fault is
always swept, and the remediation runs at most once, in time and by an approval. -/
namespace Sentinel.LiveLab
open Python Actions Transition

/-- What has to be followed by a `clear()`. -/
def Note.needsClear : Note → Bool
  | .inject => true
  | .phase p => p.terminal
  | _ => false

def Note.isExecute : Note → Bool
  | .execute _ => true
  | _ => false

/-- The lab is cleared after every injection and after the terminal phase. -/
def Swept (milestones : List Note) : Prop :=
  ∀ earlier note later, milestones = earlier ++ note :: later → note.needsClear = true →
    .clear ∈ later

/-- The clock reading is not past the expiry in the journal's one proposal. -/
def InTime (journal : Journal) (now : ℚ) : Prop :=
  ∃ action expires, (⟨action.id, .proposed action (some expires)⟩ : Event) ∈ journal ∧
    (∀ e ∈ journal, e.kind = .proposed → e = ⟨action.id, .proposed action (some expires)⟩) ∧
    now ≤ expires

/-- An approval of a call that answers True is recorded in these notes. -/
def ApprovalRecorded (s : System) (notes : List Note) : Prop :=
  ∃ d ∈ s.recorded, d.verb = .approved ∧ .decided d ∈ notes

structure Lifecycle (config : Config) (s : System) : Prop where
  phases : ∃ k ending, s.live.phases = phaseOrder.take k ++ ending ∧
    (ending = [] ∨ ∃ p, p.terminal = true ∧ ending = [p])
  finished : s.pc = .ended → config.deps.Tame →
    ∃ k p, p.terminal = true ∧ s.live.phases = phaseOrder.take k ++ [p]
  swept : s.pc = .ended → Swept s.live.milestones
  once : s.live.milestones.countP Note.isExecute ≤ 1
  executed : ∀ earlier now later, s.live.milestones = earlier ++ .execute now :: later →
    ApprovalRecorded s earlier ∧ InTime s.live.journal now

/-! ### Sweeping -/

theorem split_append {α : Type} {list extra earlier later : List α} {a : α}
    (split : list ++ extra = earlier ++ a :: later) :
    (∃ middle, later = middle ++ extra ∧ list = earlier ++ a :: middle) ∨
      ∃ front, earlier = list ++ front ∧ extra = front ++ a :: later := by
  rcases List.append_eq_append_iff.mp split with ⟨front, rfl, rest⟩ | ⟨tail, rfl, rest⟩
  · exact .inr ⟨front, rfl, rest⟩
  · cases tail with
    | nil => exact .inr ⟨[], by simp, by simpa using rest.symm⟩
    | cons b middle =>
      obtain ⟨rfl, rfl⟩ := List.cons.inj rest
      exact .inl ⟨middle, rfl, rfl⟩

theorem Swept.append {milestones extra : List Note} (swept : Swept milestones)
    (quiet : ∀ note ∈ extra, note.needsClear = false) : Swept (milestones ++ extra) := by
  intro earlier note later split needs
  rcases split_append split with ⟨middle, rfl, same⟩ | ⟨front, -, rfl⟩
  · exact List.mem_append_left _ (swept earlier note middle same needs)
  · have := quiet note (by simp)
    rw [needs] at this
    cases this

theorem swept_clear (milestones : List Note) : Swept (milestones ++ [.clear]) := by
  intro earlier note later split needs
  rcases split_append split with ⟨middle, rfl, -⟩ | ⟨front, -, same⟩
  · simp
  · have member : note ∈ [Note.clear] := by simp [same]
    cases List.mem_singleton.mp member
    cases needs

/-! ### The desk and the execution -/

/-- The executor may have been called. -/
def Desk.isExecuted : Desk → Bool
  | .executed _ | .closed | .gone => true
  | _ => false

/-- An approval was read. -/
def Desk.isApproved : Desk → Bool
  | .approving .. | .approved _ | .expiring _ | .mismatched _ | .cleared .. | .executing .. => true
  | _ => false

section
variable [FloatRepr] [Hashlib] {live : LiveRun} {why : Prop} {desk desk' : Desk} {events : Journal}

theorem DeskStep.executed (step : DeskStep live why desk desk' events)
    (executed : desk.isExecuted = true) :
    desk'.isExecuted = true ∧ ∀ e ∈ events, e.kind ≠ .proposed := by
  cases step with
  | stay => exact ⟨executed, by simp⟩
  | cut => exact ⟨rfl, by simp⟩
  | result => exact ⟨rfl, by simp [resultEvent, Event.kind, EventBody.kind]⟩
  | _ => cases executed

theorem DeskStep.of_executing {action : SuggestedAction} {now : ℚ}
    (step : DeskStep live why (.executing action now) desk' events) : events = [] := by
  cases step <;> rfl

theorem DeskStep.approved_of (step : DeskStep live why desk desk' events)
    (approved : desk'.isApproved = true) :
    desk.isApproved = true ∨ ∃ approver reason, live.decision = some ⟨.approved, approver, reason⟩ := by
  cases step with
  | stay => exact .inl approved
  | approve action approver reason decided => exact .inr ⟨approver, reason, decided⟩
  | cut | draft | propose | post | lapse | take | deny | expired | denied | refuse
  | lateExpired | mismatched | execute | result => cases approved
  | _ => exact .inl rfl

omit [FloatRepr] [Hashlib] in
theorem InTime.append {journal : Journal} {now : ℚ} (inTime : InTime journal now)
    (unproposed : ∀ e ∈ events, e.kind ≠ .proposed) : InTime (journal ++ events) now := by
  obtain ⟨action, expires, member, only, bound⟩ := inTime
  refine ⟨action, expires, List.mem_append_left _ member, ?_, bound⟩
  intro e inJournal proposed
  rcases List.mem_append.mp inJournal with earlier | later
  · exact only e earlier proposed
  · exact absurd proposed (unproposed e later)

omit [FloatRepr] [Hashlib] in
theorem writes_execute {pc : Pc} {now : ℚ} (written : .execute now ∈ pc.writes live) :
    ∃ action, pc = .gateExecute action now := by
  cases pc with
  | gateExecute action now' =>
    cases List.mem_singleton.mp written
    exact ⟨action, rfl⟩
  | decisionNone =>
    simp only [Pc.writes] at written
    split at written <;> simp at written
  | _ => simp [Pc.writes] at written

omit [FloatRepr] [Hashlib] in
theorem writes_of_swept {pc : Pc} (swept : pc.course = .swept) : pc.writes live = [] := by
  cases pc with
  | task | sweep | inject | gateExecute | finalClear | decisionNone => cases swept
  | announce entry => cases entry <;> cases swept
  | _ => rfl

omit [FloatRepr] [Hashlib] in
theorem finalClear_of_course {pc : Pc} (finished : pc.course = .finished) : pc = .finalClear := by
  cases pc with
  | finalClear => rfl
  | enter entry | announce entry => cases entry <;> cases finished
  | _ => cases finished

theorem gateExecute_executed (config : Config) (live : LiveRun) (n : ℕ) (action : SuggestedAction)
    (now : ℚ) : ((Pc.gateExecute action now).next config live n).2.desk.isExecuted = true := by
  simp only [Pc.next, LiveRun.attempt]
  split
  · rfl
  · rw [fail_desk]
    rfl

end

/-! ### The invariant -/

section
variable [FloatRepr] [Hashlib] {config : Config}

/-- What every state of a run satisfies. -/
structure Travelled (config : Config) (s : System) : Prop where
  course : s.pc.course.Holds config.deps.Tame s.live.phases
  desk : s.pc.desk.Holds s.live.journal
  swept : s.pc.course = .swept → Swept s.live.milestones
  unexecuted : s.pc.desk.isExecuted = false → ∀ now, .execute now ∉ s.live.milestones
  once : s.live.milestones.countP Note.isExecute ≤ 1
  decided : ∀ d, s.live.decision = some d → d ∈ s.recorded ∧ .decided d ∈ s.live.milestones
  approved : s.pc.desk.isApproved = true → ApprovalRecorded s s.live.milestones
  executed : ∀ earlier now later, s.live.milestones = earlier ++ .execute now :: later →
    ApprovalRecorded s earlier ∧ InTime s.live.journal now

omit [FloatRepr] [Hashlib] in
theorem ApprovalRecorded.mono {s s' : System} {notes notes' : List Note}
    (approval : ApprovalRecorded s notes) (recorded : ∀ d ∈ s.recorded, d ∈ s'.recorded)
    (written : ∀ note ∈ notes, note ∈ notes') : ApprovalRecorded s' notes' := by
  obtain ⟨d, member, verb, decided⟩ := approval
  exact ⟨d, recorded d member, verb, written _ decided⟩

theorem travelled_start (clicks : List Click) : Travelled config (.start clicks) := by
  refine ⟨rfl, ?_, ?_, ?_, ?_, ?_, ?_, ?_⟩ <;>
    simp [System.start, Pc.desk, Entry.desk, Desk.Holds, Unproposed, Desk.isApproved, LiveRun.milestones,
      Pc.course, Entry.course]

section Run
variable {s : System} {pc : Pc} {live live' : LiveRun}

omit [FloatRepr] [Hashlib] in
theorem once_run (written : live'.milestones = live.milestones ++ pc.writes live)
    (unexecuted : pc.desk.isExecuted = false → ∀ now, .execute now ∉ live.milestones)
    (once : live.milestones.countP Note.isExecute ≤ 1) :
    live'.milestones.countP Note.isExecute ≤ 1 := by
  rw [written, List.countP_append]
  by_cases executing : ∃ now, .execute now ∈ pc.writes live
  · obtain ⟨now, member⟩ := executing
    obtain ⟨action, rfl⟩ := writes_execute member
    have none : live.milestones.countP Note.isExecute = 0 := by
      refine List.countP_eq_zero.mpr fun note inLog => ?_
      cases note with
      | execute now' => exact absurd inLog (unexecuted rfl now')
      | _ => simp [Note.isExecute]
    rw [none]
    exact Nat.le_refl 1
  · have none : (pc.writes live).countP Note.isExecute = 0 := by
      refine List.countP_eq_zero.mpr fun note inWrites => ?_
      cases note with
      | execute now => exact absurd ⟨now, inWrites⟩ executing
      | _ => simp [Note.isExecute]
    rw [none]
    exact once

theorem travelled_run (inv : Travelled config s)
    (clocked : Returns (config.deps.clock s.live.steps)) :
    Travelled config ⟨{ (s.pc.next config s.live s.live.steps).1 with steps := s.live.steps + 1 },
      (s.pc.next config s.live s.live.steps).2, s.clicks⟩ := by
  obtain ⟨events, journal, moved⟩ :=
    s.pc.next_desk config s.live s.live.steps
  have course := s.pc.next_course s.live s.live.steps clocked
  have framed := s.pc.next_framed config s.live s.live.steps
  have written := s.pc.next_milestones s.live s.live.steps clocked
  have old : ∀ note ∈ s.live.milestones,
      note ∈ (s.pc.next config s.live s.live.steps).1.milestones := by
    rw [written]
    exact fun _ => List.mem_append_left _
  refine ⟨?_, by rw [journal]; exact moved.holds inv.desk, ?_, ?_,
    once_run written inv.unexecuted inv.once, ?_, ?_, ?_⟩
  · have phases : (s.pc.next config s.live s.live.steps).1.phases =
        s.live.phases ++ s.pc.announces := by
      rw [LiveRun.phases, written, List.filterMap_append, Pc.writes_phases]
      rfl
    have holds := course.holds inv.course
    rw [← phases] at holds
    exact holds
  · intro swept
    show Swept (s.pc.next config s.live s.live.steps).1.milestones
    rw [written]
    rcases course.to_swept swept with before | finished
    · rw [writes_of_swept before, List.append_nil]
      exact inv.swept before
    · rw [finalClear_of_course finished]
      exact swept_clear _
  · intro unexecuted now member
    have either : .execute now ∈ s.live.milestones ++ s.pc.writes s.live := by
      rw [← written]
      exact member
    rcases List.mem_append.mp either with earlier | here
    · cases before : s.pc.desk.isExecuted with
      | false => exact inv.unexecuted before now earlier
      | true =>
        rw [(moved.executed before).1] at unexecuted
        cases unexecuted
    · obtain ⟨action, same⟩ := writes_execute here
      rw [same, gateExecute_executed] at unexecuted
      cases unexecuted
  · intro d decided
    rw [framed.decision] at decided
    obtain ⟨recorded, member⟩ := inv.decided d decided
    exact ⟨recorded, old _ member⟩
  · intro approved
    rcases moved.approved_of approved with before | ⟨approver, reason, decided⟩
    · exact (inv.approved before).mono (fun _ => id) old
    · obtain ⟨recorded, member⟩ := inv.decided _ decided
      exact ⟨_, recorded, rfl, old _ member⟩
  · intro earlier now later split
    rcases split_append (written.symm.trans split) with ⟨middle, -, same⟩ | ⟨front, rfl, here⟩
    · obtain ⟨approval, inTime⟩ := inv.executed earlier now middle same
      have executed : s.pc.desk.isExecuted = true := by
        cases before : s.pc.desk.isExecuted with
        | true => rfl
        | false => exact absurd (by simp [same]) (inv.unexecuted before now)
      refine ⟨approval, ?_⟩
      rw [journal]
      exact inTime.append (moved.executed executed).2
    · have inWrites : .execute now ∈ s.pc.writes s.live := by simp [here]
      obtain ⟨action, same⟩ := writes_execute inWrites
      have desk : s.pc.desk = .executing action now := by rw [same]; rfl
      obtain rfl := (desk ▸ moved).of_executing
      obtain ⟨expires, ledger, bound⟩ := desk ▸ inv.desk
      refine ⟨(inv.approved (by rw [same]; rfl)).mono (fun _ => id) (by simp +contextual), ?_⟩
      rw [journal]
      exact InTime.append ⟨action, expires, ledger.proposed, ledger.only, bound⟩ (by simp)

end Run

omit [FloatRepr] [Hashlib] in
/-- A request thread notes nothing but decisions, and a decision that it leaves is
its own or an earlier one. -/
theorem click_milestones {live live' : LiveRun} {click click' : Click}
    (taken : click.next live = some (live', click')) :
    (∃ extra, live'.milestones = live.milestones ++ extra ∧
      ∀ note ∈ extra, ∃ d, note = .decided d ∨ note = .accepted d) ∧
    ∀ d, live'.decision = some d →
      live.decision = some d ∨ (click'.recorded = some d ∧ .decided d ∈ live'.milestones) := by
  rcases click_cases taken with ⟨rfl, -, -⟩ | ⟨d, -, rfl, rfl⟩ | ⟨d, -, -, rfl⟩ | ⟨-, -, rfl⟩ |
    ⟨-, -, rfl⟩
  · exact ⟨⟨[], by simp, by simp⟩, fun d => .inl⟩
  · refine ⟨⟨[.decided d], milestones_noted _ _, by simp⟩, ?_⟩
    rintro _ ⟨⟩
    exact .inr ⟨rfl, by simp [Note.isFrame]⟩
  · exact ⟨⟨[.accepted d], milestones_noted _ _, by simp⟩, fun d => .inl⟩
  · exact ⟨⟨[], by simp [LiveRun.milestones], by simp⟩, fun d => .inl⟩
  · exact ⟨⟨[], by simp [LiveRun.milestones], by simp⟩, fun d => .inl⟩

theorem travelled_click {s : System} (inv : Travelled config s) {i : ℕ} {click click' : Click}
    {live : LiveRun} (found : s.clicks[i]? = some click)
    (taken : click.next s.live = some (live, click')) :
    Travelled config ⟨live, s.pc, s.clicks.set i click'⟩ := by
  obtain ⟨⟨extra, written, answers⟩, decision⟩ := click_milestones taken
  obtain ⟨journal, -, -⟩ := click_frame taken
  have recorded : ∀ d ∈ s.recorded, d ∈ System.recorded ⟨live, s.pc, s.clicks.set i click'⟩ :=
    fun d member => mem_recorded_of_mem found (click_recorded taken) member
  have old : ∀ note ∈ s.live.milestones, note ∈ live.milestones := by
    rw [written]
    exact fun _ => List.mem_append_left _
  have executions : ∀ now, .execute now ∉ extra := by
    intro now member
    obtain ⟨d, same | same⟩ := answers _ member <;> cases same
  have phases : live.phases = s.live.phases := by
    have none : extra.filterMap Note.phase? = [] := by
      refine List.filterMap_eq_nil_iff.mpr fun note member => ?_
      obtain ⟨d, rfl | rfl⟩ := answers note member <;> rfl
    rw [LiveRun.phases, written, List.filterMap_append, none, List.append_nil]
    rfl
  refine ⟨by rw [phases]; exact inv.course, by rw [journal]; exact inv.desk, ?_, ?_, ?_, ?_, ?_, ?_⟩
  · intro swept
    show Swept live.milestones
    rw [written]
    refine (inv.swept swept).append fun note member => ?_
    obtain ⟨d, rfl | rfl⟩ := answers note member <;> rfl
  · intro unexecuted now
    rw [written]
    exact List.not_mem_append (inv.unexecuted unexecuted now) (executions now)
  · have none : extra.countP Note.isExecute = 0 := by
      refine List.countP_eq_zero.mpr fun note member => ?_
      obtain ⟨d, rfl | rfl⟩ := answers note member <;> simp [Note.isExecute]
    rw [written, List.countP_append, none]
    exact inv.once
  · intro d decided
    rcases decision d decided with before | ⟨now, member⟩
    · obtain ⟨earlier, member⟩ := inv.decided d before
      exact ⟨recorded d earlier, old _ member⟩
    · have inside : i < s.clicks.length := (List.getElem?_eq_some_iff.mp found).1
      exact ⟨mem_recorded.mpr ⟨click', List.mem_set inside click', now⟩, member⟩
  · exact fun approved => (inv.approved approved).mono recorded old
  · intro earlier now later split
    rcases split_append (written.symm.trans split) with ⟨middle, -, same⟩ | ⟨front, -, here⟩
    · obtain ⟨approval, inTime⟩ := inv.executed earlier now middle same
      refine ⟨approval.mono recorded fun _ => id, ?_⟩
      rw [journal]
      exact inTime
    · exact absurd (by simp [here]) (executions now)

theorem travelled_step (clocked : ∀ n, Returns (config.deps.clock n)) {s s' : System} {l : Party}
    (inv : Travelled config s) (step : Step config s l s') : Travelled config s' := by
  rcases step_cases step with ⟨rfl, -, rfl⟩ | ⟨i, click, live, click', rfl, found, taken, rfl⟩
  · exact travelled_run inv (clocked _)
  · exact travelled_click inv found taken

theorem Travelled.lifecycle {s : System} (inv : Travelled config s) : Lifecycle config s := by
  refine ⟨?_, ?_, fun ended => inv.swept (by rw [ended]; rfl), inv.once, inv.executed⟩
  · have holds := inv.course
    cases here : s.pc.course with
    | running k =>
      rw [here] at holds
      exact ⟨k, [], by rw [List.append_nil]; exact holds, .inl rfl⟩
    | ending =>
      rw [here] at holds
      obtain ⟨k, same⟩ := holds
      exact ⟨k, [], by rw [List.append_nil]; exact same, .inl rfl⟩
    | finished | swept =>
      rw [here] at holds
      rcases holds with ⟨k, p, terminal, same⟩ | ⟨-, k, same⟩
      · exact ⟨k, [p], same, .inr ⟨p, terminal, rfl⟩⟩
      · exact ⟨k, [], by rw [List.append_nil]; exact same, .inl rfl⟩
  · intro ended tame
    have holds := inv.course
    rw [ended] at holds
    exact holds.resolve_right fun wild => wild.1 tame

/-- Every run under a clock that reads keeps its lifecycle. -/
theorem run_lifecycle {clicks : List Click} {ls : List Party} {s : System}
    (clocked : ∀ n, Returns (config.deps.clock n))
    (run : Transition.Run (Step config) (.start clicks) ls s) : Lifecycle config s :=
  (run.invariant (Travelled config) (fun _ _ _ inv step => travelled_step clocked inv step)
    (travelled_start clicks)).lifecycle

end

section Sample
attribute [local instance] fractionRepr pinnedHashlib

theorem run_lifecycle_approval :
    ∃ s : System, s.live.milestones.countP Note.isExecute = 1 ∧ Lifecycle calmConfig s := by
  obtain ⟨s, run, reached⟩ := exists_run
    (fun _ _ _ => trivial : ∀ _ _, true = true → True)
    (by decide +kernel : (play (System.next calmConfig) (fun _ _ => true)
      (List.replicate 48 .run ++ List.replicate 3 (.click 0) ++ List.replicate 23 .run)
      (.start [.approve "dana"])).any (fun s =>
        s.live.milestones.countP Note.isExecute == 1) = true)
  exact ⟨s, of_decide_eq_true reached, run_lifecycle (fun n => returns_ok _) run.unguarded⟩

/-- `run_rca` raises SystemExit, which no handler of `_run` catches. -/
def exitingConfig : Config :=
  { calmConfig with deps := { calmDeps with runRca _ := .error ⟨"SystemExit", "1", true⟩ } }

def Pc.isEnded : Pc → Bool
  | .ended => true
  | _ => false

theorem exit_leaves_no_terminal_phase :
    ∃ s, Transition.Run (Step exitingConfig) (.start []) (List.replicate 41 .run) s ∧
      s.pc = .ended ∧ ¬ ∃ k p, p.terminal = true ∧ s.live.phases = phaseOrder.take k ++ [p] := by
  obtain ⟨s, run, reached⟩ := exists_run
    (fun _ _ _ => trivial : ∀ _ _, true = true → True)
    (by decide +kernel : (play (System.next exitingConfig) (fun _ _ => true)
      (List.replicate 41 .run) (.start [])).any (fun s =>
        s.pc.isEnded && s.live.phases.all fun p => !p.terminal) = true)
  rw [Bool.and_eq_true] at reached
  obtain ⟨ended, unfinished⟩ := reached
  refine ⟨s, run.unguarded, ?_, ?_⟩
  · cases here : s.pc with
    | ended => rfl
    | _ =>
      rw [here] at ended
      cases ended
  · rintro ⟨k, p, terminal, same⟩
    simp [same, terminal] at unfinished

end Sample

end Sentinel.LiveLab
