import Sentinel.LiveLab.Desk
import Sentinel.LiveLab.MachineProofs
import Sentinel.Python.JsonProofs

/-! Acknowledged decisions. A call that answered True is honoured in every run in
which no call contradicts a recorded decision, the first decision is recorded
before the run thread tests for one, and nothing interrupts the run thread
between then and the journal record. -/
namespace Sentinel.LiveLab
open Python Actions Transition

/-- The two decisions would leave the same record. -/
def Decision.Agrees (d d' : Decision) : Prop := d.verb = d'.verb ∧ d.approver = d'.approver

instance (d d' : Decision) : Decidable (d.Agrees d') := inferInstanceAs (Decidable (_ ∧ _))

theorem Decision.Agrees.symm {d d' : Decision} (agrees : d.Agrees d') : d'.Agrees d :=
  ⟨agrees.1.symm, agrees.2.symm⟩

theorem Decision.Agrees.trans {d d' d'' : Decision} (agrees : d.Agrees d')
    (agrees' : d'.Agrees d'') : d.Agrees d'' :=
  ⟨agrees.1.trans agrees'.1, agrees.2.trans agrees'.2⟩

/-- The journal has the event of the decision, for the proposed action and in the
name of its approver. -/
def Answered (journal : Journal) (d : Decision) : Prop :=
  ∃ action expires, (⟨action.id, .proposed action expires⟩ : Event) ∈ journal ∧
    match d.verb with
    | .approved => ⟨action.id, .approved d.approver "dashboard"⟩ ∈ journal
    | .denied => ∃ reason, ⟨action.id, .denied d.approver reason⟩ ∈ journal

/-- What a call that returned True promises. -/
structure Honoured (s : System) : Prop where
  journalled : s.pc = .ended → ∀ d, .accepted d ∈ s.clicks → Answered s.live.journal d
  oneVerb : ∀ d d', .accepted d ∈ s.clicks → .accepted d' ∈ s.clicks → d.verb = d'.verb
  beforeLapse : ∀ earlier later, s.live.log = earlier ++ .lapsed :: later →
    ∀ d, .accepted d ∉ later

/-- A decision is wanted or was read, and is not journalled yet. -/
def Desk.isPending : Desk → Bool
  | .awaiting _ | .taking _ | .denying .. | .approving .. => true
  | _ => false

def Desk.isAwaiting : Desk → Bool
  | .awaiting _ => true
  | _ => false

/-- A decision may be assigned. -/
def Click.InTime (s : System) : Click → Prop
  | .assigning d =>
    (∀ d' ∈ s.recorded, d'.Agrees d) ∧ (s.recorded ≠ [] ∨ s.pc.desk.isAwaiting = true)
  | _ => True

instance (s : System) (click : Click) : Decidable (click.InTime s) :=
  match click with
  | .assigning _ => inferInstanceAs (Decidable (_ ∧ _))
  | .deciding _ | .signalling _ | .aborting | .waking | .accepted _ | .refused | .aborted =>
    inferInstanceAs (Decidable True)

/-- The condition on a step. -/
def Timely (config : Config) (s : System) : Party → Prop
  | .run => s.recorded ≠ [] → s.pc.desk.isPending = true →
      s.pc.failure config s.live.steps = none ∧ (s.pc.checksAbort = true → s.live.abort = false)
  | .click i => ∀ click ∈ s.clicks[i]?, click.InTime s

instance (config : Config) (s : System) (l : Party) : Decidable (Timely config s l) :=
  match l with
  | .run => inferInstanceAs (Decidable (_ → _ → _ ∧ _))
  | .click _ => inferInstanceAs (Decidable (∀ _ ∈ _, _))

section
variable [FloatRepr] [Hashlib] {config : Config}

omit [FloatRepr] [Hashlib] in
/-- How a recorded decision is kept until the journal has it. -/
def Desk.Keeps (live : LiveRun) (d : Decision) : Desk → Prop
  | .before | .drafted _ | .proposed _ | .lapsing _ => False
  | .awaiting _ | .taking _ => ∃ current, live.decision = some current ∧ current.Agrees d
  | .denying _ approver _ => d.verb = .denied ∧ d.approver = approver
  | .approving _ approver => d.verb = .approved ∧ d.approver = approver
  | _ => Answered live.journal d

omit [FloatRepr] [Hashlib] in
theorem Answered.append {journal : Journal} {d : Decision} (answered : Answered journal d)
    (later : Journal) : Answered (journal ++ later) d := by
  obtain ⟨action, expires, proposed, recorded⟩ := answered
  refine ⟨action, expires, List.mem_append_left _ proposed, ?_⟩
  cases verb : d.verb with
  | approved =>
    rw [verb] at recorded
    exact List.mem_append_left _ recorded
  | denied =>
    rw [verb] at recorded
    obtain ⟨reason, member⟩ := recorded
    exact ⟨reason, List.mem_append_left _ member⟩

omit [FloatRepr] [Hashlib] in
theorem Answered.of_agrees {journal : Journal} {d d' : Decision} (answered : Answered journal d)
    (agrees : d.Agrees d') : Answered journal d' := by
  obtain ⟨action, expires, proposed, recorded⟩ := answered
  obtain ⟨verb, approver⟩ := agrees
  exact ⟨action, expires, proposed, by rw [← verb, ← approver]; exact recorded⟩

/-- A move of the desk keeps a recorded decision, unless it is interrupted. -/
theorem DeskStep.keeps {live live' : LiveRun} {why : Prop} {desk desk' : Desk} {events : Journal}
    {d : Decision} (step : DeskStep live why desk desk' events) (holds : desk.Holds live.journal)
    (kept : desk.Keeps live d) (going : desk.isPending = true → ¬ why)
    (journal : live'.journal = live.journal ++ events) (decision : live'.decision = live.decision) :
    desk'.Keeps live' d := by
  have mono : Answered live.journal d → Answered live'.journal d := by
    rw [journal]
    exact fun answered => answered.append events
  cases step with
  | stay =>
    cases desk with
    | awaiting | taking =>
      simp only [Desk.Keeps, decision]
      exact kept
    | denying | approving => exact kept
    | before | drafted | proposed | lapsing => exact kept.elim
    | _ => exact mono kept
  | cut interrupted =>
    cases desk with
    | awaiting | taking | denying | approving => exact absurd (interrupted rfl) (going rfl)
    | before | drafted | proposed | lapsing => exact kept.elim
    | _ => exact mono kept
  | draft | propose | post | expired => exact kept.elim
  | lapse action undecided =>
    obtain ⟨current, decided, -⟩ := kept
    rw [undecided] at decided
    cases decided
  | take action =>
    simp only [Desk.Keeps, decision]
    exact kept
  | deny action approver reason decided =>
    obtain ⟨current, same, verb, named⟩ := kept
    rw [decided] at same
    cases same
    exact ⟨verb.symm, named.symm⟩
  | approve action approver reason decided =>
    obtain ⟨current, same, verb, named⟩ := kept
    rw [decided] at same
    cases same
    exact ⟨verb.symm, named.symm⟩
  | denied action approver reason =>
    obtain ⟨-, expires, ledger⟩ := holds
    refine ⟨action, some expires, ?_, ?_⟩
    · rw [journal]
      exact List.mem_append_left _ ledger.proposed
    · rw [kept.1, kept.2, journal]
      exact ⟨reason, by simp⟩
  | approved action approver =>
    obtain ⟨-, expires, ledger⟩ := holds
    refine ⟨action, some expires, ?_, ?_⟩
    · rw [journal]
      exact List.mem_append_left _ ledger.proposed
    · rw [kept.1, kept.2, journal]
      simp
  | _ => exact mono kept

/-- Nobody returned True after the branch that takes no decision. -/
def Ordered (log : List Note) : Prop :=
  ∀ earlier later, log = earlier ++ .lapsed :: later → ∀ d, .accepted d ∉ later

omit [FloatRepr] [Hashlib] in
theorem Ordered.append {log notes : List Note} (ordered : Ordered log)
    (quiet : (∀ d, .accepted d ∉ notes) ∨ (.lapsed ∉ log ∧ .lapsed ∉ notes)) :
    Ordered (log ++ notes) := by
  intro earlier later split d member
  have inLog : .lapsed ∈ log ++ notes := by simp [split]
  rcases quiet with silent | ⟨never, nowhere⟩
  · rcases List.append_eq_append_iff.mp split with ⟨c, rfl, rest⟩ | ⟨a, rfl, rest⟩
    · exact silent d (by simp [rest, member])
    · cases a with
      | nil => exact silent d (by rw [List.nil_append] at rest; simp [← rest, member])
      | cons note a =>
        obtain ⟨rfl, rfl⟩ := List.cons.inj rest
        rcases List.mem_append.mp member with inner | last
        · exact ordered earlier a rfl d inner
        · exact silent d last
  · rcases List.mem_append.mp inLog with here | there
    · exact never here
    · exact nowhere there

/-- No decision is read any more. -/
def Desk.isPast : Desk → Bool
  | .lapsing _ | .closed | .gone => true
  | _ => false

omit [FloatRepr] [Hashlib] in
theorem Desk.past_of_awaiting {desk : Desk} (awaiting : desk.isAwaiting = true) :
    desk.isPast = false := by
  cases desk <;> first | rfl | cases awaiting

theorem DeskStep.past {live : LiveRun} {why : Prop} {desk desk' : Desk} {events : Journal}
    (step : DeskStep live why desk desk' events) (past : desk.isPast = true) :
    desk'.isPast = true := by
  cases step <;> first | exact past | rfl

/-- What every state of a timely run satisfies. -/
structure Keeping (s : System) : Prop where
  holds : s.pc.desk.Holds s.live.journal
  agree : ∀ d ∈ s.recorded, ∀ d' ∈ s.recorded, d.Agrees d'
  kept : ∀ d ∈ s.recorded, s.pc.desk.Keeps s.live d
  lapsed : .lapsed ∈ s.live.log → s.recorded = [] ∧ s.pc.desk.isPast = true
  ordered : Ordered s.live.log

omit [FloatRepr] [Hashlib] in
theorem recorded_start {clicks : List Click} (called : ∀ c ∈ clicks, c.called = true) :
    (System.start clicks).recorded = [] := by
  refine List.filterMap_eq_nil_iff.mpr fun click member => ?_
  have := called click member
  cases click <;> first | rfl | cases this

theorem keeping_start {clicks : List Click} (called : ∀ c ∈ clicks, c.called = true) :
    Keeping (.start clicks) := by
  have unrecorded := recorded_start called
  refine ⟨by simp [System.start, Desk.Holds, Pc.desk, Entry.desk, Unproposed], ?_, ?_, ?_, ?_⟩
  · simp [unrecorded]
  · simp [unrecorded]
  · simp [System.start]
  · intro earlier later split
    simp [System.start] at split

omit [FloatRepr] [Hashlib] in
theorem writes_lapsed {pc : Pc} (written : pc.Writes .lapsed) :
    ∃ action, pc = .decisionNone action := by
  cases pc <;> simp_all [Pc.Writes]

theorem keeping_run {s : System} (inv : Keeping s) (timely : Timely config s .run) :
    Keeping ⟨{ (s.pc.next config s.live s.live.steps).1 with steps := s.live.steps + 1 },
      (s.pc.next config s.live s.live.steps).2, s.clicks⟩ := by
  obtain ⟨events, journal, moved⟩ := s.pc.next_desk config s.live s.live.steps
  have framed := s.pc.next_framed config s.live s.live.steps
  have going : s.recorded ≠ [] → s.pc.desk.isPending = true →
      ¬ s.pc.Interrupted config s.live s.live.steps (s.pc.next config s.live s.live.steps).2 := by
    intro recorded pending interrupted
    obtain ⟨unfailing, heard⟩ := timely recorded pending
    rcases interrupted with ⟨e, fails, -⟩ | ⟨action, here, aborted⟩ | ⟨action, here, undecided⟩
    · rw [unfailing] at fails
      cases fails
    · rw [heard (by rw [here]; rfl)] at aborted
      cases aborted
    · obtain ⟨d, member⟩ := List.exists_mem_of_ne_nil _ recorded
      have kept := inv.kept d member
      rw [here] at kept
      obtain ⟨current, decided, -⟩ := kept
      rw [undecided] at decided
      cases decided
  obtain ⟨notes, log, written⟩ := framed.log
  have silent : ∀ d, .accepted d ∉ notes := by
    intro d member
    have := written _ member
    cases s.pc <;> simp [Pc.Writes] at this
  refine ⟨by rw [journal]; exact moved.holds inv.holds, inv.agree, ?_, ?_, ?_⟩
  · intro d recorded
    exact moved.keeps inv.holds (inv.kept d recorded) (going (List.ne_nil_of_mem recorded)) journal
      framed.decision
  · intro lapsed
    rw [log] at lapsed
    rcases List.mem_append.mp lapsed with earlier | now
    · obtain ⟨none, past⟩ := inv.lapsed earlier
      exact ⟨none, moved.past past⟩
    · obtain ⟨action, here⟩ := writes_lapsed (written _ now)
      rw [here] at log ⊢
      cases decided : s.live.decision with
      | some d =>
        simp only [Pc.next, decided, List.self_eq_append_right] at log
        simp [log] at now
      | none =>
        refine ⟨List.eq_nil_iff_forall_not_mem.mpr fun d recorded => ?_,
          by simp [Pc.next, decided, Pc.desk, Desk.isPast]⟩
        have kept := inv.kept d recorded
        rw [here] at kept
        obtain ⟨current, same, -⟩ := kept
        rw [decided] at same
        cases same
  · rw [log]
    exact inv.ordered.append (.inl silent)

omit [FloatRepr] [Hashlib] in
/-- What keeps a decision and leaves the desk alone keeps it. -/
theorem Desk.Keeps.frame {live live' : LiveRun} {desk : Desk} {d : Decision}
    (kept : desk.Keeps live d) (journal : live'.journal = live.journal)
    (decision : live'.decision = live.decision) : desk.Keeps live' d := by
  cases desk <;> simp_all [Desk.Keeps]

omit [FloatRepr] [Hashlib] in
/-- A decision may be assigned over one that leaves the same record. -/
theorem Desk.Keeps.assigned {live live' : LiveRun} {desk : Desk} {d current : Decision}
    (kept : desk.Keeps live d) (agrees : current.Agrees d) (journal : live'.journal = live.journal)
    (decision : live'.decision = some current) : desk.Keeps live' d := by
  have journalled : Answered live.journal d → Answered live'.journal d := by
    rw [journal]
    exact id
  cases desk with
  | awaiting | taking => exact ⟨current, decision, agrees⟩
  | denying | approving => exact kept
  | before | drafted | proposed | lapsing => exact kept.elim
  | _ => exact journalled kept

omit [FloatRepr] [Hashlib] in
theorem Desk.Keeps.of_agrees {live : LiveRun} {desk : Desk} {d d' : Decision}
    (kept : desk.Keeps live d) (agrees : d.Agrees d') : desk.Keeps live d' := by
  cases desk with
  | awaiting | taking =>
    obtain ⟨current, decided, verb, approver⟩ := kept
    exact ⟨current, decided, verb.trans agrees.1, approver.trans agrees.2⟩
  | denying | approving => exact ⟨agrees.1 ▸ kept.1, agrees.2 ▸ kept.2⟩
  | before | drafted | proposed | lapsing => exact kept.elim
  | _ => exact Answered.of_agrees kept agrees

/-- A call that assigns or signals in time keeps what is recorded. -/
theorem keeping_click {s : System} (inv : Keeping s) {i : ℕ} {click click' : Click}
    {live : LiveRun} (found : s.clicks[i]? = some click)
    (taken : click.next s.live = some (live, click')) (timely : Timely config s (.click i)) :
    Keeping ⟨live, s.pc, s.clicks.set i click'⟩ := by
  obtain ⟨journal, -, -⟩ := click_frame taken
  have member : click ∈ s.clicks := List.mem_of_getElem? found
  have holds : s.pc.desk.Holds live.journal := by rw [journal]; exact inv.holds
  -- a step that records nothing new and does not touch the decision
  have quiet : (∀ d, click'.recorded = some d → d ∈ s.recorded) → live.decision = s.live.decision →
      (∃ notes, live.log = s.live.log ++ notes ∧ .lapsed ∉ notes ∧
        ((∀ d, .accepted d ∉ notes) ∨ s.recorded ≠ [])) →
      Keeping ⟨live, s.pc, s.clicks.set i click'⟩ := by
    intro old decision ⟨notes, log, unlapsed, silent⟩
    have before : ∀ d ∈ System.recorded ⟨live, s.pc, s.clicks.set i click'⟩, d ∈ s.recorded :=
      fun d recorded => (mem_recorded_set recorded).elim id (old d)
    refine ⟨holds, fun d h d' h' => inv.agree d (before d h) d' (before d' h'),
      fun d recorded => (inv.kept d (before d recorded)).frame journal decision, ?_, ?_⟩
    · intro lapsed
      rw [log] at lapsed
      obtain ⟨none, past⟩ := inv.lapsed ((List.mem_append.mp lapsed).resolve_right unlapsed)
      exact ⟨List.eq_nil_iff_forall_not_mem.mpr fun d recorded => by
        simpa [none] using before d recorded, past⟩
    · rw [log]
      refine inv.ordered.append (silent.imp_right ?_)
      exact fun recorded => ⟨fun lapsed => recorded (inv.lapsed lapsed).1, unlapsed⟩
  rcases click_cases taken with ⟨rfl, -, answered⟩ | ⟨d, rfl, rfl, rfl⟩ | ⟨d, rfl, rfl, rfl⟩ |
    ⟨rfl, rfl, rfl⟩ | ⟨rfl, rfl, rfl⟩
  · refine quiet ?_ rfl ⟨[], by simp, by simp, .inl (by simp)⟩
    rcases answered with rfl | ⟨d, -, rfl, -⟩ <;> simp [Click.recorded]
  · obtain ⟨agrees, inTime⟩ := timely _ found
    -- what is recorded now leaves the same record as `d`
    have like : ∀ d' ∈ System.recorded ⟨{ s.live with decision := some d }.noted [.decided d], s.pc,
        s.clicks.set i (.signalling d)⟩, d.Agrees d' := by
      intro d' recorded
      rcases mem_recorded_set recorded with earlier | now
      · exact (agrees d' earlier).symm
      · cases now
        exact ⟨rfl, rfl⟩
    refine ⟨holds, fun d' h d'' h' => (like d' h).symm.trans (like d'' h'), ?_, ?_, ?_⟩
    · intro d' recorded
      have same := like d' recorded
      rcases inTime with anyone | awaiting
      · obtain ⟨earlier, first⟩ := List.exists_mem_of_ne_nil _ anyone
        have kept : s.pc.desk.Keeps
            ({ s.live with decision := some d }.noted [.decided d]) earlier :=
          (inv.kept earlier first).assigned (agrees earlier first).symm rfl rfl
        exact kept.of_agrees ((agrees earlier first).trans same)
      · cases here : s.pc.desk with
        | awaiting action => exact ⟨d, rfl, same⟩
        | _ =>
          rw [here] at awaiting
          cases awaiting
    · intro lapsed
      have earlier : .lapsed ∈ s.live.log := by simpa [LiveRun.noted] using lapsed
      obtain ⟨none, past⟩ := inv.lapsed earlier
      rcases inTime with anyone | awaiting
      · exact absurd none anyone
      · rw [Desk.past_of_awaiting awaiting] at past
        cases past
    · exact inv.ordered.append (.inl (by simp))
  · have recorded : d ∈ s.recorded := mem_recorded.mpr ⟨_, member, rfl⟩
    refine quiet ?_ rfl ⟨[.accepted d], rfl, by simp, .inr (List.ne_nil_of_mem recorded)⟩
    intro d' same
    cases same
    exact recorded
  · exact quiet (by simp [Click.recorded]) rfl ⟨[], by simp, by simp, .inl (by simp)⟩
  · exact quiet (by simp [Click.recorded]) rfl ⟨[], by simp, by simp, .inl (by simp)⟩

theorem keeping_step {s s' : System} {l : Party} (inv : Keeping s)
    (step : Guarded (Timely config) (Step config) s l s') : Keeping s' := by
  obtain ⟨timely, taken⟩ := step
  rcases step_cases taken with ⟨rfl, -, rfl⟩ | ⟨i, click, live, click', rfl, found, answered, rfl⟩
  · exact keeping_run inv timely
  · exact keeping_click inv found answered timely

theorem Keeping.honoured {s : System} (inv : Keeping s) : Honoured s := by
  have recorded : ∀ d, .accepted d ∈ s.clicks → d ∈ s.recorded :=
    fun d accepted => mem_recorded.mpr ⟨_, accepted, rfl⟩
  refine ⟨?_, ?_, inv.ordered⟩
  · intro ended d accepted
    have kept := inv.kept d (recorded d accepted)
    rw [ended] at kept
    exact kept
  · intro d d' accepted accepted'
    exact (inv.agree d (recorded d accepted) d' (recorded d' accepted')).1

/-- In a timely run every call that answered True is honoured. -/
theorem acknowledged_honoured {clicks : List Click} {ls : List Party} {s : System}
    (called : ∀ c ∈ clicks, c.called = true)
    (run : Transition.Run (Guarded (Timely config) (Step config)) (.start clicks) ls s) : Honoured s :=
  (run.invariant Keeping (fun _ _ _ inv step => keeping_step inv step)
    (keeping_start called)).honoured

end

section Sample
attribute [local instance] fractionRepr pinnedHashlib

theorem acknowledged_honoured_approval :
    ∃ s, .accepted ⟨.approved, "dana", ""⟩ ∈ s.clicks ∧ s.live.phase = .done ∧ Honoured s := by
  obtain ⟨s, run, reached⟩ := exists_run
    (fun _ _ => of_decide_eq_true : ∀ s l, _ → Timely calmConfig s l)
    (by decide +kernel : (play (System.next calmConfig) (fun s l => decide (Timely calmConfig s l))
      (List.replicate 48 .run ++ List.replicate 3 (.click 0) ++ List.replicate 23 .run)
      (.start [.approve "dana"])).any (fun s =>
        decide (.accepted ⟨.approved, "dana", ""⟩ ∈ s.clicks ∧ s.live.phase = .done)) = true)
  obtain ⟨accepted, done⟩ := of_decide_eq_true reached
  exact ⟨s, accepted, done, acknowledged_honoured (by decide) run⟩

/-- Two calls read the phase before either assigns its decision. -/
def crossedSteps : List Party :=
  List.replicate 48 .run ++ [.click 0, .click 1, .click 0, .click 1, .click 0, .click 1] ++
    List.replicate 10 .run

theorem approval_and_denial_accepted :
    ∃ s, Transition.Run (Step calmConfig) (.start [.approve "dana", .deny "lee" "late"])
      crossedSteps s ∧ ¬ Honoured s := by
  obtain ⟨s, run, both⟩ := exists_run
    (fun _ _ _ => trivial : ∀ _ _, true = true → True)
    (by decide +kernel : (play (System.next calmConfig) (fun _ _ => true) crossedSteps
      (.start [.approve "dana", .deny "lee" "late"])).any (fun s =>
        decide (.accepted ⟨.approved, "dana", ""⟩ ∈ s.clicks ∧
          .accepted ⟨.denied, "lee", "late"⟩ ∈ s.clicks)) = true)
  obtain ⟨approved, denied⟩ := of_decide_eq_true both
  exact ⟨s, run.unguarded, fun honoured => by cases honoured.oneVerb _ _ approved denied⟩

end Sample

end Sentinel.LiveLab
