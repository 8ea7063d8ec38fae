import Sentinel.Actions.History
import Sentinel.Actions.Terminal
import Sentinel.LiveLab.Desk
import Sentinel.LiveLab.MachineProofs
import Sentinel.Python.JsonProofs

/-! What a finished run leaves in its journal. If nothing cuts the run thread
between the proposal and the event that closes it, the action is terminal when
the phase is, and the gate refuses it from then on. -/
namespace Sentinel.LiveLab
open Python Actions Transition

/-- The condition on a step: at an open desk no `Exception` comes out of a
dependency, and the test after the wait finds no abort. -/
def Uncut (config : Config) (s : System) : Party → Prop
  | .run => s.pc.desk.isOpen = true →
      (∀ e ∈ s.pc.failure config s.live.steps, e.base = true) ∧
      (s.pc.checksAbort = true → s.live.abort = false)
  | .click _ => True

instance (config : Config) (s : System) (l : Party) : Decidable (Uncut config s l) :=
  match l with
  | .run => inferInstanceAs (Decidable (_ → _ ∧ _))
  | .click _ => inferInstanceAs (Decidable True)

def Desk.isTaking : Desk → Bool
  | .taking _ => true
  | _ => false

/-- No step is left that could come back to the desk or write a phase. -/
def Pc.isLeaving : Pc → Bool
  | .finalClear | .close | .ended => true
  | _ => false

section
variable [FloatRepr] [Hashlib]

/-- The action can no longer be approved or executed from the journal. -/
structure Retired (journal : Journal) (id : String) : Prop where
  terminal : isTerminal journal id = true
  kept : ∀ later, Actions.Unproposed id later →
    statusOf (journal ++ later) id = statusOf journal id
  refused : ∀ action now, action.id = id →
    ∃ result, gateCheck (stateOf journal action.id) action now = .refuse result

theorem retired_of_terminal {journal : Journal} {id : String}
    (terminal : isTerminal journal id = true) : Retired journal id := by
  unfold isTerminal at terminal
  split at terminal
  · cases terminal
  · rename_i st current
    have status : statusOf journal id = some st.status := by simp [statusOf, current]
    refine ⟨by simp [isTerminal, current, terminal], ?_, ?_⟩
    · intro later unproposed
      rw [status]
      exact statusOf_terminal_run status terminal unproposed
    · rintro action now rfl
      have unapproved : st.status ≠ .approved := by
        intro approved
        rw [approved] at terminal
        cases terminal
      simp only [gateCheck, current, if_pos unapproved]
      split <;> exact ⟨_, rfl⟩

/-- Every proposed action is beyond approval. -/
def NothingOpen (journal : Journal) : Prop :=
  ∀ id action expires, (⟨id, .proposed action expires⟩ : Event) ∈ journal → Retired journal action.id

omit [FloatRepr] [Hashlib] in
theorem Unproposed.settled {journal : Journal} (fresh : Unproposed journal) : Settled journal :=
  fun _ _ _ member => absurd rfl (fresh _ member)

/-- What every state of an uncut run satisfies. -/
structure Closing (s : System) : Prop where
  holds : s.pc.desk.Holds s.live.journal
  taking : s.pc.desk.isTaking = true → s.live.decision ≠ none
  phase : s.live.phase.terminal = true → s.pc.desk = .closed ∨ s.pc.desk = .gone
  gone : s.pc.desk = .gone → Settled s.live.journal ∨
    (s.pc.isLeaving = true ∧ s.live.phase.terminal = false)

theorem DeskStep.from_closed {live : LiveRun} {why : Prop} {desk desk' : Desk} {events : Journal}
    (step : DeskStep live why desk desk' events) (closed : desk = .closed ∨ desk = .gone) :
    (desk' = .closed ∨ desk' = .gone) ∧ events = [] := by
  cases step <;> simp_all

theorem DeskStep.to_taking {live : LiveRun} {why : Prop} {desk desk' : Desk} {events : Journal}
    (step : DeskStep live why desk desk' events) (taking : desk'.isTaking = true)
    (before : desk.isTaking = true → live.decision ≠ none) : live.decision ≠ none := by
  cases step with
  | stay => exact before taking
  | take action decided => exact decided
  | _ => cases taking

theorem DeskStep.to_gone {live : LiveRun} {why : Prop} {desk desk' : Desk} {events : Journal}
    (step : DeskStep live why desk desk' events) (gone : desk' = .gone) :
    events = [] ∧ (desk.isOpen = true → why) := by
  cases step with
  | stay =>
    rw [gone]
    exact ⟨rfl, by rintro ⟨⟩⟩
  | cut reason => exact ⟨rfl, reason⟩
  | _ => cases gone

theorem Desk.Holds.settled_of_shut {journal : Journal} {desk : Desk} (holds : desk.Holds journal)
    (shut : desk.isOpen = false) (inside : desk ≠ .gone) : Settled journal := by
  cases desk with
  | before => exact holds.settled
  | drafted => exact holds.2.settled
  | closed => exact holds
  | gone => exact absurd rfl inside
  | _ => cases shut

variable {config : Config}

omit [FloatRepr] [Hashlib] in
theorem Entry.desk_of_terminal {entry : Entry} (terminal : entry.phase.terminal = true) :
    entry.desk = .closed ∨ entry.desk = .gone := by
  cases entry <;> first | exact .inl rfl | exact .inr rfl | cases terminal

/-- A phase that is gone stays so, and it is entered behind the desk. -/
theorem Pc.next_terminal {pc : Pc} {live : LiveRun} {n : ℕ}
    (before : live.phase.terminal = true → pc.desk = .closed ∨ pc.desk = .gone)
    (terminal : (pc.next config live n).1.phase.terminal = true) :
    (pc.next config live n).2.desk = .closed ∨ (pc.next config live n).2.desk = .gone := by
  by_cases entering : ∃ entry, pc = .enter entry
  · obtain ⟨entry, rfl⟩ := entering
    exact Entry.desk_of_terminal terminal
  · rw [Pc.next_phase pc live n fun entry same => entering ⟨entry, same⟩] at terminal
    obtain ⟨events, -, moved⟩ := pc.next_desk config live n
    exact (moved.from_closed (before terminal)).1

variable (config) in
theorem Pc.next_leaving {pc : Pc} (live : LiveRun) (n : ℕ) (leaving : pc.isLeaving = true) :
    (pc.next config live n).2.isLeaving = true ∧
      (pc.next config live n).1.phase = live.phase := by
  refine ⟨?_, pc.next_phase live n fun entry same => by rw [same] at leaving; cases leaving⟩
  cases pc with
  | finalClear =>
    simp only [Pc.next]
    split
    · rfl
    · split <;> rfl
  | close | ended => rfl
  | _ => cases leaving

theorem closing_start (clicks : List Click) : Closing (.start clicks) := by
  refine ⟨?_, ?_, ?_, ?_⟩ <;>
    simp [System.start, Pc.desk, Entry.desk, Desk.Holds, Unproposed, Desk.isTaking, Phase.terminal]

theorem closing_run {s : System} (inv : Closing s) (uncut : Uncut config s .run) :
    Closing ⟨{ (s.pc.next config s.live s.live.steps).1 with steps := s.live.steps + 1 },
      (s.pc.next config s.live s.live.steps).2, s.clicks⟩ := by
  obtain ⟨events, journal, moved⟩ :=
    s.pc.next_desk config s.live s.live.steps
  have framed := s.pc.next_framed config s.live s.live.steps
  refine ⟨by rw [journal]; exact moved.holds inv.holds, ?_, s.pc.next_terminal inv.phase, ?_⟩
  · intro taking
    rw [framed.decision]
    exact moved.to_taking taking inv.taking
  · intro gone
    obtain ⟨rfl, reason⟩ := moved.to_gone gone
    rw [List.append_nil] at journal
    show Settled (s.pc.next config s.live s.live.steps).1.journal ∨ _
    rw [journal]
    by_cases inside : s.pc.desk = .gone
    · refine (inv.gone inside).imp_right ?_
      rintro ⟨leaving, phase⟩
      obtain ⟨still, same⟩ := Pc.next_leaving config s.live s.live.steps leaving
      exact ⟨still, same ▸ phase⟩
    cases opened : s.pc.desk.isOpen with
    | false => exact .inl (inv.holds.settled_of_shut opened inside)
    | true =>
      -- only an exception outside `Exception` cuts the desk here
      right
      obtain ⟨fails, heard⟩ := uncut opened
      rcases reason opened with ⟨e, failed, leaves⟩ | ⟨action, here, aborted⟩ | ⟨action, here, undecided⟩
      · rw [leaves (fails e failed)]
        refine ⟨rfl, ?_⟩
        rw [Pc.next_phase s.pc s.live _ fun entry same => by rw [same] at failed; cases failed]
        cases gone : s.live.phase.terminal with
        | false => rfl
        | true =>
          rcases inv.phase gone with closed | gone <;> simp_all [Desk.isOpen]
      · rw [heard (by rw [here]; rfl)] at aborted
        cases aborted
      · exact absurd undecided (inv.taking (by rw [here]; rfl))

theorem closing_click {s : System} (inv : Closing s) {i : ℕ} {click click' : Click}
    {live : LiveRun} (taken : click.next s.live = some (live, click')) :
    Closing ⟨live, s.pc, s.clicks.set i click'⟩ := by
  obtain ⟨journal, phase, -⟩ := click_frame taken
  refine ⟨by rw [journal]; exact inv.holds, ?_, by rw [phase]; exact inv.phase,
    by rw [journal, phase]; exact inv.gone⟩
  intro taking
  rcases click_cases taken with ⟨rfl, -, -⟩ | ⟨d, -, -, rfl⟩ | ⟨d, -, -, rfl⟩ | ⟨-, -, rfl⟩ |
    ⟨-, -, rfl⟩
  · exact inv.taking taking
  · simp [LiveRun.noted]
  · exact inv.taking taking
  · exact inv.taking taking
  · exact inv.taking taking

theorem closing_step {s s' : System} {l : Party} (inv : Closing s)
    (step : Guarded (Uncut config) (Step config) s l s') : Closing s' := by
  obtain ⟨uncut, taken⟩ := step
  rcases step_cases taken with ⟨rfl, -, rfl⟩ | ⟨i, click, live, click', rfl, -, answered, rfl⟩
  · exact closing_run inv uncut
  · exact closing_click inv answered

theorem Closing.settled {s : System} (inv : Closing s) (finished : s.live.phase.terminal = true) :
    Settled s.live.journal := by
  rcases inv.phase finished with closed | gone
  · have holds := inv.holds
    rw [closed] at holds
    exact holds
  · refine (inv.gone gone).resolve_right ?_
    rintro ⟨-, unfinished⟩
    rw [finished] at unfinished
    cases unfinished

/-- An uncut run that has finished leaves no action open. -/
theorem finished_nothing_open {clicks : List Click} {ls : List Party} {s : System}
    (run : Transition.Run (Guarded (Uncut config) (Step config)) (.start clicks) ls s)
    (finished : s.live.phase.terminal = true) : NothingOpen s.live.journal := by
  have inv := run.invariant Closing (fun _ _ _ inv step => closing_step inv step)
    (closing_start clicks)
  exact fun id action expires member =>
    retired_of_terminal (inv.settled finished id action expires member)

end

section Sample
attribute [local instance] fractionRepr pinnedHashlib

theorem finished_nothing_open_denial :
    ∃ s : System, s.live.journal ≠ [] ∧ s.live.phase.terminal = true ∧ NothingOpen s.live.journal := by
  obtain ⟨s, run, reached⟩ := exists_run
    (fun _ _ => of_decide_eq_true : ∀ s l, _ → Uncut calmConfig s l)
    (by decide +kernel : (play (System.next calmConfig) (fun s l => decide (Uncut calmConfig s l))
      (List.replicate 48 .run ++ List.replicate 3 (.click 0) ++ List.replicate 10 .run)
      (.start [.deny "lee" "not today"])).any (fun s =>
        !s.live.journal.isEmpty && s.live.phase.terminal) = true)
  simp only [Bool.and_eq_true, Bool.not_eq_true', List.isEmpty_eq_false_iff] at reached
  exact ⟨s, reached.1, reached.2, finished_nothing_open run reached.2⟩

/-- An abort during `awaiting_approval` leaves the action posted. -/
theorem cancelled_leaves_posted :
    ∃ s, Transition.Run (Step calmConfig) (.start [.aborting])
      (List.replicate 48 .run ++ List.replicate 2 (.click 0) ++ List.replicate 6 .run) s ∧
      s.live.phase = .cancelled ∧ ¬ NothingOpen s.live.journal := by
  obtain ⟨s, run, reached⟩ := exists_run
    (fun _ _ _ => trivial : ∀ _ _, true = true → True)
    (by decide +kernel : (play (System.next calmConfig) (fun _ _ => true)
      (List.replicate 48 .run ++ List.replicate 2 (.click 0) ++ List.replicate 6 .run)
      (.start [.aborting])).any (fun s => decide (s.live.phase = .cancelled) &&
        s.live.journal.any fun e => e.proposal?.any fun p =>
          !isTerminal s.live.journal p.1.id) = true)
  simp only [Bool.and_eq_true, decide_eq_true_eq, List.any_eq_true] at reached
  obtain ⟨cancelled, ⟨id, body⟩, member, unfinished⟩ := reached
  refine ⟨s, run.unguarded, cancelled, fun nothing => ?_⟩
  cases body with
  | proposed action expires =>
    have retired := nothing id action expires member
    simp [Event.proposal?, retired.terminal] at unfinished
  | _ => cases unfinished

end Sample

end Sentinel.LiveLab
