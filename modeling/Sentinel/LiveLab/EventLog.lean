import Sentinel.LiveLab.Delivery
import Sentinel.Python.JsonLines

/-! The end of the event log. The journal file reads back as the frames emitted, and
if no frame is emitted past a done frame, then the done frame of a returned
`close` is the one last frame of journal and ring. -/
namespace Sentinel.LiveLab
open Python Transition

/-- A frame after one `json.dumps` and `json.loads`. -/
def BusFrame.reloaded (f : BusFrame) : SseFrame := ⟨f.seq, f.event, f.data.mapStrings id⟩

def SseFrame.isDone (f : SseFrame) : Bool := f.event = "done"

/-- There is exactly one done frame, and no frame is numbered past it. -/
structure EndsDone (frames : List SseFrame) : Prop where
  one : frames.countP SseFrame.isDone = 1
  last : ∀ f ∈ frames, f.isDone = true → ∀ g ∈ frames, g.seq ≤ f.seq

/-- No done frame was emitted. -/
def EventBus.Undone (bus : EventBus) : Prop := ∀ f ∈ bus.frames, f.isDone = false

instance (bus : EventBus) : Decidable bus.Undone := inferInstanceAs (Decidable (∀ _ ∈ _, _))

/-- The condition on a step: nothing is emitted past a done frame. Apart from `close`
no call emits one. -/
def Orderly (s : BusState) : BusCall → Prop
  | .emit event _ _ => event ≠ "done" ∧ s.bus.Undone
  | .closing j _ => s.closers[j]? = some .emitting → s.bus.Undone
  | _ => True

instance (s : BusState) (call : BusCall) : Decidable (Orderly s call) :=
  match call with
  | .emit .. => inferInstanceAs (Decidable (_ ∧ _))
  | .closing .. => inferInstanceAs (Decidable (_ → _))
  | .subscribe _ | .get _ | .close => inferInstanceAs (Decidable True)

section
variable [FloatRepr]

/-- The line that `emit` writes. -/
def BusFrame.line (f : BusFrame) : List Char := dumps f.json ++ ['\n']

/-- The journal is the text of all frames. -/
def EventBus.Journaled (bus : EventBus) : Prop :=
  ∀ text ∈ bus.journal, text = bus.frames.flatMap BusFrame.line

theorem journaled_step {bus bus' : EventBus} (journaled : bus.Journaled) (move : BusMove bus bus') :
    bus'.Journaled := by
  cases move with
  | emit event data atMs =>
    intro text member
    obtain ⟨before, found, rfl⟩ := Option.map_eq_some_iff.mp member
    rw [journaled before found]
    simp [EventBus.emit, BusFrame.line]
  | get taken =>
    obtain ⟨sub, sub', -, -, rfl⟩ := get_cases taken
    exact journaled
  | stay | subscribe | finish => exact journaled

theorem journaled_start (maxlen : ℕ) (journaled : Bool) :
    (BusState.start maxlen journaled).bus.Journaled := by
  cases journaled
  · rintro text ⟨⟩
  · rintro text ⟨⟩
    rfl

theorem journal_kept {bus bus' : EventBus} (move : BusMove bus bus')
    (kept : bus.journal.isSome = true) : bus'.journal.isSome = true := by
  cases move with
  | emit => simpa [EventBus.emit] using kept
  | get taken =>
    obtain ⟨sub, sub', -, -, rfl⟩ := get_cases taken
    exact kept
  | stay | subscribe | finish => exact kept

variable [FloatReader]

omit [FloatRepr] [FloatReader] in
theorem sseOf_reloaded (f : BusFrame) : sseOf (f.json.mapStrings id) = .ok f.reloaded := by
  have entries : f.json.mapStrings id = .dict [("seq", .int f.seq), ("event", .str f.event),
      ("data", f.data.mapStrings id), ("at_ms", .int f.atMs)] := by
    simp [BusFrame.json, Json.mapStrings, mapEntries, ofPairs, assign]
  rw [entries]
  rfl

/-- The journal reads back as the frames emitted. -/
theorem readEvents_journal (frames : List BusFrame) :
    readEvents (frames.flatMap BusFrame.line) = .ok (frames.map BusFrame.reloaded) := by
  have lines : frames.flatMap BusFrame.line =
      (frames.map BusFrame.json).flatMap fun v => dumps v ++ ['\n'] := by
    rw [List.flatMap_map]
    rfl
  have filled : ∀ v ∈ frames.map BusFrame.json, ∃ entry entries, v = .dict (entry :: entries) := by
    intro v member
    obtain ⟨f, -, rfl⟩ := List.mem_map.mp member
    exact ⟨_, _, rfl⟩
  rw [readEvents, lines, lines_dumps filled, List.map_map, mapM_ok_iff, List.forall₂_map_left_iff,
    List.forall₂_map_right_iff, List.forall₂_same]
  intro f _
  simp only [Function.comp_apply, loads_dumps]
  exact sseOf_reloaded f

/-! ### The done frame -/

omit [FloatRepr] [FloatReader] in
theorem endsDone_append {earlier : List SseFrame} {d : SseFrame} (done : d.isDone = true)
    (before : ∀ f ∈ earlier, f.isDone = false ∧ f.seq ≤ d.seq) : EndsDone (earlier ++ [d]) := by
  refine ⟨?_, ?_⟩
  · have none : earlier.countP SseFrame.isDone = 0 :=
      List.countP_eq_zero.mpr fun f member => by simp [(before f member).1]
    simp [List.countP_append, none, done]
  · intro f inFrames isDone g member
    have same : f = d := by
      rcases List.mem_append.mp inFrames with early | final
      · rw [(before f early).1] at isDone
        cases isDone
      · exact List.mem_singleton.mp final
    rw [same]
    rcases List.mem_append.mp member with early | final
    · exact (before g early).2
    · rw [List.mem_singleton.mp final]

/-- How far a bus is closed: no `close` has emitted, or its done frame is the last. -/
inductive Ending (s : BusState) : Prop where
  | live : s.bus.Undone → s.bus.closed = false → (∀ c ∈ s.closers, c = .emitting) → Ending s
  | done (earlier d) : s.bus.frames = earlier ++ [d] → d.isDone = true →
      (∀ f ∈ earlier, f.isDone = false) → Ending s

omit [FloatReader] in
theorem ending_step {s s' : BusState} {call : BusCall} (ending : Ending s)
    (step : Guarded Orderly BusStep s call s') : Ending s' := by
  obtain ⟨orderly, taken⟩ := step
  cases call with
  | emit event data atMs =>
    cases taken
    obtain ⟨other, undone⟩ := orderly
    cases ending with
    | live _ opened closers =>
      refine .live ?_ opened closers
      intro f member
      rcases List.mem_append.mp member with early | final
      · exact undone f early
      · rw [List.mem_singleton.mp final]
        exact decide_eq_false other
    | done earlier d frames isDone before =>
      have := undone d (by simp [frames])
      rw [isDone] at this
      cases this
  | subscribe after =>
    cases taken
    cases ending with
    | live undone opened closers => exact .live undone opened closers
    | done earlier d frames isDone before => exact .done earlier d frames isDone before
  | get i =>
    obtain ⟨bus, got, rfl⟩ := Option.map_eq_some_iff.mp taken
    obtain ⟨sub, sub', -, -, rfl⟩ := get_cases got
    cases ending with
    | live undone opened closers => exact .live undone opened closers
    | done earlier d frames isDone before => exact .done earlier d frames isDone before
  | close =>
    cases taken
    cases ending with
    | live undone opened closers =>
      refine .live undone opened fun c member => ?_
      rcases List.mem_append.mp member with old | new
      · exact closers c old
      · rw [opened] at new
        exact List.mem_singleton.mp new
    | done earlier d frames isDone before => exact .done earlier d frames isDone before
  | closing j atMs =>
    simp only [BusStep, BusState.next] at taken
    split at taken
    · rename_i emitting
      cases taken
      exact .done s.bus.frames _ rfl rfl (orderly emitting)
    · rename_i reached
      cases taken
      cases ending with
      | live undone opened closers => cases closers _ (List.mem_of_getElem? reached)
      | done earlier d frames isDone before => exact .done earlier d frames isDone before
    · cases taken

/-- In an orderly run, once some `close` has returned, the done frame ends ring and
journal. -/
theorem done_ends_stream {maxlen : ℕ} {journaled : Bool} {calls : List BusCall} {s : BusState}
    (ring : 1 ≤ maxlen)
    (run : Transition.Run (Guarded Orderly BusStep) (.start maxlen journaled) calls s)
    (returned : .returned ∈ s.closers) :
    EndsDone (s.bus.ring.map BusFrame.toSseFrame) ∧
      ∀ text ∈ s.bus.journal, ∃ frames, readEvents text = .ok frames ∧ EndsDone frames := by
  have start : Ending (.start maxlen journaled) := by
    refine .live ?_ rfl ?_ <;> simp [BusState.start, EventBus.Undone]
  have ending := run.invariant Ending (fun _ _ _ ending step => ending_step ending step) start
  have text := run.invariant (fun s => s.bus.Journaled)
    (fun _ _ _ journaled step => journaled_step journaled (busStep_move step.2))
    (journaled_start maxlen journaled)
  obtain ⟨sound, grown⟩ := sound_run run.unguarded (sound_start maxlen journaled)
  cases ending with
  | live undone opened closers => cases closers _ returned
  | done earlier d frames isDone before =>
    have increasing := sound.increasing
    rw [frames, List.pairwise_append] at increasing
    have below : ∀ f ∈ earlier, f.isDone = false ∧ f.seq ≤ d.seq := fun f member =>
      ⟨before f member, (increasing.2.2 f member d (by simp)).le⟩
    refine ⟨?_, ?_⟩
    · obtain ⟨n, rfl⟩ := Nat.exists_eq_add_of_le' ring
      have size : s.bus.maxlen = n + 1 := grown.maxlen
      rw [sound.ring, size, frames, List.rtake_concat_succ, List.map_append]
      refine endsDone_append isDone fun f member => ?_
      obtain ⟨g, inRing, rfl⟩ := List.mem_map.mp member
      exact below g (List.mem_of_mem_drop inRing)
    · intro journal member
      refine ⟨s.bus.frames.map BusFrame.reloaded, by rw [text journal member, readEvents_journal], ?_⟩
      rw [frames, List.map_append]
      refine endsDone_append isDone fun f member => ?_
      obtain ⟨g, inJournal, rfl⟩ := List.mem_map.mp member
      exact below g inJournal

end

section Sample
attribute [local instance] fractionRepr fractionReader

theorem done_ends_stream_closed :
    ∃ s : BusState, s.bus.journal.isSome = true ∧ .returned ∈ s.closers ∧
      EndsDone (s.bus.ring.map BusFrame.toSseFrame) ∧
      ∀ text ∈ s.bus.journal, ∃ frames, readEvents text = .ok frames ∧ EndsDone frames := by
  obtain ⟨s, run, reached⟩ := exists_run
    (fun _ _ => of_decide_eq_true : ∀ s call, _ → Orderly s call)
    (by decide +kernel : (play BusState.next (fun s call => decide (Orderly s call))
      [.emit "phase" .null 1, .close, .subscribe 0, .closing 0 2, .closing 0 3]
      (.start 5000 true)).any (fun s =>
        s.bus.journal.isSome && decide (.returned ∈ s.closers)) = true)
  rw [Bool.and_eq_true, decide_eq_true_eq] at reached
  exact ⟨s, reached.1, reached.2, done_ends_stream (by decide) run reached.2⟩

/-- Two calls of `close` both read the flag before either sets it. -/
theorem closes_emit_twice :
    ∃ s, Transition.Run BusStep (.start 5000 true)
      [.close, .close, .closing 0 1, .closing 0 1, .closing 1 2] s ∧ .returned ∈ s.closers ∧
      ¬ EndsDone (s.bus.ring.map BusFrame.toSseFrame) := by
  obtain ⟨s, run, reached⟩ := exists_run
    (fun _ _ _ => trivial : ∀ _ _, true = true → True)
    (by decide +kernel : (play BusState.next (fun _ _ => true)
      [.close, .close, .closing 0 1, .closing 0 1, .closing 1 2] (.start 5000 true)).any (fun s =>
        decide (.returned ∈ s.closers) &&
          (s.bus.ring.map BusFrame.toSseFrame).countP SseFrame.isDone == 2) = true)
  rw [Bool.and_eq_true, decide_eq_true_eq, beq_iff_eq] at reached
  refine ⟨s, run.unguarded, reached.1, fun ends => ?_⟩
  rw [ends.one] at reached
  cases reached.2

end Sample

end Sentinel.LiveLab
