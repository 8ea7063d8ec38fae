import Sentinel.LiveLab.Replay

/-! A replay emits what the run emitted: the journal reads back frame by frame under
any time stamps, the loop passes over the done frame alone, and the close of the
replay makes it anew with the same number. -/
namespace Sentinel.LiveLab
open Python Transition

/-- One `emit` of a run. -/
structure Emission where
  event : String
  data : Json
  atMs : ℤ

def Emission.call (e : Emission) : BusCall := .emit e.event e.data e.atMs

def Emission.content (e : Emission) : String × Json := (e.event, e.data)

def BusFrame.content (f : BusFrame) : String × Json := (f.event, f.data)

/-- What `close` emits. -/
def doneContent : String × Json := ("done", .dict [])

/-- A frame's journal entry under another time stamp, or under none. -/
def SseFrame.stamped (f : SseFrame) (atMs : Option ℤ) : Json :=
  .dict ([("seq", .int f.seq), ("event", .str f.event), ("data", f.data)] ++
    (atMs.map fun t => ("at_ms", .int t)).toList)

/-- A journal entry of a frame, and the frame. -/
abbrev Mark := BusFrame × Option ℤ

def Mark.json (m : Mark) : Json := m.1.stamped m.2

/-- What a replay of these entries has emitted once it is past them. -/
def emitted (marks : List Mark) : List (String × Json) :=
  (marks.filter fun m => !m.1.isDone).map fun m => m.1.content

section
variable [FloatRepr] [FloatReader]

/-- The text is the journal of the frames, up to their time stamps. -/
def Restamped (frames : List BusFrame) (text : List Char) : Prop :=
  ∃ stamps : List (Option ℤ), stamps.length = frames.length ∧
    text = ((frames.zip stamps).map Mark.json).flatMap fun v => dumps v ++ ['\n']

/-! ### The recorded run -/

omit [FloatReader] in
theorem emitted_contents {emits : List Emission} {s s' : BusState}
    (run : Transition.Run BusStep s (emits.map Emission.call) s') :
    s'.closers = s.closers ∧ s'.bus.closed = s.bus.closed ∧
      s'.bus.frames.map BusFrame.content =
        s.bus.frames.map BusFrame.content ++ emits.map Emission.content := by
  induction emits generalizing s with
  | nil =>
    cases run
    simp
  | cons e emits ih =>
    cases run with
    | next step run =>
      cases step
      obtain ⟨closers, closed, contents⟩ := ih run
      refine ⟨closers, closed, contents.trans ?_⟩
      simp [EventBus.emit, EventBus.frame, BusFrame.content, Emission.content]

omit [FloatReader] in
/-- A run of emits with one close leaves their contents and that of the close. -/
theorem recorded_contents {maxlen : ℕ} {emits : List Emission} {atMs atMs' : ℤ} {source : BusState}
    (recorded : Transition.Run BusStep (.start maxlen true)
      (emits.map Emission.call ++ [.close, .closing 0 atMs, .closing 0 atMs']) source) :
    source.bus.frames.map BusFrame.content = emits.map Emission.content ++ [doneContent] := by
  obtain ⟨s, first, close⟩ := recorded.split
  obtain ⟨closers, closed, contents⟩ := emitted_contents first
  have none : s.closers = [] := closers
  have opened : s.bus.closed = false := closed
  cases close with
  | next step close =>
    cases step
    rw [none, opened] at close
    cases close with
    | next step close =>
      cases step
      cases close with
      | next step close =>
        cases step
        cases close
        have begun : (BusState.start maxlen true).bus.frames.map BusFrame.content = [] := rfl
        rw [begun, List.nil_append] at contents
        simp only [EventBus.finish, EventBus.emit, List.map_append, contents]
        rfl

omit [FloatRepr] [FloatReader] in
/-- Numbered frames are determined by their contents. -/
theorem frames_eq {bus bus' : EventBus} (sound : bus.Sound) (sound' : bus'.Sound)
    (same : bus.frames.map BusFrame.content = bus'.frames.map BusFrame.content) :
    bus.frames.map BusFrame.toSseFrame = bus'.frames.map BusFrame.toSseFrame := by
  have length : bus.frames.length = bus'.frames.length := by
    simpa using congrArg List.length same
  have numbers : bus.frames.map (fun f => f.seq) = bus'.frames.map (fun f => f.seq) := by
    rw [sound.numbered, sound'.numbered, length]
  have parts : ∀ frames : List BusFrame, frames.map BusFrame.toSseFrame =
      List.zipWith (fun n (c : String × Json) => ⟨n, c.1, c.2⟩) (frames.map fun f => f.seq)
        (frames.map BusFrame.content) := by
    intro frames
    induction frames with
    | nil => rfl
    | cons f rest ih =>
      simp only [List.map_cons, List.zipWith_cons_cons, ih]
      rfl
  rw [parts, parts, numbers, same]

/-! ### Reading -/

omit [FloatRepr] [FloatReader] in
theorem keyed_stamped {f : BusFrame} (keyed : f.data.keyed = true) (atMs : Option ℤ) :
    (f.stamped atMs).keyed = true := by
  cases atMs <;> simp [SseFrame.stamped, Json.keyed, entriesKeyed, keyed]

theorem readFrames_marks {marks : List Mark} (keyed : ∀ m ∈ marks, m.1.data.keyed = true) :
    readFrames ((marks.map Mark.json).flatMap fun v => dumps v ++ ['\n']) =
      .ok (marks.map Mark.json) := by
  have filled : ∀ v ∈ marks.map Mark.json, ∃ entry entries, v = .dict (entry :: entries) := by
    intro v member
    obtain ⟨m, -, rfl⟩ := List.mem_map.mp member
    exact ⟨_, _, rfl⟩
  rw [readFrames, lines_dumps filled, mapM_ok_iff, List.forall₂_map_left_iff, List.forall₂_same]
  intro v member
  obtain ⟨m, inMarks, rfl⟩ := List.mem_map.mp member
  exact loads_dumps_keyed (keyed_stamped (keyed m inMarks) m.2)

omit [FloatRepr] [FloatReader] in
@[simp] theorem stamped_event (f : SseFrame) (atMs : Option ℤ) :
    (f.stamped atMs).item "event" = .ok (.str f.event) := rfl

omit [FloatRepr] [FloatReader] in
@[simp] theorem stamped_data (f : SseFrame) (atMs : Option ℤ) :
    (f.stamped atMs).item "data" = .ok f.data := rfl

omit [FloatRepr] [FloatReader] in
theorem stamped_atMs (f : SseFrame) (atMs : Option ℤ) :
    ((f.stamped atMs).lookup "at_ms").getD (.int 0) = .int (atMs.getD 0) := by
  cases atMs <;> rfl

/-- The last stamp, if there is one. -/
inductive LastStamp : Json → Prop where
  | none : LastStamp .null
  | int (t : ℤ) : LastStamp (.int t)

omit [FloatRepr] [FloatReader] in
/-- A frame that is not done is emitted, at once or after a pause. -/
theorem arrive_stamped {prevAt : Json} (last : LastStamp prevAt) (m : Mark) (rest : List Json)
    (other : m.1.isDone = false) : ∃ t : ℤ,
      arrive prevAt (Mark.json m) rest = .ok (.paused (.int t) (Mark.json m) rest) ∨
        arrive prevAt (Mark.json m) rest = .ok (.emit (.int t) (Mark.json m) rest) := by
  have kept : (Json.str m.1.event).pyEq (.str "done") = false := by
    simpa [Json.pyEq, SseFrame.isDone] using other
  refine ⟨m.2.getD 0, ?_⟩
  simp only [arrive, Mark.json, stamped_event, stamped_atMs, bind, Except.bind, kept,
    Bool.false_eq_true, if_false]
  cases last with
  | none => exact .inr rfl
  | int t =>
    simp only [subtract, Json.number, pure, Except.pure]
    split
    · exact .inl rfl
    · exact .inr rfl

omit [FloatRepr] [FloatReader] in
/-- The done frame is passed over. -/
theorem arrive_done (prevAt : Json) (m : Mark) (rest : List Json) (done : m.1.isDone = true) :
    arrive prevAt (Mark.json m) rest = .ok (.loop prevAt rest) := by
  have found : (Json.str m.1.event).pyEq (.str "done") = true := by
    simpa [Json.pyEq, SseFrame.isDone] using done
  simp only [arrive, Mark.json, stamped_event, bind, Except.bind, found]
  rfl

omit [FloatRepr] [FloatReader] in
theorem emissionOf_stamped (m : Mark) : emissionOf (Mark.json m) = .ok m.1.content := by
  simp only [emissionOf, Mark.json, stamped_event, stamped_data, bind, Except.bind]
  rfl

/-! ### The run of the replay -/

/-- The bus before its close. -/
def BusState.Opened (s : BusState) : Prop := s.closers = [] ∧ s.bus.closed = false

/-- Where the replay of `marks` stands, and what it has emitted so far. -/
def ReplayPc.Fits (marks : List Mark) (bus : BusState) : ReplayPc → Prop
  | .reading => bus.Opened ∧ bus.bus.frames.map BusFrame.content = []
  | .loop prevAt entries => bus.Opened ∧ LastStamp prevAt ∧ ∃ before rest, marks = before ++ rest ∧
      entries = rest.map Mark.json ∧ bus.bus.frames.map BusFrame.content = emitted before
  | .frame prevAt entry entries => bus.Opened ∧ LastStamp prevAt ∧ ∃ before m rest,
      marks = before ++ m :: rest ∧ entry = Mark.json m ∧ entries = rest.map Mark.json ∧
        bus.bus.frames.map BusFrame.content = emitted before
  | .paused atMs entry entries | .emit atMs entry entries =>
    bus.Opened ∧ LastStamp atMs ∧ ∃ before m rest, marks = before ++ m :: rest ∧
      entry = Mark.json m ∧ entries = rest.map Mark.json ∧ m.1.isDone = false ∧
        bus.bus.frames.map BusFrame.content = emitted before
  | .closing =>
    (bus.Opened ∨ bus.closers = [.emitting]) ∧
      bus.bus.frames.map BusFrame.content = emitted marks ∨
    bus.closers = [.ending] ∧
      bus.bus.frames.map BusFrame.content = emitted marks ++ [doneContent]
  | .ended => bus.bus.frames.map BusFrame.content = emitted marks ++ [doneContent]

/-- The invariant of a replay that no one aborts. -/
structure Replaying (marks : List Mark) (s : ReplayState) : Prop where
  text : readFrames s.text = .ok (marks.map Mark.json)
  unaborted : s.abort = false
  sound : s.bus.bus.Sound
  fits : s.pc.Fits marks s.bus

/-- The steps that the thread has left, at most. -/
def ReplayState.left (n : ℕ) (s : ReplayState) : ℕ :=
  match s.pc with
  | .reading => 4 * n + 5
  | .loop _ frames => 4 * frames.length + 4
  | .frame _ _ rest => 4 * rest.length + 7
  | .paused _ _ rest => 4 * rest.length + 6
  | .emit _ _ rest => 4 * rest.length + 5
  | .closing => if s.bus.closers = [] then 3 else if s.bus.closers = [.emitting] then 2 else 1
  | .ended => 0

omit [FloatRepr] [FloatReader] in
theorem emitted_concat (before : List Mark) (m : Mark) :
    emitted (before ++ [m]) = emitted before ++ if m.1.isDone then [] else [m.1.content] := by
  cases done : m.1.isDone <;> simp [emitted, done]

variable {marks : List Mark} {s s' : ReplayState}

/-- The thread goes on and leaves the bus alone. -/
theorem Replaying.goto (replaying : Replaying marks s) {pc : ReplayPc}
    (fits : pc.Fits marks s.bus) : Replaying marks { s with pc } :=
  ⟨replaying.text, replaying.unaborted, replaying.sound, fits⟩

/-- A frame is left out, emitted at once, or emitted after a pause. -/
theorem replaying_frame (replaying : Replaying marks s) {prevAt frame : Json} {frames : List Json}
    (here : s.pc = .frame prevAt frame frames) (nowMs : ℤ) :
    ∃ s', s.run nowMs = some s' ∧ Replaying marks s' ∧
      s'.left marks.length < s.left marks.length := by
  have fits := replaying.fits
  rw [here] at fits
  obtain ⟨opened, last, before, m, rest, split, rfl, rfl, contents⟩ := fits
  cases done : m.1.isDone with
  | true =>
    have step : s.run nowMs = some { s with pc := .loop prevAt (rest.map Mark.json) } := by
      simp only [ReplayState.run, here, arrive_done prevAt m _ done]
    refine ⟨_, step, replaying.goto ⟨opened, last, before ++ [m], rest, ?_, rfl, ?_⟩, ?_⟩
    · rw [split, List.append_assoc, List.singleton_append]
    · rw [contents, emitted_concat, done, if_pos rfl, List.append_nil]
    · simp only [ReplayState.left, here]
      omega
  | false =>
    obtain ⟨t, arrived⟩ := arrive_stamped last m (rest.map Mark.json) done
    rcases arrived with pause | emit
    · have step : s.run nowMs =
          some { s with pc := .paused (.int t) (Mark.json m) (rest.map Mark.json) } := by
        simp only [ReplayState.run, here, pause]
      refine ⟨_, step, replaying.goto
        ⟨opened, .int t, before, m, rest, split, rfl, rfl, done, contents⟩, ?_⟩
      simp only [ReplayState.left, here]
      omega
    · have step : s.run nowMs =
          some { s with pc := .emit (.int t) (Mark.json m) (rest.map Mark.json) } := by
        simp only [ReplayState.run, here, emit]
      refine ⟨_, step, replaying.goto
        ⟨opened, .int t, before, m, rest, split, rfl, rfl, done, contents⟩, ?_⟩
      simp only [ReplayState.left, here]
      omega

/-- The bus is closed in three steps. -/
theorem replaying_closing (replaying : Replaying marks s) (here : s.pc = .closing) (nowMs : ℤ) :
    ∃ s', s.run nowMs = some s' ∧ Replaying marks s' ∧
      s'.left marks.length < s.left marks.length := by
  have fits := replaying.fits
  rw [here] at fits
  rcases fits with ⟨opened | emitting, contents⟩ | ⟨ending, contents⟩
  · have step : s.run nowMs =
        some { s with bus := ⟨s.bus.bus, [.emitting]⟩, pc := .closing } := by
      simp [ReplayState.run, here, opened.1, opened.2, BusState.next]
    refine ⟨_, step, ⟨replaying.text, replaying.unaborted, replaying.sound,
      .inl ⟨.inr rfl, contents⟩⟩, ?_⟩
    simp [ReplayState.left, here, opened.1]
  · have step : s.run nowMs = some { s with
        bus := ⟨s.bus.bus.emit "done" (.dict []) nowMs, [.ending]⟩, pc := .closing } := by
      simp [ReplayState.run, here, emitting, BusState.next]
    refine ⟨_, step, ⟨replaying.text, replaying.unaborted, replaying.sound.emit _ _ _,
      .inr ⟨rfl, ?_⟩⟩, ?_⟩
    · rw [← contents]
      simp [EventBus.emit, EventBus.frame, BusFrame.content, doneContent]
    · simp [ReplayState.left, here, emitting]
  · have step : s.run nowMs = some { s with
        bus := ⟨s.bus.bus.finish, [.returned]⟩, pc := .ended } := by
      simp [ReplayState.run, here, ending, BusState.next]
    refine ⟨_, step, ⟨replaying.text, replaying.unaborted, replaying.sound.finish, contents⟩, ?_⟩
    simp [ReplayState.left, here, ending]

/-- The thread steps on until it has ended, and emits the frames in order. -/
theorem replaying_run (replaying : Replaying marks s) (unfinished : s.pc ≠ .ended) (nowMs : ℤ) :
    ∃ s', s.run nowMs = some s' ∧ Replaying marks s' ∧
      s'.left marks.length < s.left marks.length := by
  have fits := replaying.fits
  cases here : s.pc with
  | reading =>
    rw [here] at fits
    obtain ⟨opened, empty⟩ := fits
    have step : s.run nowMs = some { s with pc := .loop .null (marks.map Mark.json) } := by
      simp only [ReplayState.run, here, replaying.text]
    refine ⟨_, step, replaying.goto ?_, ?_⟩
    · exact ⟨opened, .none, [], marks, rfl, rfl, empty⟩
    · simp [ReplayState.left, here]
  | loop prevAt frames =>
    rw [here] at fits
    obtain ⟨opened, last, before, rest, split, same, contents⟩ := fits
    cases rest with
    | nil =>
      rw [List.map_nil] at same
      have step : s.run nowMs = some { s with pc := .closing } := by
        simp only [ReplayState.run, here, same]
      refine ⟨_, step, replaying.goto (.inl ⟨.inl opened, ?_⟩), ?_⟩
      · rw [contents, split, List.append_nil]
      · simp [ReplayState.left, here, same, opened.1]
    | cons m rest =>
      rw [List.map_cons] at same
      have step : s.run nowMs =
          some { s with pc := .frame prevAt (Mark.json m) (rest.map Mark.json) } := by
        simp only [ReplayState.run, here, same, replaying.unaborted]
        rfl
      refine ⟨_, step, replaying.goto ⟨opened, last, before, m, rest, split, rfl, rfl, contents⟩, ?_⟩
      simp only [ReplayState.left, here, same, List.length_cons]
      omega
  | frame prevAt frame frames => exact replaying_frame replaying here nowMs
  | paused atMs frame frames =>
    rw [here] at fits
    have step : s.run nowMs = some { s with pc := .emit atMs frame frames } := by
      simp only [ReplayState.run, here, replaying.unaborted]
      rfl
    refine ⟨_, step, replaying.goto fits, ?_⟩
    simp only [ReplayState.left, here]
    omega
  | emit atMs frame frames =>
    rw [here] at fits
    obtain ⟨opened, last, before, m, rest, split, rfl, rfl, other, contents⟩ := fits
    have step : s.run nowMs = some { s with
        bus := ⟨s.bus.bus.emit m.1.event m.1.data nowMs, s.bus.closers⟩, currentAtMs := atMs
        pc := .loop atMs (rest.map Mark.json) } := by
      simp only [ReplayState.run, here, emissionOf_stamped]
      rfl
    refine ⟨_, step, ⟨replaying.text, replaying.unaborted, replaying.sound.emit _ _ _,
      opened, last, before ++ [m], rest, ?_, rfl, ?_⟩, ?_⟩
    · rw [split, List.append_assoc, List.singleton_append]
    · rw [emitted_concat, other, ← contents]
      simp [EventBus.emit, EventBus.frame, BusFrame.content]
    · simp only [ReplayState.left, here]
      omega
  | closing => exact replaying_closing replaying here nowMs
  | ended => exact absurd here unfinished

/-- Clients of the replay's bus emit nothing and close nothing. -/
theorem Replaying.client (replaying : Replaying marks s) {call : BusCall} {bus : BusState}
    (step : BusStep s.bus call bus) (frames : bus.bus.frames = s.bus.bus.frames)
    (closers : bus.closers = s.bus.closers) (closed : bus.bus.closed = s.bus.bus.closed) :
    Replaying marks { s with bus } := by
  refine ⟨replaying.text, replaying.unaborted, replaying.sound.step (busStep_move step), ?_⟩
  have fits := replaying.fits
  show s.pc.Fits marks bus
  cases here : s.pc with
  | reading | loop | frame | paused | emit | closing =>
    rw [here] at fits
    simpa only [ReplayPc.Fits, BusState.Opened, frames, closers, closed] using fits
  | ended =>
    rw [here] at fits
    simpa only [ReplayPc.Fits, frames] using fits

theorem replaying_step {call : ReplayCall} (replaying : Replaying marks s) (unaborted : call ≠ .abort)
    (step : ReplayStep s call s') : Replaying marks s' := by
  cases call with
  | run nowMs =>
    have unfinished : s.pc ≠ .ended := by
      intro ended
      simp [ReplayStep, ReplayState.next, ReplayState.run, ended] at step
    obtain ⟨t, taken, kept, -⟩ := replaying_run replaying unfinished nowMs
    cases taken.symm.trans step
    exact kept
  | abort => exact absurd rfl unaborted
  | subscribe after =>
    cases step
    exact replaying.client (show BusStep _ (.subscribe after) _ from rfl) rfl rfl rfl
  | get i =>
    obtain ⟨bus, taken, rfl⟩ := Option.map_eq_some_iff.mp step
    obtain ⟨bus, got, rfl⟩ := Option.map_eq_some_iff.mp taken
    obtain ⟨sub, sub', -, -, rfl⟩ := get_cases got
    exact replaying.client (show BusStep _ (.get i) _ from taken) rfl rfl rfl

theorem replaying_trail {calls : List ReplayCall} (replaying : Replaying marks s)
    (unaborted : ∀ c ∈ calls, c ≠ .abort) (run : Transition.Run ReplayStep s calls s') :
    Replaying marks s' := by
  induction run with
  | refl => exact replaying
  | next step _ ih =>
    rw [List.forall_mem_cons] at unaborted
    exact ih (replaying_step replaying unaborted.1 step) unaborted.2

/-- Left alone, the thread comes to its end. -/
theorem replaying_ends (replaying : Replaying marks s) : ∃ (n : ℕ) (s' : ReplayState),
    Transition.Run ReplayStep s (List.replicate n (.run 0)) s' ∧ s'.pc = .ended := by
  induction size : s.left marks.length using Nat.strong_induction_on generalizing s with
  | _ size ih =>
    by_cases ended : s.pc = .ended
    · exact ⟨0, s, .refl s, ended⟩
    · obtain ⟨t, taken, kept, fewer⟩ := replaying_run replaying ended 0
      obtain ⟨n, s', run, reached⟩ := ih _ (size ▸ fewer) kept rfl
      exact ⟨n + 1, s', .next taken run, reached⟩

/-! ### The round trip -/

omit [FloatReader] in
/-- The journal that was recorded is such a text. -/
theorem restamped_journal {bus : EventBus} (journaled : bus.Journaled) {text : List Char}
    (written : bus.journal = some text) : Restamped bus.frames text := by
  refine ⟨bus.frames.map fun f => some f.atMs, List.length_map _, ?_⟩
  rw [journaled text written]
  have entries : (bus.frames.zip (bus.frames.map fun f => some f.atMs)).map Mark.json =
      bus.frames.map BusFrame.json := by
    rw [List.map_zip_eq_zipWith, List.zipWith_map_right, List.zipWith_self]
    rfl
  rw [entries, List.flatMap_map]
  rfl

omit [FloatRepr] [FloatReader] in
/-- Of the frames of a run of emits and one close, all but the last are emitted again. -/
theorem emitted_recorded {emits : List Emission} (other : ∀ e ∈ emits, e.event ≠ "done")
    {marks : List Mark}
    (contents : marks.map (fun m => m.1.content) = emits.map Emission.content ++ [doneContent]) :
    emitted marks = emits.map Emission.content := by
  have marked : emitted marks =
      (marks.map fun m => m.1.content).filter fun c : String × Json => !decide (c.1 = "done") := by
    rw [List.filter_map]
    rfl
  have kept : ∀ c ∈ emits.map Emission.content, (!decide (c.1 = "done")) = true := by
    intro c member
    obtain ⟨e, inEmits, rfl⟩ := List.mem_map.mp member
    rw [Bool.not_eq_true', decide_eq_false_iff_not]
    exact other e inEmits
  rw [marked, contents, List.filter_append, List.filter_eq_self.mpr kept]
  exact List.append_nil _

omit [FloatRepr] [FloatReader] in
theorem endsDone_recorded {bus : EventBus} (sound : bus.Sound) {emits : List Emission}
    (other : ∀ e ∈ emits, e.event ≠ "done")
    (contents : bus.frames.map BusFrame.content = emits.map Emission.content ++ [doneContent]) :
    EndsDone (bus.frames.map BusFrame.toSseFrame) := by
  obtain ⟨earlier, final, frames, front, back⟩ := List.map_eq_append_iff.mp contents
  obtain ⟨d, rfl, isDone⟩ := List.map_eq_singleton_iff.mp back
  have increasing := sound.increasing
  rw [frames, List.pairwise_append] at increasing
  rw [frames, List.map_append]
  refine endsDone_append (decide_eq_true (congrArg Prod.fst isDone)) fun f member => ?_
  obtain ⟨g, inFront, rfl⟩ := List.mem_map.mp member
  refine ⟨decide_eq_false ?_, (increasing.2.2 g inFront d (by simp)).le⟩
  have inEmits : g.content ∈ emits.map Emission.content := front ▸ List.mem_map_of_mem inFront
  obtain ⟨e, emittedOnce, same⟩ := List.mem_map.mp inEmits
  rw [← show e.event = g.event from congrArg Prod.fst same]
  exact other e emittedOnce

/-- A run of emits with one close leaves a journal. The replay of this journal, under
any time stamps, that no one aborts comes to its end and has then emitted the same
frames, and one done frame as their last. -/
theorem replay_round_trip {maxlen : ℕ} {emits : List Emission} {atMs atMs' : ℤ} {source : BusState}
    (objects : ∀ e ∈ emits, e.event ≠ "done" ∧ e.data.keyed = true)
    (recorded : Transition.Run BusStep (.start maxlen true)
      (emits.map Emission.call ++ [.close, .closing 0 atMs, .closing 0 atMs']) source) :
    (∃ text, source.bus.journal = some text ∧ Restamped source.bus.frames text) ∧
      ∀ text, Restamped source.bus.frames text → ∀ calls s, (∀ c ∈ calls, c ≠ .abort) →
        Transition.Run ReplayStep { text } calls s →
        (s.pc = .ended →
          s.bus.bus.frames.map BusFrame.toSseFrame = source.bus.frames.map BusFrame.toSseFrame ∧
            EndsDone (s.bus.bus.frames.map BusFrame.toSseFrame)) ∧
          ∃ (n : ℕ) (s' : ReplayState),
            Transition.Run ReplayStep s (List.replicate n (.run 0)) s' ∧ s'.pc = .ended := by
  have contents := recorded_contents recorded
  have other : ∀ e ∈ emits, e.event ≠ "done" := fun e member => (objects e member).1
  obtain ⟨sound, -⟩ := sound_run recorded (sound_start maxlen true)
  refine ⟨?_, ?_⟩
  · have journaled := recorded.invariant (fun s => s.bus.Journaled)
      (fun _ _ _ journaled step => journaled_step journaled (busStep_move step))
      (journaled_start maxlen true)
    have kept : ∀ (s s' : BusState) call, s.bus.journal.isSome = true → BusStep s call s' →
        s'.bus.journal.isSome = true :=
      fun s s' _ some step => journal_kept (busStep_move step) some
    have opened := recorded.invariant (fun s => s.bus.journal.isSome = true)
      (fun s call s' => kept s s' call) rfl
    obtain ⟨text, written⟩ := Option.isSome_iff_exists.mp opened
    exact ⟨text, written, restamped_journal journaled written⟩
  · rintro text ⟨stamps, sameLength, rfl⟩ calls s unaborted run
    have marked : (source.bus.frames.zip stamps).map Prod.fst = source.bus.frames :=
      List.map_fst_zip sameLength.ge
    have markContents : (source.bus.frames.zip stamps).map (fun m => m.1.content) =
        emits.map Emission.content ++ [doneContent] := by
      rw [← contents, ← marked, List.map_map, marked]
      rfl
    have keyed : ∀ m ∈ source.bus.frames.zip stamps, m.1.data.keyed = true := by
      intro m member
      have listed : m.1.content ∈ emits.map Emission.content ++ [doneContent] :=
        markContents ▸ List.mem_map_of_mem member
      rcases List.mem_append.mp listed with early | final
      · obtain ⟨e, inEmits, same⟩ := List.mem_map.mp early
        rw [← show e.data = m.1.data from congrArg Prod.snd same]
        exact (objects e inEmits).2
      · rw [show m.1.data = .dict [] from congrArg Prod.snd (List.mem_singleton.mp final)]
        rfl
    have started : Replaying (source.bus.frames.zip stamps)
        { text := ((source.bus.frames.zip stamps).map Mark.json).flatMap fun v => dumps v ++ ['\n'] } :=
      ⟨readFrames_marks keyed, rfl, sound_start 5000 false, ⟨rfl, rfl⟩, rfl⟩
    have replaying := replaying_trail started unaborted run
    refine ⟨fun ended => ?_, replaying_ends replaying⟩
    have fits := replaying.fits
    rw [ended] at fits
    have same : s.bus.bus.frames.map BusFrame.content =
        emits.map Emission.content ++ [doneContent] :=
      fits.trans (by rw [emitted_recorded other markContents])
    exact ⟨frames_eq replaying.sound sound (same.trans contents.symm),
      endsDone_recorded replaying.sound other same⟩

end

section Sample
attribute [local instance] fractionRepr fractionReader

/-- Two emits at decreasing times, then the close. -/
def twoEmits : List Emission :=
  [⟨"phase", .dict [("to", .str "soak")], 9⟩, ⟨"agent", .dict [("kind", .str "note\n")], 4⟩]

theorem replay_round_trip_two : ∃ (text : List Char) (n : ℕ) (s : ReplayState),
    Transition.Run ReplayStep { text } (List.replicate n (.run 0)) s ∧ s.pc = .ended ∧
      s.bus.bus.frames.map BusFrame.toSseFrame =
        [⟨1, "phase", .dict [("to", .str "soak")]⟩,
          ⟨2, "agent", .dict [("kind", .str "note\n")]⟩, ⟨3, "done", .dict []⟩] := by
  have objects : ∀ e ∈ twoEmits, e.event ≠ "done" ∧ e.data.keyed = true := by decide
  obtain ⟨⟨text, -, restamped⟩, replays⟩ := replay_round_trip objects
    (.next rfl (.next rfl (.next rfl (.next rfl (.next rfl (.refl _))))) :
      Transition.Run BusStep (.start 5000 true)
        (twoEmits.map Emission.call ++ [.close, .closing 0 5, .closing 0 5]) _)
  obtain ⟨-, n, s, run, ended⟩ := replays text restamped [] _ (by simp) (.refl _)
  have unaborted : ∀ c ∈ List.replicate n (ReplayCall.run 0), c ≠ .abort := by
    intro c member
    rw [List.eq_of_mem_replicate member]
    exact ReplayCall.noConfusion
  exact ⟨text, n, s, run, ended, ((replays text restamped _ s unaborted run).1 ended).1⟩

end Sample

end Sentinel.LiveLab
