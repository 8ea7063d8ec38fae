import Mathlib.Data.List.ReduceOption
import Sentinel.LiveLab.Stream

/-! The three ways a stream is served agree: the queue of a subscription, the ring
behind it and the journal file all hold the run's frames in order, whichever the
test of the run thread picks. -/
namespace Sentinel.LiveLab
open Python Transition

section
variable [FloatRepr] [FloatReader]

/-- What a request can rely on when the bus and the run thread stand like this. -/
def Request.Fits (bus : EventBus) (alive : Bool) : Request → Prop
  | .live after => after ≤ bus.seq
  | .finished _ => alive = false
  | .subscribed after i => ∃ sub, bus.subs[i]? = some sub ∧ sub.after = after ∧ after ≤ sub.since
  | .replayed after frames => alive = false ∧ frames = .ok ((bus.past after).map BusFrame.reloaded)

/-- What every state of the stream satisfies. -/
structure Running (s : StreamState) : Prop where
  sound : s.bus.bus.Sound
  journaled : s.bus.bus.Journaled
  kept : s.bus.bus.journal.isSome = true
  closers : s.bus.closers = [] ∨ ∃ c, s.bus.closers = [c]
  closed : ∀ n ∈ s.bus.bus.closedAt, n = s.bus.bus.frames.length ∧ s.bus.closers = [.returned]
  ended : s.alive = false → s.bus.closers = [] ∨ s.bus.closers = [.returned]
  requests : ∀ r ∈ s.requests, r.Fits s.bus.bus s.alive

omit [FloatRepr] [FloatReader] in
theorem Request.Fits.extend {bus bus' : EventBus} {alive : Bool} {r : Request}
    (fits : r.Fits bus alive) (sound : bus.Sound) (sound' : bus'.Sound) (grown : bus.Extends bus')
    (quiet : alive = false → bus'.frames = bus.frames) : r.Fits bus' alive := by
  cases r with
  | live after =>
    have longer := grown.frames.length_le
    have asked : after ≤ bus.seq := fits
    simp only [Request.Fits, sound'.seq]
    rw [sound.seq] at asked
    omega
  | finished after => exact fits
  | subscribed after i =>
    obtain ⟨sub, found, own, since⟩ := fits
    obtain ⟨sub', found', own', since'⟩ := grown.subs i sub found
    exact ⟨sub', found', own'.trans own, by rw [since']; exact since⟩
  | replayed after frames =>
    obtain ⟨dead, same⟩ := fits
    refine ⟨dead, ?_⟩
    rw [EventBus.past, quiet dead]
    exact same

omit [FloatReader] in
theorem Running.moved {s : StreamState} (inv : Running s) {call : BusCall} {bus : BusState}
    (step : BusStep s.bus call bus) (closers : bus.closers = s.bus.closers ∨ ∃ c, bus.closers = [c])
    (closed : ∀ n ∈ bus.bus.closedAt, n = bus.bus.frames.length ∧ bus.closers = [.returned])
    (quiet : s.alive = false → bus.closers = s.bus.closers ∧ bus.bus.frames = s.bus.bus.frames) :
    Running { s with bus } := by
  have move := busStep_move step
  have sound := inv.sound.step move
  refine ⟨sound, journaled_step inv.journaled move, journal_kept move inv.kept, ?_, closed, ?_, ?_⟩
  · rcases closers with same | one
    · rw [same]
      exact inv.closers
    · exact .inr one
  · intro dead
    rw [(quiet dead).1]
    exact inv.ended dead
  · intro r member
    exact (inv.requests r member).extend inv.sound sound move.extends fun dead => (quiet dead).2

omit [FloatReader] in
/-- While no `close` has returned the bus is open. -/
theorem Running.opened {s : StreamState} (inv : Running s) (open_ : s.bus.closers ≠ [.returned]) :
    s.bus.bus.closedAt = none := by
  cases at_ : s.bus.bus.closedAt with
  | none => rfl
  | some n => exact absurd (inv.closed n at_).2 open_

omit [FloatReader] in
theorem running_start (maxlen : ℕ) : Running (.start maxlen) := by
  refine ⟨sound_start maxlen true, journaled_start maxlen true, rfl, .inl rfl, ?_, ?_, ?_⟩ <;>
    simp [StreamState.start, BusState.start]

/-- The journal file holds what the run emitted past `after`. -/
theorem replay_past {bus : EventBus} (sound : bus.Sound) (journaled : bus.Journaled)
    (kept : bus.journal.isSome = true) (after : ℤ) :
    bus.replay after = .ok ((bus.past after).map BusFrame.reloaded) := by
  obtain ⟨text, written⟩ := Option.isSome_iff_exists.mp kept
  have content := journaled text written
  cases text with
  | nil =>
    have empty : bus.frames = [] := by
      cases frames : bus.frames with
      | nil => rfl
      | cons f rest =>
        rw [frames] at content
        simp [BusFrame.line] at content
    simp [EventBus.replay, written, EventBus.backlog, sound.ring, empty, EventBus.past]
  | cons c rest =>
    have read : readEvents (c :: rest) = .ok (bus.frames.map BusFrame.reloaded) := by
      rw [content]
      exact readEvents_journal bus.frames
    simp only [EventBus.replay, written, read]
    show Except.ok ((bus.frames.map BusFrame.reloaded).filter fun f => after < f.seq) = _
    rw [List.filter_map]
    rfl

omit [FloatReader] in
/-- Only the requests have changed. -/
theorem Running.asking {s : StreamState} (inv : Running s) {requests : List Request}
    (fits : ∀ r ∈ requests, r.Fits s.bus.bus s.alive) : Running { s with requests } :=
  ⟨inv.sound, inv.journaled, inv.kept, inv.closers, inv.closed, inv.ended, fits⟩

/-- A step of the one `close` there is. -/
theorem running_closing {s s' : StreamState} {atMs : ℤ} (inv : Running s)
    (taken : StreamStep s (.closing atMs) s') : Running s' := by
  obtain ⟨bus, went, rfl⟩ := Option.map_eq_some_iff.mp taken
  -- the one closer there is has not returned, so the run thread is in it
  have one : ∀ c, s.bus.closers[0]? = some c → s.bus.closers = [c] := by
    intro c here
    rcases inv.closers with none | ⟨d, same⟩
    · rw [none] at here
      cases here
    · rw [same] at here ⊢
      cases here
      rfl
  have going (c : Closer) (here : s.bus.closers[0]? = some c) (other : c ≠ .returned) :
      s.alive ≠ false ∧ s.bus.bus.closedAt = none := by
    refine ⟨fun dead => ?_, inv.opened (by simp [one c here, other])⟩
    rcases inv.ended dead with none | same
    · rw [none] at here
      cases here
    · rw [same] at here
      cases here
      exact other rfl
  have step := went
  simp only [BusState.next] at went
  split at went
  · rename_i here
    obtain ⟨alive, opened⟩ := going _ here (by decide)
    cases went
    refine inv.moved step (.inr ⟨.ending, by rw [one _ here]; rfl⟩) ?_ (fun dead => absurd dead alive)
    simp [EventBus.emit, opened]
  · rename_i here
    obtain ⟨alive, opened⟩ := going _ here (by decide)
    cases went
    refine inv.moved step (.inr ⟨.returned, by rw [one _ here]; rfl⟩) ?_
      (fun dead => absurd dead alive)
    rintro n ⟨⟩
    exact ⟨by rw [opened]; rfl, by rw [one _ here]; rfl⟩
  · cases went

/-- A request is served from a subscription or from the journal. -/
theorem running_serve {s s' : StreamState} {i : ℕ} (inv : Running s)
    (taken : StreamStep s (.serve i) s') : Running s' := by
  simp only [StreamStep, StreamState.next] at taken
  split at taken
  · rename_i after here
    obtain ⟨bus, subscribed, rfl⟩ := Option.map_eq_some_iff.mp taken
    cases subscribed
    have moved : Running { s with bus := ⟨s.bus.bus.subscribe after, s.bus.closers⟩ } :=
      inv.moved (show BusStep _ (.subscribe after) _ from rfl) (.inl rfl) inv.closed fun _ => ⟨rfl, rfl⟩
    refine moved.asking fun r member => ?_
    rcases List.mem_or_eq_of_mem_set member with old | rfl
    · exact moved.requests r old
    · have pending : after ≤ s.bus.bus.seq := inv.requests _ (List.mem_of_getElem? here)
      rw [inv.sound.seq] at pending
      exact ⟨_, List.getElem?_concat_length .., rfl, pending⟩
  · rename_i after here
    cases taken
    refine inv.asking fun r member => ?_
    rcases List.mem_or_eq_of_mem_set member with old | rfl
    · exact inv.requests r old
    · have dead : s.alive = false := inv.requests _ (List.mem_of_getElem? here)
      exact ⟨dead, replay_past inv.sound inv.journaled inv.kept after⟩
  · cases taken

theorem running_step {s s' : StreamState} {call : StreamCall} (inv : Running s)
    (step : Guarded Asked StreamStep s call s') : Running s' := by
  obtain ⟨asked, taken⟩ := step
  cases call with
  | emit event data atMs =>
    simp only [StreamStep, StreamState.next] at taken
    split at taken
    · rename_i going
      obtain ⟨alive, unclosed⟩ := going
      obtain ⟨bus, emitted, rfl⟩ := Option.map_eq_some_iff.mp taken
      have opened := inv.opened (by simp [unclosed])
      refine inv.moved emitted (.inl ?_) ?_ (by simp [alive])
      · cases emitted
        rfl
      · cases emitted
        simp [EventBus.emit, opened]
    · cases taken
  | close =>
    simp only [StreamStep, StreamState.next] at taken
    split at taken
    · rename_i going
      obtain ⟨alive, unclosed⟩ := going
      obtain ⟨bus, began, rfl⟩ := Option.map_eq_some_iff.mp taken
      have opened := inv.opened (by simp [unclosed])
      refine inv.moved began (.inr ?_) ?_ (by simp [alive])
      · cases began
        exact ⟨_, by rw [unclosed]; rfl⟩
      · cases began
        simp [opened]
    · cases taken
  | closing atMs => exact running_closing inv taken
  | exit =>
    simp only [StreamStep, StreamState.next] at taken
    split at taken
    · rename_i finished
      cases taken
      refine ⟨inv.sound, inv.journaled, inv.kept, inv.closers, inv.closed, fun _ => finished, ?_⟩
      intro r member
      have fits := inv.requests r member
      cases r with
      | live | subscribed => exact fits
      | finished => rfl
      | replayed => exact ⟨rfl, fits.2⟩
    · cases taken
  | request after =>
    cases taken
    refine inv.asking fun r member => ?_
    rcases List.mem_append.mp member with old | new
    · exact inv.requests r old
    · rw [List.mem_singleton.mp new]
      cases alive : s.alive with
      | true => exact asked
      | false => rfl
  | serve i => exact running_serve inv taken
  | pull r =>
    simp only [StreamStep, StreamState.next] at taken
    split at taken
    · rename_i i here
      obtain ⟨bus, pulled, rfl⟩ := Option.map_eq_some_iff.mp taken
      have step := pulled
      obtain ⟨bus, got, rfl⟩ := Option.map_eq_some_iff.mp pulled
      obtain ⟨sub, sub', -, -, rfl⟩ := get_cases got
      exact inv.moved step (.inl rfl) inv.closed fun _ => ⟨rfl, rfl⟩
    · cases taken

/-! ### From the invariant to the stream -/

omit [FloatRepr] [FloatReader] in
/-- The frames past the first `since` are numbered past `since`. -/
theorem since_lt_seq {bus : EventBus} (sound : bus.Sound) (since : ℕ) :
    ∀ f ∈ bus.frames.drop since, since < f.seq := by
  intro f member
  obtain ⟨k, here⟩ := List.mem_iff_getElem?.mp member
  rw [List.getElem?_drop] at here
  have number : (bus.frames.map fun f => f.seq)[since + k]? = some f.seq := by simp [here]
  rw [sound.numbered, List.getElem?_range'] at number
  · have := Option.some.inj number
    omega
  · exact (List.getElem?_eq_some_iff.mp here).1

omit [FloatRepr] [FloatReader] in
/-- On a ring that holds the whole run a subscription is owed the run past `after`. -/
theorem owed_past {bus : EventBus} (sound : bus.Sound) (fits : bus.frames.length ≤ bus.maxlen)
    (whole : bus.audible = bus.frames) {after : ℤ} {since : ℕ} (asked : after ≤ since) :
    bus.owed after since = (bus.past after).map some ++ if bus.closed then [none] else [] := by
  have ring : (bus.frames.take since).rtake bus.maxlen = bus.frames.take since := by
    have short : (bus.frames.take since).length ≤ bus.maxlen := (List.length_take_le' ..).trans fits
    rw [List.rtake, Nat.sub_eq_zero_of_le short, List.drop_zero]
  have later : (bus.frames.drop since).filter (fun f => after < f.seq) = bus.frames.drop since := by
    refine List.filter_eq_self.mpr fun f member => ?_
    have := since_lt_seq sound since f member
    simp only [decide_eq_true_eq]
    omega
  rw [EventBus.owed, ring, whole, EventBus.past]
  nth_rewrite 1 [← later]
  rw [← List.filter_append, List.take_append_drop]

omit [FloatReader] in
theorem Running.audible {s : StreamState} (inv : Running s) :
    s.bus.bus.audible = s.bus.bus.frames := by
  unfold EventBus.audible
  split
  · rfl
  · rename_i n at_
    rw [(inv.closed n at_).1, List.take_length]

omit [FloatReader] in
theorem Running.streams {s : StreamState} (inv : Running s)
    (fits : s.bus.bus.frames.length ≤ s.bus.bus.maxlen) : Streams s := by
  have subscribed : ∀ after i, .subscribed after i ∈ s.requests →
      ∃ sub, s.bus.bus.subs[i]? = some sub ∧ sub.yielded ++ sub.queue =
        (s.bus.bus.past after).map some ++ if s.bus.bus.closed then [none] else [] := by
    intro after i member
    obtain ⟨sub, found, rfl, since⟩ := inv.requests _ member
    obtain ⟨-, -, contents⟩ := inv.sound.subs sub (List.mem_of_getElem? found)
    exact ⟨sub, found, contents.trans (owed_past inv.sound fits inv.audible since)⟩
  have replayed : ∀ after frames, .replayed after frames ∈ s.requests →
      frames = .ok ((s.bus.bus.past after).map BusFrame.reloaded) :=
    fun after frames member => (inv.requests _ member).2
  -- both kinds of request deliver the same list
  have delivered : ∀ r ∈ s.requests, ∀ frames ∈ s.delivers r,
      frames = (s.bus.bus.past r.after).map BusFrame.reloaded := by
    intro r member frames delivers
    cases r with
    | live | finished => cases delivers
    | subscribed after i =>
      obtain ⟨sub, found, contents⟩ := subscribed after i member
      simp only [StreamState.delivers, found, Option.map_some, Option.mem_some_iff] at delivers
      have heard : (sub.yielded ++ sub.queue).reduceOption = s.bus.bus.past after := by
        rw [contents, List.reduceOption_append]
        split <;> simp [List.reduceOption, List.filterMap_map]
      rw [← delivers, heard]
      rfl
    | replayed after result =>
      rw [replayed after result member] at delivers
      exact (Option.some.inj delivers).symm
  refine ⟨fun after => inv.sound.increasing.filter _, subscribed, replayed, ?_⟩
  intro r member r' member' same frames delivers frames' delivers'
  rw [delivered r member frames delivers, delivered r' member' frames' delivers', same]

/-- A stream step is a step of the bus, if it touches the bus at all. -/
theorem streamStep_move {s s' : StreamState} {call : StreamCall} (step : StreamStep s call s') :
    BusMove s.bus.bus s'.bus.bus := by
  have moved {call : BusCall} {rest : BusState → StreamState} (same : ∀ bus, (rest bus).bus = bus)
      (taken : (s.bus.next call).map rest = some s') : BusMove s.bus.bus s'.bus.bus := by
    obtain ⟨bus, went, rfl⟩ := Option.map_eq_some_iff.mp taken
    rw [same]
    exact busStep_move went
  cases call with
  | emit | close =>
    simp only [StreamStep, StreamState.next] at step
    split at step
    · exact moved (fun _ => rfl) step
    · cases step
  | closing => exact moved (fun _ => rfl) step
  | exit =>
    simp only [StreamStep, StreamState.next] at step
    split at step
    · cases step
      exact .stay
    · cases step
  | request =>
    cases step
    exact .stay
  | serve | pull =>
    simp only [StreamStep, StreamState.next] at step
    split at step
    · exact moved (fun _ => rfl) step
    all_goals
      cases step
      try exact .stay

/-- Every client of a run that fits in the ring gets the run's frames past what it
asked for, whichever way it is served. -/
theorem stream_paths_agree {maxlen : ℕ} {calls : List StreamCall} {s : StreamState}
    (run : Transition.Run (Guarded Asked StreamStep) (.start maxlen) calls s)
    (fits : s.bus.bus.frames.length ≤ maxlen) : Streams s := by
  obtain ⟨inv, ring⟩ := run.invariant (fun s => Running s ∧ s.bus.bus.maxlen = maxlen)
    (fun _ _ _ inv step => ⟨running_step inv.1 step, by
      rw [(streamStep_move step.2).extends.maxlen, inv.2]⟩) ⟨running_start maxlen, rfl⟩
  exact inv.streams (by rw [ring]; exact fits)

end

section Sample
attribute [local instance] fractionRepr fractionReader

/-- One client follows the run, another comes after its end. -/
theorem stream_paths_agree_late :
    ∃ s : StreamState, s.alive = false ∧ s.requests.length = 2 ∧ Streams s := by
  obtain ⟨s, run, reached⟩ := exists_run
    (fun _ _ => of_decide_eq_true : ∀ s call, _ → Asked s call)
    (by decide +kernel : (play StreamState.next (fun s call => decide (Asked s call))
      [.emit "phase" .null 1, .request 1, .serve 0, .emit "lab" .null 2, .close, .closing 3,
        .pull 0, .closing 4, .exit, .request 1, .serve 1] (.start 5000)).any (fun s =>
        decide (s.alive = false ∧ s.requests.length = 2 ∧ s.bus.bus.frames.length ≤ 5000)) = true)
  obtain ⟨ended, two, fits⟩ := of_decide_eq_true reached
  exact ⟨s, ended, two, stream_paths_agree run fits⟩

end Sample

end Sentinel.LiveLab
