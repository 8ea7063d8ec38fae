import Mathlib.Data.List.Intervals
import Mathlib.Data.List.Chain
import Sentinel.LiveLab.Bus

/-! Delivery of the event bus. Whatever the calls and their interleaving, each
subscription holds the part of the ring that it asked for, every frame emitted
from then until the bus was closed, and one None once it is. -/
namespace Sentinel.LiveLab
open Python Transition

namespace EventBus

/-- The frames emitted until the bus was closed. -/
def audible (bus : EventBus) : List BusFrame :=
  match bus.closedAt with
  | none => bus.frames
  | some n => bus.frames.take n

/-- What a subscription gets that asked for the frames past `after` when there were
`since` of them. -/
def owed (bus : EventBus) (after : ℤ) (since : ℕ) : List (Option BusFrame) :=
  ((((bus.frames.take since).rtake bus.maxlen).filter fun f => after < f.seq) ++
    bus.audible.drop since).map some ++ if bus.closed then [none] else []

end EventBus

def Subscription.Served (bus : EventBus) (sub : Subscription) : Prop :=
  sub.attached = !bus.closed ∧ sub.since ≤ bus.frames.length ∧
    sub.contents = bus.owed sub.after sub.since

/-- What every reachable state of the bus satisfies. -/
structure EventBus.Sound (bus : EventBus) : Prop where
  seq : bus.seq = bus.frames.length
  numbered : bus.frames.map (fun f => f.seq) = List.range' 1 bus.frames.length
  ring : bus.ring = bus.frames.rtake bus.maxlen
  closed : bus.closed = bus.closedAt.isSome
  closedAt : ∀ n ∈ bus.closedAt, n ≤ bus.frames.length
  subs : ∀ sub ∈ bus.subs, sub.Served bus

/-- What a step does to the bus. -/
inductive BusMove [FloatRepr] (bus : EventBus) : EventBus → Prop where
  | stay : BusMove bus bus
  | emit (event data atMs) : BusMove bus (bus.emit event data atMs)
  | subscribe (after) : BusMove bus (bus.subscribe after)
  | get {i bus'} : bus.get i = some bus' → BusMove bus bus'
  | finish : BusMove bus bus.finish

section
variable [FloatRepr] {bus bus' : EventBus}

theorem busStep_move {s s' : BusState} {call : BusCall} (step : BusStep s call s') :
    BusMove s.bus s'.bus := by
  cases call with
  | emit event data atMs =>
    cases step
    exact .emit event data atMs
  | subscribe after =>
    cases step
    exact .subscribe after
  | get i =>
    obtain ⟨bus, taken, rfl⟩ := Option.map_eq_some_iff.mp step
    exact .get taken
  | close =>
    cases step
    exact .stay
  | closing j atMs =>
    simp only [BusStep, BusState.next] at step
    split at step
    · cases step
      exact .emit "done" (.dict []) atMs
    · cases step
      exact .finish
    · cases step

omit [FloatRepr] in
/-- A reader moves a frame from the queue to what it yielded, and nothing else. -/
theorem get_cases {i : ℕ} (taken : bus.get i = some bus') :
    ∃ sub sub', bus.subs[i]? = some sub ∧ sub.get = some sub' ∧
      bus' = { bus with subs := bus.subs.set i sub' } := by
  simp only [EventBus.get, bind, Option.bind_eq_some_iff, pure, Option.some.injEq] at taken
  obtain ⟨sub, found, sub', got, rfl⟩ := taken
  exact ⟨sub, sub', found, got, rfl⟩

omit [FloatRepr] in
theorem subscription_get {sub sub' : Subscription} (got : sub.get = some sub') :
    sub'.contents = sub.contents ∧ sub'.attached = sub.attached ∧ sub'.after = sub.after ∧
      sub'.since = sub.since := by
  unfold Subscription.get at got
  split at got
  · cases got
  · rename_i frame rest queue
    cases got
    simp [Subscription.contents, queue]

omit [FloatRepr] in
theorem sound_start (maxlen : ℕ) (journaled : Bool) : (BusState.start maxlen journaled).bus.Sound := by
  refine ⟨rfl, rfl, ?_, rfl, ?_, ?_⟩ <;> simp [BusState.start]

omit [FloatRepr] in
/-- A bounded deque holds the last elements of what went through it. -/
theorem rtake_push {α : Type} (list : List α) (a : α) (n : ℕ) :
    (list.rtake n ++ [a]).rtake n = (list ++ [a]).rtake n := by
  cases n with
  | zero => simp
  | succ n =>
    rw [List.rtake_concat_succ, List.rtake_concat_succ]
    simp [List.rtake_eq_reverse_take_reverse, List.take_take]

omit [FloatRepr] in
theorem closed_eq_false (sound : bus.Sound) (opened : bus.closed = false) : bus.closedAt = none := by
  rw [sound.closed] at opened
  simpa using opened

omit [FloatRepr] in
theorem closed_eq_true (sound : bus.Sound) (closed : bus.closed = true) :
    ∃ n, bus.closedAt = some n ∧ n ≤ bus.frames.length := by
  rw [sound.closed, Option.isSome_iff_exists] at closed
  obtain ⟨n, at_⟩ := closed
  exact ⟨n, at_, sound.closedAt n at_⟩

/-- A frame goes to who is attached, and that is who it is owed to. -/
theorem owed_emit (sound : bus.Sound) (event : String) (data : Json) (atMs after : ℤ) {since : ℕ}
    (earlier : since ≤ bus.frames.length) :
    (bus.emit event data atMs).owed after since =
      bus.owed after since ++ if bus.closed then [] else [some (bus.frame event data atMs)] := by
  cases closed : bus.closed with
  | false =>
    have none := closed_eq_false sound closed
    simp [EventBus.owed, EventBus.audible, none, EventBus.emit, closed,
      List.drop_append_of_le_length earlier, List.take_append_of_le_length earlier]
  | true =>
    obtain ⟨n, at_, bound⟩ := closed_eq_true sound closed
    simp [EventBus.owed, EventBus.audible, at_, EventBus.emit, closed,
      List.take_append_of_le_length earlier, List.take_append_of_le_length bound]

omit [FloatRepr] in
theorem put_contents (sub : Subscription) (frame : Option BusFrame) :
    (sub.put frame).contents = sub.contents ++ [frame] :=
  (List.append_assoc ..).symm

theorem Subscription.Served.emit {sub : Subscription} (served : sub.Served bus) (sound : bus.Sound)
    (event : String) (data : Json) (atMs : ℤ) :
    (if sub.attached then sub.put (some (bus.frame event data atMs)) else sub).Served
      (bus.emit event data atMs) := by
  obtain ⟨attached, since, contents⟩ := served
  have longer : sub.since ≤ (bus.emit event data atMs).frames.length :=
    since.trans (by simp [EventBus.emit])
  have owed := owed_emit sound event data atMs sub.after since
  cases closed : bus.closed with
  | false =>
    have on : sub.attached = true := by rw [attached, closed]; rfl
    rw [if_pos on]
    refine ⟨on.trans (by simp [EventBus.emit, closed]), longer, ?_⟩
    rw [put_contents, contents]
    exact (owed.trans (by rw [closed]; rfl)).symm
  | true =>
    have off : sub.attached = false := by rw [attached, closed]; rfl
    rw [off]
    refine ⟨off.trans (by simp [EventBus.emit, closed]), longer, contents.trans ?_⟩
    exact (owed.trans (by simp [closed])).symm

theorem EventBus.Sound.emit (sound : bus.Sound) (event : String) (data : Json) (atMs : ℤ) :
    (bus.emit event data atMs).Sound := by
  refine ⟨?_, ?_, ?_, sound.closed, ?_, ?_⟩
  · simp [EventBus.emit, sound.seq]
  · simp [EventBus.emit, sound.numbered, EventBus.frame, sound.seq, List.range'_concat, Nat.add_comm]
  · simp only [EventBus.emit, sound.ring]
    exact rtake_push _ _ _
  · exact fun n at_ => (sound.closedAt n at_).trans (by simp [EventBus.emit])
  · intro sub' member
    obtain ⟨sub, inSubs, rfl⟩ := List.mem_map.mp member
    exact (sound.subs sub inSubs).emit sound event data atMs

omit [FloatRepr] in
theorem EventBus.Sound.subscribe (sound : bus.Sound) (after : ℤ) : (bus.subscribe after).Sound := by
  refine ⟨sound.seq, sound.numbered, sound.ring, sound.closed, sound.closedAt, ?_⟩
  intro sub member
  rcases List.mem_append.mp member with old | new
  · exact sound.subs sub old
  · rw [List.mem_singleton.mp new]
    refine ⟨rfl, Nat.le_refl _, ?_⟩
    have past : bus.audible.drop bus.frames.length = [] := by
      rw [List.drop_eq_nil_iff]
      unfold EventBus.audible
      split
      · exact Nat.le_refl _
      · exact List.length_take_le' ..
    show [] ++ _ = (((bus.frames.take bus.frames.length).rtake bus.maxlen).filter _ ++ bus.audible.drop _).map some ++ _
    rw [past, List.take_length, List.append_nil, ← sound.ring]
    rfl

omit [FloatRepr] in
theorem EventBus.Sound.get (sound : bus.Sound) {i : ℕ} (taken : bus.get i = some bus') : bus'.Sound := by
  obtain ⟨sub, sub', found, got, rfl⟩ := get_cases taken
  refine ⟨sound.seq, sound.numbered, sound.ring, sound.closed, sound.closedAt, ?_⟩
  intro other member
  rcases List.mem_or_eq_of_mem_set member with old | rfl
  · exact sound.subs other old
  · obtain ⟨contents, attached, after, since⟩ := subscription_get got
    obtain ⟨attached', since', contents'⟩ := sound.subs sub (List.mem_of_getElem? found)
    refine ⟨attached.trans attached', by rw [since]; exact since', ?_⟩
    rw [contents, contents', after, since]
    rfl

omit [FloatRepr] in
theorem owed_finish (sound : bus.Sound) (after : ℤ) (since : ℕ) :
    bus.finish.owed after since = bus.owed after since ++ if bus.closed then [] else [none] := by
  cases closed : bus.closed with
  | false =>
    have none := closed_eq_false sound closed
    simp [EventBus.owed, EventBus.audible, none, EventBus.finish, closed]
  | true =>
    obtain ⟨n, at_, -⟩ := closed_eq_true sound closed
    simp [EventBus.owed, EventBus.audible, at_, EventBus.finish, closed]

omit [FloatRepr] in
theorem Subscription.Served.finish {sub : Subscription} (served : sub.Served bus)
    (sound : bus.Sound) :
    (if sub.attached then { sub.put none with attached := false } else sub).Served bus.finish := by
  obtain ⟨attached, since, contents⟩ := served
  have owed := owed_finish sound sub.after sub.since
  cases closed : bus.closed with
  | false =>
    have on : sub.attached = true := by rw [attached, closed]; rfl
    rw [if_pos on]
    refine ⟨rfl, since, ?_⟩
    rw [show ({ sub.put none with attached := false } : Subscription).contents =
      sub.contents ++ [none] from put_contents sub none, contents]
    exact (owed.trans (by rw [closed]; rfl)).symm
  | true =>
    have off : sub.attached = false := by rw [attached, closed]; rfl
    rw [off]
    refine ⟨off, since, contents.trans ?_⟩
    exact (owed.trans (by simp [closed])).symm

omit [FloatRepr] in
theorem EventBus.Sound.finish (sound : bus.Sound) : bus.finish.Sound := by
  refine ⟨sound.seq, sound.numbered, sound.ring, rfl, ?_, ?_⟩
  · intro n at_
    cases at_
    cases closed : bus.closedAt with
    | none => exact Nat.le_refl _
    | some n => exact sound.closedAt n closed
  · intro sub' member
    obtain ⟨sub, inSubs, rfl⟩ := List.mem_map.mp member
    exact (sound.subs sub inSubs).finish sound

theorem EventBus.Sound.step (sound : bus.Sound) (move : BusMove bus bus') : bus'.Sound := by
  cases move with
  | stay => exact sound
  | emit event data atMs => exact sound.emit event data atMs
  | subscribe after => exact sound.subscribe after
  | get taken => exact sound.get taken
  | finish => exact sound.finish

/-! ### Over a run -/

/-- What no step undoes: frames stay, and so does what a subscription asked for. -/
structure EventBus.Extends (bus bus' : EventBus) : Prop where
  maxlen : bus'.maxlen = bus.maxlen
  frames : bus.frames <+: bus'.frames
  subs : ∀ (i : ℕ) (sub : Subscription), bus.subs[i]? = some sub →
    ∃ sub' : Subscription, bus'.subs[i]? = some sub' ∧ sub'.after = sub.after ∧ sub'.since = sub.since

omit [FloatRepr] in
theorem EventBus.Extends.refl (bus : EventBus) : bus.Extends bus :=
  ⟨rfl, List.prefix_refl _, fun _ sub found => ⟨sub, found, rfl, rfl⟩⟩

omit [FloatRepr] in
theorem EventBus.Extends.trans {bus'' : EventBus} (first : bus.Extends bus')
    (later : bus'.Extends bus'') : bus.Extends bus'' := by
  refine ⟨later.maxlen.trans first.maxlen, first.frames.trans later.frames, ?_⟩
  intro i sub found
  obtain ⟨sub', found', after, since⟩ := first.subs i sub found
  obtain ⟨sub'', found'', after', since'⟩ := later.subs i sub' found'
  exact ⟨sub'', found'', after'.trans after, since'.trans since⟩

theorem BusMove.extends (move : BusMove bus bus') : bus.Extends bus' := by
  cases move with
  | stay => exact .refl bus
  | emit event data atMs =>
    refine ⟨rfl, List.prefix_append .., fun i sub found => ?_⟩
    refine ⟨_, by simp only [EventBus.emit, List.getElem?_map, found]; rfl, ?_⟩
    dsimp only
    split <;> exact ⟨rfl, rfl⟩
  | subscribe after =>
    refine ⟨rfl, List.prefix_refl _, fun i sub found => ⟨sub, ?_, rfl, rfl⟩⟩
    have inside : i < bus.subs.length := (List.getElem?_eq_some_iff.mp found).1
    simp only [EventBus.subscribe, List.getElem?_append_left inside, found]
  | get taken =>
    obtain ⟨read, read', found', got, rfl⟩ := get_cases taken
    obtain ⟨-, -, after, since⟩ := subscription_get got
    refine ⟨rfl, List.prefix_refl _, fun j sub found => ?_⟩
    rename_i i
    by_cases same : i = j
    · subst same
      cases found'.symm.trans found
      have inside : i < bus.subs.length := (List.getElem?_eq_some_iff.mp found).1
      exact ⟨read', by simp [inside], after, since⟩
    · exact ⟨sub, by simp [List.getElem?_set_ne same, found], rfl, rfl⟩
  | finish =>
    refine ⟨rfl, List.prefix_refl _, fun i sub found => ?_⟩
    refine ⟨_, by simp only [EventBus.finish, List.getElem?_map, found]; rfl, ?_⟩
    dsimp only
    split <;> exact ⟨rfl, rfl⟩

theorem sound_run {s s' : BusState} {calls : List BusCall} (run : Transition.Run BusStep s calls s')
    (sound : s.bus.Sound) : s'.bus.Sound ∧ s.bus.Extends s'.bus := by
  induction run with
  | refl => exact ⟨sound, .refl _⟩
  | next head _ ih =>
    have move := busStep_move head
    obtain ⟨after, extends_⟩ := ih (sound.step move)
    exact ⟨after, move.extends.trans extends_⟩

omit [FloatRepr] in
/-- What passes a test that, once passed, every later element passes. -/
theorem filter_suffix {α : Type} {p : α → Bool} {list : List α}
    (stays : list.Pairwise fun a b => p a = true → p b = true) : list.filter p <:+ list := by
  induction list with
  | nil => exact List.suffix_refl _
  | cons a list ih =>
    rw [List.pairwise_cons] at stays
    cases passed : p a with
    | false =>
      rw [List.filter_cons_of_neg (by simp [passed])]
      exact (ih stays.2).trans (List.suffix_cons a list)
    | true =>
      have all : ∀ b ∈ a :: list, p b = true := by
        intro b member
        rcases List.mem_cons.mp member with rfl | later
        · exact passed
        · exact stays.1 b later passed
      rw [List.filter_eq_self.mpr all]

/-- The numbers of the frames follow one another. -/
def Consecutive (frames : List BusFrame) : Prop := frames.IsChain fun f g => g.seq = f.seq + 1

omit [FloatRepr] in
theorem EventBus.Sound.consecutive (sound : bus.Sound) : Consecutive bus.frames := by
  have numbers := List.isChain_range' 1 bus.frames.length 1
  rw [← sound.numbered, List.isChain_map] at numbers
  exact numbers

omit [FloatRepr] in
theorem EventBus.Sound.increasing (sound : bus.Sound) :
    bus.frames.Pairwise fun f g => f.seq < g.seq := by
  have numbers := List.pairwise_lt_range' (s := 1) (n := bus.frames.length)
  rw [← sound.numbered, List.pairwise_map] at numbers
  exact numbers

omit [FloatRepr] in
theorem owed_part (sound : bus.Sound) (after : ℤ) (since : ℕ) :
    (((bus.frames.take since).rtake bus.maxlen).filter fun f => after < f.seq) ++
      bus.audible.drop since <:+: bus.frames := by
  have kept : ((bus.frames.take since).rtake bus.maxlen).filter (fun f => after < f.seq) <:+
      bus.frames.take since := by
    have suffix : (bus.frames.take since).rtake bus.maxlen <:+ bus.frames.take since :=
      List.drop_suffix ..
    refine List.IsSuffix.trans (filter_suffix ?_) suffix
    refine List.Pairwise.imp ?_
      ((sound.increasing.sublist (List.take_sublist since _)).sublist suffix.sublist)
    intro f g less passed
    simp only [decide_eq_true_eq] at passed ⊢
    omega
  have heard : bus.audible.drop since <+: bus.frames.drop since := by
    unfold EventBus.audible
    split
    · exact List.prefix_refl _
    · rw [List.drop_take]
      exact List.take_prefix ..
  obtain ⟨earlier, first⟩ := kept
  obtain ⟨rest, later⟩ := heard
  refine ⟨earlier, rest, ?_⟩
  rw [← List.append_assoc, first, List.append_assoc, later, List.take_append_drop]

/-- A subscription gets the backlog it asks for, every frame emitted until the bus is
closed, and one None once it is. -/
theorem subscription_delivery {maxlen : ℕ} {journaled : Bool} {s₀ s₁ s : BusState}
    {calls₀ calls : List BusCall} {after : ℤ}
    (before : Transition.Run BusStep (.start maxlen journaled) calls₀ s₀)
    (taken : BusStep s₀ (.subscribe after) s₁) (later : Transition.Run BusStep s₁ calls s) :
    ∃ sub frames, s.bus.subs[s₀.bus.subs.length]? = some sub ∧
      frames = s₀.bus.backlog after ++ s.bus.audible.drop s₀.bus.frames.length ∧
      Consecutive frames ∧
      sub.yielded ++ sub.queue = frames.map some ++ if s.bus.closed then [none] else [] := by
  obtain ⟨sound₀, -⟩ := sound_run before (sound_start maxlen journaled)
  have sound₁ := sound₀.step (busStep_move taken)
  obtain ⟨sound, grown⟩ := sound_run later sound₁
  cases taken
  obtain ⟨sub, found, after', since⟩ := grown.subs s₀.bus.subs.length _ (by
    simp only [EventBus.subscribe, List.getElem?_concat_length]
    rfl)
  obtain ⟨-, -, contents⟩ := sound.subs sub (List.mem_of_getElem? found)
  rw [after', since] at contents
  have backlog : s₀.bus.backlog after =
      ((s.bus.frames.take s₀.bus.frames.length).rtake s.bus.maxlen).filter fun f => after < f.seq := by
    have frames : s₀.bus.frames = s.bus.frames.take s₀.bus.frames.length :=
      List.prefix_iff_eq_take.mp grown.frames
    have maxlen : s.bus.maxlen = s₀.bus.maxlen := grown.maxlen
    rw [EventBus.backlog, sound₀.ring, ← frames, maxlen]
  refine ⟨sub, _, found, rfl, ?_, ?_⟩
  · rw [backlog]
    exact List.IsChain.infix sound.consecutive (owed_part sound after _)
  · rw [backlog]
    exact contents

end

section Sample
attribute [local instance] fractionRepr

/-- The client subscribes while `close` is between its sections. -/
theorem subscription_delivery_closing :
    ∃ (s : BusState) (sub : Subscription) (frames : List BusFrame), s.bus.subs[0]? = some sub ∧
      Consecutive frames ∧ sub.yielded ++ sub.queue = frames.map some ++ [none] := by
  have before : Transition.Run BusStep (.start 2 true)
      [.emit "phase" .null 1, .emit "lab" .null 2, .close] _ :=
    .next rfl (.next rfl (.next rfl (.refl _)))
  obtain ⟨sub, frames, found, -, consecutive, contents⟩ := subscription_delivery before
    (show BusStep _ (.subscribe 0) _ from rfl)
    (show Transition.Run BusStep _ [.closing 0 3, .get 0, .closing 0 4] _ from
      .next rfl (.next rfl (.next rfl (.refl _))))
  exact ⟨_, sub, frames, found, consecutive, contents⟩

end Sample

end Sentinel.LiveLab
