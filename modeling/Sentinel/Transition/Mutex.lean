import Mathlib.Logic.Function.Basic
import Sentinel.Transition.Run

/-! Calls of many threads whose bodies run under one lock. The body of a call works in small
steps that check nothing; that no other thread works meanwhile is what the lock is for. In any
interleaving the calls take effect one after the other, in the order they took the lock. -/
namespace Transition

variable {σ ℓ C ι : Type}

/-- The state of the threads: what they share, who holds the lock, how far each body has
come, and the calls still to be made. The calls that took the lock stay on record. -/
structure Mutex (σ ℓ C ι : Type) where
  shared : σ
  holder : Option ι
  inside : ι → Option ℓ
  todo : ι → List C
  entered : List (ι × C)

inductive LockStep (ι : Type) where
  | acquire (i : ι)
  | work (i : ι)
  | release (i : ι)

/-- The bodies: where a call starts, and its next step, with none at its end. -/
structure Body (σ ℓ C : Type) where
  enter : C → ℓ
  work : σ → ℓ → Option (σ × ℓ)

namespace Body
variable (body : Body σ ℓ C)

/-- Steps of one body, undisturbed. -/
inductive Works : σ → ℓ → σ → ℓ → Prop where
  | refl (s l) : Works s l s l
  | step {s l t m u n} : Works s l t m → body.work t m = some (u, n) → Works s l u n

/-- The calls one after the other. -/
inductive Serial (start : σ) : List C → σ → Prop where
  | nil : Serial start [] start
  | call {cs s c t l} : Serial start cs s → body.Works s (body.enter c) t l →
      body.work t l = none → Serial start (cs ++ [c]) t

end Body

namespace Mutex

def start (shared : σ) (programs : ι → List C) : Mutex σ ℓ C ι :=
  ⟨shared, none, fun _ => none, programs, []⟩

variable [DecidableEq ι]

def next (body : Body σ ℓ C) (s : Mutex σ ℓ C ι) : LockStep ι → Option (Mutex σ ℓ C ι)
  | .acquire i =>
    match s.holder, s.inside i, s.todo i with
    | none, none, c :: rest => some { s with
        holder := some i
        inside := Function.update s.inside i (some (body.enter c))
        todo := Function.update s.todo i rest
        entered := s.entered ++ [(i, c)] }
    | _, _, _ => none
  | .work i =>
    match s.inside i with
    | some l => (body.work s.shared l).map fun (shared, m) =>
        { s with shared, inside := Function.update s.inside i (some m) }
    | none => none
  | .release i =>
    match s.inside i with
    | some l => if (body.work s.shared l).isNone then
        some { s with holder := none, inside := Function.update s.inside i none }
      else none
    | none => none

variable {body : Body σ ℓ C} {s t : Mutex σ ℓ C ι} {i : ι}

theorem next_acquire (taken : s.next body (.acquire i) = some t) : s.holder = none ∧
    s.inside i = none ∧ ∃ c rest, s.todo i = c :: rest ∧ t = { s with
      holder := some i
      inside := Function.update s.inside i (some (body.enter c))
      todo := Function.update s.todo i rest
      entered := s.entered ++ [(i, c)] } := by
  simp only [next] at taken
  split at taken
  · exact ⟨‹_›, ‹_›, _, _, ‹_›, (Option.some.inj taken).symm⟩
  · cases taken

theorem next_work (taken : s.next body (.work i) = some t) : ∃ l shared m, s.inside i = some l ∧
    body.work s.shared l = some (shared, m) ∧
      t = { s with shared, inside := Function.update s.inside i (some m) } := by
  simp only [next] at taken
  split at taken
  · obtain ⟨⟨shared, m⟩, worked, same⟩ := Option.map_eq_some_iff.mp taken
    exact ⟨_, shared, m, ‹_›, worked, same.symm⟩
  · cases taken

theorem next_release (taken : s.next body (.release i) = some t) : ∃ l, s.inside i = some l ∧
    body.work s.shared l = none ∧
      t = { s with holder := none, inside := Function.update s.inside i none } := by
  simp only [next] at taken
  split at taken
  · split at taken
    · exact ⟨_, ‹_›, Option.isNone_iff_eq_none.mp ‹_›, (Option.some.inj taken).symm⟩
    · cases taken
  · cases taken

/-- The calls have taken effect in the order they took the lock, and a thread that holds it
has done part of its last one. -/
structure Serialized (body : Body σ ℓ C) (start : σ) (programs : ι → List C)
    (s : Mutex σ ℓ C ι) : Prop where
  order : ∀ i, (s.entered.filter fun call => call.1 = i).map Prod.snd ++ s.todo i = programs i
  free : s.holder = none → (∀ i, s.inside i = none) ∧
    body.Serial start (s.entered.map Prod.snd) s.shared
  held : ∀ i, s.holder = some i → ∃ earlier c before l, s.entered = earlier ++ [(i, c)] ∧
    body.Serial start (earlier.map Prod.snd) before ∧ s.inside i = some l ∧
      body.Works before (body.enter c) s.shared l ∧ ∀ j, j ≠ i → s.inside j = none

variable {start : σ} {programs : ι → List C}

/-- Who works holds the lock. -/
theorem Serialized.holds (inv : Serialized body start programs s) {l : ℓ} (working : s.inside i = some l) :
    s.holder = some i := by
  cases holds : s.holder with
  | none =>
    rw [(inv.free holds).1 i] at working
    cases working
  | some j =>
    obtain ⟨_, _, _, _, _, _, _, _, others⟩ := inv.held j holds
    by_cases same : i = j
    · rw [same]
    · rw [others i same] at working
      cases working

theorem serialized_start : Serialized body start programs (Mutex.start start programs) where
  order _ := rfl
  free _ := ⟨fun _ => rfl, .nil⟩
  held := by rintro i ⟨⟩

theorem serialized_step {label : LockStep ι} (inv : Serialized body start programs s)
    (taken : s.next body label = some t) : Serialized body start programs t := by
  cases label with
  | acquire i =>
    obtain ⟨free, idle, c, rest, waiting, rfl⟩ := next_acquire taken
    obtain ⟨nobody, serial⟩ := inv.free free
    constructor
    · intro j
      have order := inv.order j
      by_cases same : j = i
      · subst same
        rw [waiting] at order
        simpa using order
      · have other : i ≠ j := fun h => same h.symm
        simpa [same, other] using order
    · rintro ⟨⟩
    · rintro j ⟨⟩
      refine ⟨s.entered, c, s.shared, body.enter c, rfl, serial, by simp, .refl _ _, ?_⟩
      exact fun k other => (Function.update_of_ne other _ _).trans (nobody k)
  | work i =>
    obtain ⟨l, shared, m, working, worked, rfl⟩ := next_work taken
    have holds := inv.holds working
    constructor
    · exact inv.order
    · intro free
      rw [holds] at free
      cases free
    · intro j isHolder
      obtain rfl : i = j := Option.some.inj (holds.symm.trans isHolder)
      obtain ⟨earlier, c, before, l', split, serial, inside, works, others⟩ := inv.held i holds
      obtain rfl : l' = l := Option.some.inj (inside.symm.trans working)
      refine ⟨earlier, c, before, m, split, serial, by simp, works.step worked, ?_⟩
      exact fun k other => (Function.update_of_ne other _ _).trans (others k other)
  | release i =>
    obtain ⟨l, working, ended, rfl⟩ := next_release taken
    obtain ⟨earlier, c, before, l', split, serial, inside, works, others⟩ :=
      inv.held i (inv.holds working)
    obtain rfl : l' = l := Option.some.inj (inside.symm.trans working)
    constructor
    · exact inv.order
    · refine fun _ => ⟨fun j => ?_, ?_⟩
      · by_cases same : j = i
        · subst same
          exact Function.update_self _ _ _
        · exact (Function.update_of_ne same _ _).trans (others j same)
      · rw [split, List.map_append]
        exact .call serial works ended
    · rintro j ⟨⟩

/-- In every interleaving the bodies take effect one after the other. -/
theorem serialized_run {labels : List (LockStep ι)}
    (run : Run (fun s label t => s.next body label = some t) (Mutex.start start programs) labels s) :
    Serialized body start programs s :=
  run.invariant _ (fun _ _ _ inv taken => serialized_step inv taken) serialized_start

end Mutex
end Transition
