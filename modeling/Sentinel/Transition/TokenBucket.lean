import Mathlib.Algebra.Order.Ring.Defs
import Mathlib.Tactic.Linarith
import Mathlib.Tactic.Ring

/-! Token buckets over an ordered ring. A visit at some time refills the bucket up to
its capacity and takes a token if there is one. Tokens not yet used pay for the grants
of a time window: what was granted in it and what is left in the bucket together never
exceed the capacity and what the rate gave meanwhile. -/
namespace Transition

structure TokenBucket (K : Type*) where
  tokens : K
  last : K

namespace TokenBucket
variable {K : Type*} [CommRing K] [LinearOrder K] [IsStrictOrderedRing K]
variable {rate capacity now : K} {b b' : TokenBucket K} {granted : ℕ}

def refill (b : TokenBucket K) (rate capacity now : K) : TokenBucket K :=
  ⟨min capacity (b.tokens + (now - b.last) * rate), now⟩

/-- A visit at `now`, and how many tokens it takes. -/
inductive Visit (rate capacity now : K) (b : TokenBucket K) : TokenBucket K → ℕ → Prop where
  | grant : 1 ≤ (b.refill rate capacity now).tokens →
      Visit rate capacity now b ⟨(b.refill rate capacity now).tokens - 1, now⟩ 1
  | wait : (b.refill rate capacity now).tokens < 1 →
      Visit rate capacity now b (b.refill rate capacity now) 0

omit [IsStrictOrderedRing K] in
theorem Visit.last (visit : Visit rate capacity now b b' granted) : b'.last = now := by
  cases visit <;> rfl

omit [IsStrictOrderedRing K] in
/-- The tokens after a visit and those it took are those of the refill. -/
theorem Visit.paid (visit : Visit rate capacity now b b' granted) :
    granted + b'.tokens = (b.refill rate capacity now).tokens := by
  cases visit with
  | grant => simp
  | wait => simp

structure Within (capacity : K) (b : TokenBucket K) : Prop where
  nonneg : 0 ≤ b.tokens
  le : b.tokens ≤ capacity

theorem Within.visit (within : b.Within capacity) (rated : 0 ≤ rate) (forward : b.last ≤ now)
    (visit : Visit rate capacity now b b' granted) : b'.Within capacity := by
  have gained : 0 ≤ (now - b.last) * rate := mul_nonneg (sub_nonneg.mpr forward) rated
  have refilled : 0 ≤ (b.refill rate capacity now).tokens :=
    le_min (within.nonneg.trans within.le) (add_nonneg within.nonneg gained)
  have capped : (b.refill rate capacity now).tokens ≤ capacity := min_le_left _ _
  cases visit with
  | grant enough => exact ⟨sub_nonneg.mpr enough, by linarith⟩
  | wait => exact ⟨refilled, capped⟩

/-- `n` tokens were granted between `start` and `stop`. Up to `stop` the bucket still
holds what the window did not use. -/
structure Spent (rate capacity start stop : K) (b : TokenBucket K) (n : ℕ) : Prop where
  before : b.last < start → n = 0
  inside : start ≤ b.last → b.last ≤ stop → n + b.tokens ≤ capacity + rate * (b.last - start)
  bound : (n : K) ≤ capacity + rate * (stop - start)

variable {start stop : K} {n : ℕ}

/-- Nothing was granted yet. -/
theorem Spent.zero (within : b.Within capacity) (rated : 0 ≤ rate) (order : start ≤ stop) :
    Spent rate capacity start stop b 0 := by
  have nonneg : 0 ≤ rate * (stop - start) := mul_nonneg rated (sub_nonneg.mpr order)
  refine ⟨fun _ => rfl, fun begun _ => ?_, ?_⟩
  · have gained : 0 ≤ rate * (b.last - start) := mul_nonneg rated (sub_nonneg.mpr begun)
    have := within.le
    rw [Nat.cast_zero]
    linarith
  · have := within.nonneg.trans within.le
    rw [Nat.cast_zero]
    linarith

/-- A visit within the window. -/
theorem Spent.inside_visit (spent : Spent rate capacity start stop b n) (rated : 0 ≤ rate)
    (forward : b.last ≤ now) (begun : start ≤ now) (running : now ≤ stop)
    (visit : Visit rate capacity now b b' granted) :
    ((n + granted : ℕ) : K) + b'.tokens ≤ capacity + rate * (now - start) := by
  have paid := visit.paid
  have capped : (b.refill rate capacity now).tokens ≤ capacity := min_le_left _ _
  have refilled : (b.refill rate capacity now).tokens ≤ b.tokens + (now - b.last) * rate :=
    min_le_right _ _
  push_cast
  rcases lt_or_ge b.last start with early | late
  · have gained : 0 ≤ rate * (now - start) := mul_nonneg rated (sub_nonneg.mpr begun)
    rw [spent.before early, Nat.cast_zero]
    linarith
  · have earlier := spent.inside late (forward.trans running)
    have split : rate * (now - start) = rate * (b.last - start) + (now - b.last) * rate := by ring
    linarith

theorem Spent.visit (spent : Spent rate capacity start stop b n) (within : b.Within capacity)
    (rated : 0 ≤ rate) (forward : b.last ≤ now) (visit : Visit rate capacity now b b' granted) :
    Spent rate capacity start stop b' (n + if start ≤ now ∧ now ≤ stop then granted else 0) := by
  have last := visit.last
  by_cases window : start ≤ now ∧ now ≤ stop
  · have paid := spent.inside_visit rated forward window.1 window.2 visit
    have left := (within.visit rated forward visit).nonneg
    have grown : rate * (now - start) ≤ rate * (stop - start) :=
      mul_le_mul_of_nonneg_left (sub_le_sub_right window.2 start) rated
    rw [if_pos window]
    refine ⟨fun early => absurd window.1 (not_le.mpr (last ▸ early)), fun _ _ => ?_, ?_⟩
    · rw [last]
      exact paid
    · linarith
  · rw [if_neg window, Nat.add_zero]
    refine ⟨fun early => spent.before (forward.trans_lt (last ▸ early)), fun begun running => ?_,
      spent.bound⟩
    rw [last] at begun running
    exact absurd ⟨begun, running⟩ window

end TokenBucket

end Transition
