import Mathlib.Algebra.Order.Field.Rat
import Sentinel.Transition.Run
import Sentinel.Transition.TokenBucket

/-! The rate limiter that all callers of the API share. Its locked section is one
atomic step; a caller that finds no token sleeps outside the lock and tries again.
Times and tokens are exact. -/
namespace Sentinel.Agent
open Transition

structure RateLimiter where
  rate : ℚ
  capacity : ℤ
  tokens : ℚ
  last : ℚ

namespace RateLimiter

/-- `__init__`, whose clock reads `now`. -/
def init (ratePerSec : ℚ) (burst : ℤ) (now : ℚ) : RateLimiter :=
  { rate := ratePerSec, capacity := max 1 burst, tokens := (max 1 burst : ℤ), last := now }

/-- The locked section of `acquire`, and how long to sleep if it does not return. -/
def locked (l : RateLimiter) (now : ℚ) : RateLimiter × Option ℚ :=
  let tokens := min (l.capacity : ℚ) (l.tokens + (now - l.last) * l.rate)
  if tokens ≥ 1 then ({ l with tokens := tokens - 1, last := now }, none)
  else ({ l with tokens, last := now }, some ((1 - tokens) / l.rate))

end RateLimiter

/-- A call of `acquire`. -/
inductive Caller where
  | trying
  | sleeping (wait : ℚ)
  -- returned with a token, at this clock reading
  | granted (now : ℚ)
  -- returned without one
  | disabled
  deriving DecidableEq, Repr

/-- How `acquire` goes on after its locked section: it returns or sleeps. -/
def Caller.after (now : ℚ) : Option ℚ → Caller
  | none => .granted now
  | some wait => .sleeping wait

structure Limiting where
  limiter : RateLimiter
  callers : List Caller := []

inductive LimiterCall where
  | acquire
  | locked (i : ℕ) (now : ℚ)
  -- the sleep is over
  | wake (i : ℕ)

def Limiting.next (s : Limiting) : LimiterCall → Option Limiting
  | .acquire =>
    some { s with callers := s.callers ++ [if s.limiter.rate ≤ 0 then .disabled else .trying] }
  | .locked i now =>
    match s.callers[i]? with
    | some .trying =>
      let (limiter, wait) := s.limiter.locked now
      some ⟨limiter, s.callers.set i (.after now wait)⟩
    | _ => none
  | .wake i =>
    match s.callers[i]? with
    | some (.sleeping _) => some { s with callers := s.callers.set i .trying }
    | _ => none

def LimiterStep (s : Limiting) (call : LimiterCall) (s' : Limiting) : Prop := s.next call = some s'

/-- The clock does not go back. -/
def Forward (s : Limiting) : LimiterCall → Prop
  | .locked _ now => s.limiter.last ≤ now
  | .acquire | .wake _ => True

instance (s : Limiting) (call : LimiterCall) : Decidable (Forward s call) :=
  match call with
  | .locked _ now => inferInstanceAs (Decidable (s.limiter.last ≤ now))
  | .acquire | .wake _ => inferInstanceAs (Decidable True)

/-- Granted at a clock reading between `start` and `stop`. -/
def Caller.grantedWithin (start stop : ℚ) : Caller → Bool
  | .granted now => start ≤ now ∧ now ≤ stop
  | _ => false

/-! ### The limiter is a token bucket -/

def RateLimiter.bucket (l : RateLimiter) : TokenBucket ℚ := ⟨l.tokens, l.last⟩

/-- The locked section visits the bucket, and changes neither rate nor capacity. -/
theorem locked_visit (l : RateLimiter) (now : ℚ) :
    TokenBucket.Visit l.rate l.capacity now l.bucket (l.locked now).1.bucket
        (if (l.locked now).2 = none then 1 else 0) ∧
      (l.locked now).1.rate = l.rate ∧ (l.locked now).1.capacity = l.capacity := by
  by_cases enough : min (l.capacity : ℚ) (l.tokens + (now - l.last) * l.rate) ≥ 1
  · simp only [RateLimiter.locked, if_pos enough]
    exact ⟨.grant enough, trivial, trivial⟩
  · simp only [RateLimiter.locked, if_neg enough]
    exact ⟨.wait (not_le.mp enough), trivial, trivial⟩

/-- What a run keeps, for each window of time. -/
structure Bounded (rate capacity start stop : ℚ) (s : Limiting) : Prop where
  sameRate : s.limiter.rate = rate
  sameCapacity : s.limiter.capacity = capacity
  within : s.limiter.bucket.Within capacity
  spent : TokenBucket.Spent rate capacity start stop s.limiter.bucket
    (s.callers.countP (Caller.grantedWithin start stop))

variable {rate capacity start stop t : ℚ} {burst : ℤ} {s s' : Limiting}

theorem bounded_start (positive : 0 < rate) (order : start ≤ stop) :
    Bounded rate (max 1 burst : ℤ) start stop { limiter := .init rate burst t } := by
  have nonneg : (0 : ℚ) ≤ (max 1 burst : ℤ) := by
    exact_mod_cast zero_le_one.trans (le_max_left 1 burst)
  have within : (RateLimiter.init rate burst t).bucket.Within ((max 1 burst : ℤ) : ℚ) :=
    ⟨nonneg, le_rfl⟩
  exact ⟨rfl, rfl, within, .zero within positive.le order⟩

/-- One caller goes on that was not granted a token yet. -/
theorem countP_after {callers : List Caller} {i : ℕ} (trying : callers[i]? = some .trying)
    (now : ℚ) (wait : Option ℚ) :
    (callers.set i (.after now wait)).countP (Caller.grantedWithin start stop) =
      callers.countP (Caller.grantedWithin start stop) +
        if start ≤ now ∧ now ≤ stop then if wait = none then 1 else 0 else 0 := by
  obtain ⟨inside, here⟩ := List.getElem?_eq_some_iff.mp trying
  rw [List.countP_set inside, here]
  cases wait with
  | none => simp [Caller.after, Caller.grantedWithin]
  | some wait => simp [Caller.after, Caller.grantedWithin]

theorem bounded_step {call : LimiterCall} (positive : 0 < rate)
    (bounded : Bounded rate capacity start stop s)
    (step : Guarded Forward LimiterStep s call s') : Bounded rate capacity start stop s' := by
  obtain ⟨forward, taken⟩ := step
  obtain ⟨rfl, rfl, within, spent⟩ := bounded
  cases call with
  | acquire =>
    cases taken
    refine ⟨rfl, rfl, within, ?_⟩
    have none : [if s.limiter.rate ≤ 0 then Caller.disabled else .trying].countP
        (Caller.grantedWithin start stop) = 0 := by
      split <;> rfl
    rw [List.countP_append, none]
    exact spent
  | locked i now =>
    simp only [LimiterStep, Limiting.next] at taken
    split at taken
    · rename_i trying
      cases taken
      obtain ⟨visit, sameRate, sameCapacity⟩ := locked_visit s.limiter now
      refine ⟨sameRate, congrArg Int.cast sameCapacity, within.visit positive.le forward visit, ?_⟩
      rw [countP_after trying]
      exact spent.visit within positive.le forward visit
    · cases taken
  | wake i =>
    simp only [LimiterStep, Limiting.next] at taken
    split at taken
    · rename_i wait sleeping
      cases taken
      obtain ⟨inside, here⟩ := List.getElem?_eq_some_iff.mp sleeping
      refine ⟨rfl, rfl, within, ?_⟩
      rw [List.countP_set inside, here]
      exact spent
    · cases taken

/-- However the callers interleave, the tokens stay within the bucket and a window of
time sees no more grants than the bucket holds and the rate gives. -/
theorem token_bucket_bound {calls : List LimiterCall} (positive : 0 < rate)
    (run : Transition.Run (Guarded Forward LimiterStep) { limiter := .init rate burst t } calls s) :
    (0 ≤ s.limiter.tokens ∧ s.limiter.tokens ≤ (max 1 burst : ℤ)) ∧
      ∀ start stop : ℚ, start ≤ stop →
        s.callers.countP (Caller.grantedWithin start stop) ≤
          (max 1 burst : ℤ) + rate * (stop - start) := by
  have bounded : ∀ start stop : ℚ, start ≤ stop →
      Bounded rate (max 1 burst : ℤ) start stop s := fun start stop order =>
    run.invariant (Bounded rate (max 1 burst : ℤ) start stop)
      (fun _ _ _ bounded step => bounded_step positive bounded step) (bounded_start positive order)
  refine ⟨?_, fun start stop order => (bounded start stop order).spent.bound⟩
  have within := (bounded 0 0 le_rfl).within
  exact ⟨within.nonneg, within.le⟩

/-- Three callers and two tokens: the third sleeps and is granted a later one. -/
theorem token_bucket_bound_three : ∃ s : Limiting,
    s.callers = [.granted 0, .granted (1 / 4), .granted 1] ∧
      (0 ≤ s.limiter.tokens ∧ s.limiter.tokens ≤ (max 1 2 : ℤ)) ∧
      ∀ start stop : ℚ, start ≤ stop →
        s.callers.countP (Caller.grantedWithin start stop) ≤
          (max 1 2 : ℤ) + 1 * (stop - start) := by
  obtain ⟨s, run, reached⟩ := exists_run
    (fun _ _ => of_decide_eq_true : ∀ s call, _ → Forward s call)
    (by decide +kernel : (play Limiting.next (fun s call => decide (Forward s call))
      [.acquire, .acquire, .acquire, .locked 0 0, .locked 1 (1 / 4), .locked 2 (1 / 2), .wake 2,
        .locked 2 1] { limiter := .init 1 2 0 }).any (fun s =>
        decide (s.callers = [.granted 0, .granted (1 / 4), .granted 1])) = true)
  exact ⟨s, of_decide_eq_true reached, token_bucket_bound one_pos run⟩

end Sentinel.Agent
