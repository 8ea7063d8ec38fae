import Mathlib.Control.Basic
import Mathlib.Data.List.Basic
import Mathlib.Data.List.Forall2

/-! Code that calls out. A call changes the world and may raise, whatever the world, and
the calls under watch are logged when they are attempted, before their outcome. -/
namespace Transition

/-- Code over the world `W` that raises `X`, logs `E` and returns `A`. -/
def Calls (X E W A : Type) : Type := W × List E → Except X A × (W × List E)

namespace Calls
variable {X E W A B : Type}

instance : Monad (Calls X E W) where
  pure a s := (.ok a, s)
  bind code next s :=
    match code s with
    | (.ok a, t) => next a t
    | (.error e, t) => (.error e, t)

theorem bind_apply (code : Calls X E W A) (next : A → Calls X E W B) (s : W × List E) :
    (code >>= next) s =
      match code s with
      | (.ok a, t) => next a t
      | (.error e, t) => (.error e, t) := rfl

instance : LawfulMonad (Calls X E W) := by
  refine LawfulMonad.mk' _ (fun code => ?_) (fun _ _ => rfl) (fun code _ _ => ?_)
  · funext s
    simp only [Functor.map]
    rcases code s with ⟨_ | _, _⟩ <;> rfl
  · funext s
    simp only [bind_apply]
    rcases code s with ⟨_ | _, _⟩ <;> rfl

/-- A call that is not under watch. -/
def call (act : W → Except X A × W) : Calls X E W A := fun (w, log) =>
  let (result, w') := act w
  (result, w', log)

/-- A call under watch. -/
def logged (op : E) (act : W → Except X A × W) : Calls X E W A := fun (w, log) =>
  let (result, w') := act w
  (result, w', log ++ [op])

/-- A computation that calls nothing. -/
def lift (result : Except X A) : Calls X E W A := fun s => (result, s)

theorem lift_bind (result : Except X A) (next : A → Except X B) :
    (lift (result >>= next) : Calls X E W B) = lift result >>= fun a => lift (next a) := by
  cases result <;> rfl

/-- `try: body finally: cleanup`. What the cleanup raises replaces what the body did. -/
def tryFinally (body : Calls X E W A) (cleanup : Calls X E W B) : Calls X E W A := fun s =>
  let (result, t) := body s
  match cleanup t with
  | (.ok _, u) => (result, u)
  | (.error e, u) => (.error e, u)

/-- `[code(a) for a in xs]`. -/
def forEach (code : A → Calls X E W B) : List A → Calls X E W (List B)
  | [] => pure []
  | a :: rest => do
    let b ← code a
    let bs ← forEach code rest
    pure (b :: bs)

/-- `for a in xs: state = code(state, a)`. -/
def loop (code : B → A → Calls X E W B) : B → List A → Calls X E W B
  | b, [] => pure b
  | b, a :: rest => do
    let b ← code b a
    loop code b rest

/-- The log after the code has returned or raised. -/
def log (code : Calls X E W A) (s : W × List E) : List E := (code s).2.2

def Returns (code : Calls X E W A) (s : W × List E) : Prop := ∃ a t, code s = (.ok a, t)

/-- The code attempts no call under watch. -/
def Silent (code : Calls X E W A) : Prop := ∀ s, code.log s = s.2

theorem silent_pure (a : A) : Silent (pure a : Calls X E W A) := fun _ => rfl

theorem silent_call (act : W → Except X A × W) : Silent (call act : Calls X E W A) := fun _ => rfl

theorem silent_lift (result : Except X A) : Silent (lift result : Calls X E W A) := fun _ => rfl

theorem log_bind_of_silent {code : Calls X E W A} {next : A → Calls X E W B}
    (silent : ∀ a, Silent (next a)) (s : W × List E) : (code >>= next).log s = code.log s := by
  rw [log, bind_apply, log]
  rcases code s with ⟨e | a, t⟩
  · rfl
  · exact silent a t

theorem Silent.bind {code : Calls X E W A} {next : A → Calls X E W B} (first : Silent code)
    (later : ∀ a, Silent (next a)) : Silent (code >>= next) := by
  intro s
  rw [log_bind_of_silent later]
  exact first s

/-- The code takes the world along the relation only, whether it returns or raises. -/
def Moves (R : W → W → Prop) (code : Calls X E W A) : Prop := ∀ s, R s.1 (code s).2.1

theorem moves_pure {R : W → W → Prop} (refl : ∀ w, R w w) (a : A) :
    Moves R (pure a : Calls X E W A) := fun s => refl s.1

theorem moves_lift {R : W → W → Prop} (refl : ∀ w, R w w) (result : Except X A) :
    Moves R (lift result : Calls X E W A) := fun s => refl s.1

theorem Moves.bind {R : W → W → Prop} (trans : ∀ u v w, R u v → R v w → R u w)
    {code : Calls X E W A} {next : A → Calls X E W B} (first : Moves R code)
    (later : ∀ a, Moves R (next a)) : Moves R (code >>= next) := by
  intro s
  rw [bind_apply]
  have moved := first s
  rcases result : code s with ⟨e | a, t⟩
  all_goals rw [result] at moved
  · exact moved
  · exact trans _ _ _ moved (later a t)

theorem moves_forEach {R : W → W → Prop} (refl : ∀ w, R w w)
    (trans : ∀ u v w, R u v → R v w → R u w) {code : A → Calls X E W B}
    (each : ∀ a, Moves R (code a)) (xs : List A) : Moves R (forEach code xs) := by
  induction xs with
  | nil => exact moves_pure refl []
  | cons a rest ih =>
    exact Moves.bind trans (each a) fun b => Moves.bind trans ih fun bs => moves_pure refl (b :: bs)

/-- What holds of the items done and the value so far, where every step returns and keeps
it, holds of all the items and the value of the loop. -/
theorem loop_returns {code : B → A → Calls X E W B} (inv : List A → B → Prop)
    (step : ∀ done b a s, inv done b → ∃ c t, code b a s = (.ok c, t) ∧ inv (done ++ [a]) c)
    {done : List A} {b : B} (kept : inv done b) (xs : List A) (s : W × List E) :
    ∃ c t, loop code b xs s = (.ok c, t) ∧ inv (done ++ xs) c := by
  induction xs generalizing done b s with
  | nil => exact ⟨b, s, rfl, (List.append_nil done).symm ▸ kept⟩
  | cons a rest ih =>
    obtain ⟨c, t, returned, next⟩ := step done b a s kept
    obtain ⟨d, u, finished, held⟩ := ih next t
    refine ⟨d, u, ?_, ?_⟩
    · rw [loop, bind_apply, returned]
      exact finished
    · rwa [List.append_assoc, List.singleton_append] at held

theorem log_logged (op : E) (act : W → Except X A × W) (s : W × List E) :
    (logged op act).log s = s.2 ++ [op] := rfl

/-- What the cleanup logs comes last, whether the body returns or raises. -/
theorem log_tryFinally (body : Calls X E W A) (cleanup : Calls X E W B) (s : W × List E) :
    (tryFinally body cleanup).log s = cleanup.log (body s).2 := by
  simp only [log, tryFinally]
  rcases cleanup (body s).2 with ⟨_ | _, _⟩ <;> rfl

/-- Code after code that raises is not reached. -/
theorem log_bind_of_raises {code : Calls X E W A} {next : A → Calls X E W B} {s : W × List E}
    (raises : ¬ Returns code s) : (code >>= next).log s = code.log s := by
  rw [log, bind_apply, log]
  rcases result : code s with ⟨e | a, t⟩
  · rfl
  · exact absurd ⟨a, t, result⟩ raises

theorem bind_of_returns {code : Calls X E W A} {next : A → Calls X E W B} {s t : W × List E} {a : A}
    (returned : code s = (.ok a, t)) : (code >>= next) s = next a t := by
  rw [bind_apply, returned]

/-- Code that returns got there by what its first part returned. -/
theorem returned_of_bind {code : Calls X E W A} {next : A → Calls X E W B} {s t : W × List E} {b : B}
    (returned : (code >>= next) s = (.ok b, t)) :
    ∃ a u, code s = (.ok a, u) ∧ next a u = (.ok b, t) := by
  rw [bind_apply] at returned
  rcases result : code s with ⟨e | a, u⟩
  all_goals rw [result] at returned
  · cases returned
  · exact ⟨a, u, rfl, returned⟩

theorem Silent.unchanged {code : Calls X E W A} (silent : Silent code) {s t : W × List E}
    {result : Except X A} (ran : code s = (result, t)) : t.2 = s.2 := by
  have same := silent s
  rwa [log, ran] at same

theorem logged_appends {op : E} {act : W → Except X A × W} {s t : W × List E} {result : Except X A}
    (ran : logged op act s = (result, t)) : t.2 = s.2 ++ [op] := by
  have appended := log_logged op act s
  rwa [log, ran] at appended

theorem call_of_returns {act : W → Except X A × W} {s : W × List E} {a : A}
    (returned : (act s.1).1 = .ok a) : call act s = (.ok a, ((act s.1).2, s.2)) := by
  rw [← returned]
  rfl

theorem bind_of_raises {code : Calls X E W A} {next : A → Calls X E W B} {s t : W × List E} {e : X}
    (raised : code s = (.error e, t)) : (code >>= next) s = (.error e, t) := by
  rw [bind_apply, raised]

theorem log_bind_of_returns {code : Calls X E W A} {next : A → Calls X E W B}
    {s t : W × List E} {a : A} (returned : code s = (.ok a, t)) :
    (code >>= next).log s = (next a).log t := by
  rw [log, bind_of_returns returned, log]

/-- `try: a = code except ..:` of the exceptions that `catches` tells. -/
def catching (catches : X → Bool) (code : Calls X E W A) : Calls X E W (Except X A) := fun s =>
  match code s with
  | (.ok a, t) => (.ok (.ok a), t)
  | (.error e, t) => if catches e then (.ok (.error e), t) else (.error e, t)

theorem catching_of_returns {catches : X → Bool} {code : Calls X E W A} {s t : W × List E} {a : A}
    (returned : code s = (.ok a, t)) : catching catches code s = (.ok (.ok a), t) := by
  rw [catching, returned]

theorem catching_of_caught {catches : X → Bool} {code : Calls X E W A} {s t : W × List E} {e : X}
    (raised : code s = (.error e, t)) (caught : catches e = true) :
    catching catches code s = (.ok (.error e), t) := by
  rw [catching, raised]
  exact if_pos caught

theorem catching_of_uncaught {catches : X → Bool} {code : Calls X E W A} {s t : W × List E} {e : X}
    (raised : code s = (.error e, t)) (uncaught : catches e = false) :
    catching catches code s = (.error e, t) := by
  rw [catching, raised]
  exact if_neg (Bool.eq_false_iff.mp uncaught)

/-- What the code returns, where it returns, is as told. -/
def Yields (P : A → Prop) (code : Calls X E W A) : Prop := ∀ s a t, code s = (.ok a, t) → P a

theorem yields_pure {P : A → Prop} {a : A} (told : P a) : Yields P (pure a : Calls X E W A) := by
  rintro s _ _ ⟨⟩
  exact told

theorem yields_lift {P : A → Prop} {result : Except X A} (told : ∀ a, result = .ok a → P a) :
    Yields P (lift result : Calls X E W A) := by
  intro s a t returned
  exact told a (congrArg Prod.fst returned)

theorem Yields.bind {P : A → Prop} {Q : B → Prop} {code : Calls X E W A} {next : A → Calls X E W B}
    (first : Yields P code) (later : ∀ a, P a → Yields Q (next a)) : Yields Q (code >>= next) := by
  intro s b t returned
  obtain ⟨a, u, begun, ended⟩ := returned_of_bind returned
  exact later a (first s a u begun) u b t ended

theorem yields_any (code : Calls X E W A) : Yields (fun _ => True) code := fun _ _ _ _ => trivial

theorem yields_forEach {R : A → B → Prop} {code : A → Calls X E W B} {xs : List A}
    (each : ∀ a ∈ xs, Yields (R a) (code a)) : Yields (List.Forall₂ R xs) (forEach code xs) := by
  induction xs with
  | nil => exact yields_pure .nil
  | cons a rest ih =>
    rw [List.forall_mem_cons] at each
    exact each.1.bind fun b first => (ih each.2).bind fun bs later => yields_pure (.cons first later)

theorem yields_loop (inv : List A → B → Prop) {code : B → A → Calls X E W B}
    (step : ∀ done b a, inv done b → Yields (inv (done ++ [a])) (code b a))
    {done : List A} {b : B} (kept : inv done b) (xs : List A) :
    Yields (inv (done ++ xs)) (loop code b xs) := by
  induction xs generalizing done b with
  | nil =>
    rw [List.append_nil]
    exact yields_pure kept
  | cons a rest ih =>
    refine (step done b a kept).bind fun c next => ?_
    rw [List.append_cons]
    exact ih next

/-- What the code raises, where it raises, is as told. -/
def Throws (P : X → Prop) (code : Calls X E W A) : Prop := ∀ s e t, code s = (.error e, t) → P e

theorem throws_pure {P : X → Prop} (a : A) : Throws P (pure a : Calls X E W A) := by
  rintro _ _ _ ⟨⟩

theorem throws_call {P : X → Prop} {act : W → Except X A × W} (told : ∀ w e, (act w).1 = .error e → P e) :
    Throws P (call act : Calls X E W A) := by
  intro s e t raised
  exact told s.1 e (congrArg Prod.fst raised)

theorem throws_logged {P : X → Prop} {op : E} {act : W → Except X A × W}
    (told : ∀ w e, (act w).1 = .error e → P e) : Throws P (logged op act : Calls X E W A) := by
  intro s e t raised
  exact told s.1 e (congrArg Prod.fst raised)

theorem Throws.bind {P : X → Prop} {code : Calls X E W A} {next : A → Calls X E W B}
    (first : Throws P code) (later : ∀ a, Throws P (next a)) : Throws P (code >>= next) := by
  intro s e t raised
  rw [bind_apply] at raised
  rcases result : code s with ⟨e' | a, u⟩
  all_goals rw [result] at raised
  · cases raised
    exact first s _ _ result
  · exact later a u e t raised

theorem throws_forEach {P : X → Prop} {code : A → Calls X E W B} (each : ∀ a, Throws P (code a))
    (xs : List A) : Throws P (forEach code xs) := by
  induction xs with
  | nil => exact throws_pure []
  | cons a rest ih => exact (each a).bind fun b => ih.bind fun bs => throws_pure (b :: bs)

/-- A loop that returns has logged what each step logs. -/
theorem log_forEach_of_returns {code : A → Calls X E W B} {f : A → E}
    (each : ∀ a s b t, code a s = (.ok b, t) → t.2 = s.2 ++ [f a]) {xs : List A} {bs : List B}
    {s t : W × List E} (returned : forEach code xs s = (.ok bs, t)) : t.2 = s.2 ++ xs.map f := by
  induction xs generalizing s t bs with
  | nil =>
    cases returned
    exact (List.append_nil _).symm
  | cons a rest ih =>
    rw [forEach] at returned
    obtain ⟨b, u, first, others⟩ := returned_of_bind returned
    obtain ⟨cs, v, later, ended⟩ := returned_of_bind others
    cases ended
    rw [ih later, each a s b u first, List.map_cons, List.append_assoc, List.singleton_append]

end Calls

end Transition
