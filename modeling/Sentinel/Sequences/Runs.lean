import Mathlib.Data.Nat.Find
import Mathlib.Order.Basic

/-! Runs of good elements in a list, and the scan for the first one that has lasted long
enough. Positions are counted from zero, and both ends belong to a run. -/
namespace Sequences

/-- What a run is made of: which elements are good, which may follow each other, and
from which element to which a run has lasted. -/
structure Monitor (α : Type*) where
  good : α → Bool
  linked : α → α → Prop
  lasts : α → α → Bool

namespace Monitor
variable {α : Type*} (m : Monitor α)

structure Run (xs : List α) (i j : ℕ) : Prop where
  ordered : i ≤ j
  inside : ∀ k, i ≤ k → k ≤ j → ∃ a ∈ xs[k]?, m.good a
  chained : ∀ k, i ≤ k → k < j → ∀ a ∈ xs[k]?, ∀ b ∈ xs[k + 1]?, m.linked a b

structure Lasting (xs : List α) (i j : ℕ) : Prop extends m.Run xs i j where
  lasting : ∃ a ∈ xs[i]?, ∃ b ∈ xs[j]?, m.lasts a b

/-- No lasting run ends before this one. -/
structure Earliest (xs : List α) (i j : ℕ) : Prop extends m.Lasting xs i j where
  earliest : ∀ i' j', m.Lasting xs i' j' → j ≤ j'

structure Maximal (xs : List α) (i j : ℕ) : Prop extends m.Run xs i j where
  maximal : ∀ i' j', m.Run xs i' j' → i' ≤ i → j ≤ j' → i' = i ∧ j' = j

/-- An earliest lasting run that cannot start earlier. -/
structure Found (xs : List α) (i j : ℕ) : Prop extends m.Earliest xs i j where
  first : ∀ i', m.Run xs i' j → i ≤ i'

/-- The first element of the maximal run that holds an earliest lasting one. -/
def Origin (xs : List α) (p : α) : Prop :=
  ∃ i j a b, m.Earliest xs i j ∧ m.Maximal xs a b ∧ a ≤ i ∧ j ≤ b ∧ xs[a]? = some p

/-- The same runs, whatever follows whatever. -/
def unlinked : Monitor α := { m with linked := fun _ _ => True }

/-- A run that has lasted has lasted from any earlier element on. -/
def Cumulative (xs : List α) : Prop :=
  ∀ i j k : ℕ, i ≤ j → j ≤ k → ∀ a ∈ xs[i]?, ∀ b ∈ xs[j]?, ∀ c ∈ xs[k]?, m.lasts b c → m.lasts a c

/-- The scan keeps the first element of the run it is in. -/
def scan : Option α → List α → Option α
  | _, [] => none
  | start, a :: rest =>
    if m.good a then
      if m.lasts (start.getD a) a then some (start.getD a) else scan (some (start.getD a)) rest
    else scan none rest

variable {m} {xs : List α} {i j : ℕ}

namespace Run

theorem sub (run : m.Run xs i j) {i' j' : ℕ} (lower : i ≤ i') (ordered : i' ≤ j')
    (upper : j' ≤ j) : m.Run xs i' j' where
  ordered := ordered
  inside k low high := run.inside k (lower.trans low) (high.trans upper)
  chained k low high := run.chained k (lower.trans low) (high.trans_le upper)

/-- Two runs that share an element are one run. -/
theorem join (run : m.Run xs i j) {i' j' : ℕ} (later : m.Run xs i' j') (shared : i' ≤ j)
    (upper : j ≤ j') : m.Run xs i j' where
  ordered := run.ordered.trans upper
  inside k low high := by
    rcases le_total k j with before | after
    · exact run.inside k low before
    · exact later.inside k (shared.trans after) high
  chained k low high := by
    rcases lt_or_ge k j with before | after
    · exact run.chained k low before
    · exact later.chained k (shared.trans after) high

theorem lt_length (run : m.Run xs i j) : j < xs.length := by
  obtain ⟨a, found, _⟩ := run.inside j run.ordered le_rfl
  exact (List.getElem?_eq_some_iff.mp found).1

theorem unlinked (run : m.Run xs i j) : m.unlinked.Run xs i j where
  ordered := run.ordered
  inside := run.inside
  chained _ _ _ _ _ _ _ := trivial

/-- A run that cannot start earlier opens a maximal one. -/
theorem exists_maximal (run : m.Run xs i j) (first : ∀ i', m.Run xs i' j → i ≤ i') :
    ∃ b, m.Maximal xs i b ∧ j ≤ b := by
  classical
  let b := Nat.findGreatest (fun b => m.Run xs i b) xs.length
  have longest : m.Run xs i b := Nat.findGreatest_spec run.lt_length.le run
  have reaches : ∀ b', m.Run xs i b' → b' ≤ b := fun b' longer =>
    Nat.le_findGreatest longer.lt_length.le longer
  have inside : j ≤ b := reaches j run
  refine ⟨b, ⟨longest, fun i' b' longer lower upper => ?_⟩, inside⟩
  have start : i ≤ i' := first i' (longer.sub le_rfl (lower.trans run.ordered) (inside.trans upper))
  have same : i' = i := le_antisymm lower start
  exact ⟨same, le_antisymm (reaches b' (same ▸ longer)) upper⟩

theorem exists_first (run : m.Run xs i j) :
    ∃ a, m.Run xs a j ∧ ∀ i', m.Run xs i' j → a ≤ i' := by
  classical
  have some_ : ∃ a, m.Run xs a j := ⟨i, run⟩
  exact ⟨Nat.find some_, Nat.find_spec some_, fun i' other => Nat.find_min' some_ other⟩

end Run

namespace Lasting

theorem extend (cumulative : m.Cumulative xs) (lasting : m.Lasting xs i j) {a : ℕ}
    (run : m.Run xs a j) (lower : a ≤ i) : m.Lasting xs a j where
  toRun := run
  lasting := by
    obtain ⟨p, first, q, last, lasts⟩ := lasting.lasting
    obtain ⟨o, earlier, _⟩ := run.inside a le_rfl run.ordered
    exact ⟨o, earlier, q, last,
      cumulative a i j lower lasting.ordered o earlier p first q last lasts⟩

theorem exists_found (cumulative : m.Cumulative xs) (lasting : m.Lasting xs i j) :
    ∃ a b, m.Found xs a b := by
  classical
  have some_ : ∃ b, ∃ a, m.Lasting xs a b := ⟨j, i, lasting⟩
  obtain ⟨c, ending⟩ := Nat.find_spec some_
  obtain ⟨a, run, first⟩ := ending.exists_first
  exact ⟨a, _, ⟨⟨ending.extend cumulative run (first c ending.toRun), fun i' j' other =>
    Nat.find_min' some_ ⟨i', other⟩⟩, first⟩⟩

theorem unlinked (lasting : m.Lasting xs i j) : m.unlinked.Lasting xs i j :=
  ⟨lasting.toRun.unlinked, lasting.lasting⟩

end Lasting

/-- What is found without the links is found with them where they hold inside it. -/
theorem Found.linked (found : m.unlinked.Found xs i j) (run : m.Run xs i j) : m.Found xs i j where
  toRun := run
  lasting := found.lasting
  earliest i' j' other := found.earliest i' j' other.unlinked
  first i' other := found.first i' other.unlinked

/-- The maximal run is found from its first element. -/
theorem origin_iff (cumulative : m.Cumulative xs) {p : α} :
    m.Origin xs p ↔ ∃ a j, m.Found xs a j ∧ xs[a]? = some p := by
  constructor
  · rintro ⟨i, j, a, b, earliest, maximal, lower, upper, at_a⟩
    have run := maximal.sub le_rfl (lower.trans earliest.ordered) upper
    refine ⟨a, j, ⟨⟨earliest.extend cumulative run lower, earliest.earliest⟩,
      fun i' other => ?_⟩, at_a⟩
    by_contra before
    have whole := other.join maximal.toRun run.ordered upper
    exact before (maximal.maximal i' b whole (not_le.mp before).le le_rfl).1.ge
  · rintro ⟨a, j, found, at_a⟩
    obtain ⟨b, maximal, upper⟩ := found.toRun.exists_maximal found.first
    exact ⟨a, j, a, b, found.toEarliest, maximal, le_rfl, upper, at_a⟩

/-- One run is found at most. -/
theorem Found.unique (found : m.Found xs i j) {i' j' : ℕ} (other : m.Found xs i' j') :
    i = i' ∧ j = j' := by
  have ends : j = j' :=
    le_antisymm (found.earliest i' j' other.toLasting) (other.earliest i j found.toLasting)
  subst ends
  exact ⟨le_antisymm (found.first i' other.toRun) (other.first i found.toRun), rfl⟩

theorem origin_unique (cumulative : m.Cumulative xs) {p q : α} (first : m.Origin xs p)
    (second : m.Origin xs q) : p = q := by
  obtain ⟨a, j, found, at_a⟩ := (origin_iff cumulative).mp first
  obtain ⟨b, k, found', at_b⟩ := (origin_iff cumulative).mp second
  obtain ⟨rfl, rfl⟩ := found.unique found'
  exact Option.some.inj (at_a.symm.trans at_b)

/-- Where links do not count, the scan at position `n` knows the run that ends there. -/
structure Tracks (m : Monitor α) (xs : List α) (n : ℕ) (start : Option α) : Prop where
  running : ∀ p ∈ start, ∃ a j, j + 1 = n ∧ xs[a]? = some p ∧ m.Run xs a j ∧
    ∀ i, m.Run xs i j → a ≤ i
  idle : start = none → ∀ i j, j + 1 = n → ¬ m.Run xs i j

theorem Tracks.extend (free : ∀ a b, m.linked a b) {n : ℕ} {start : Option α} {c : α}
    (tracks : Tracks m xs n start) (here : xs[n]? = some c) (good : m.good c) :
    ∃ a, xs[a]? = some (start.getD c) ∧ m.Run xs a n ∧ ∀ i, m.Run xs i n → a ≤ i := by
  have alone : m.Run xs n n :=
    ⟨le_rfl, fun k low high => ⟨c, by rw [le_antisymm high low]; exact here, good⟩,
      fun k low high => absurd high (not_lt.mpr low)⟩
  cases start with
  | none =>
    refine ⟨n, here, alone, fun i run => ?_⟩
    by_contra before
    obtain ⟨j, rfl⟩ := Nat.exists_eq_add_one_of_ne_zero (Nat.ne_zero_of_lt (not_le.mp before))
    exact tracks.idle rfl i j rfl (run.sub le_rfl (by omega) (by omega))
  | some p =>
    obtain ⟨a, j, rfl, at_a, run, first⟩ := tracks.running p rfl
    have ordered := run.ordered
    refine ⟨a, at_a, ⟨by omega, fun k low high => ?_, fun _ _ _ _ _ _ _ => free _ _⟩,
      fun i longer => ?_⟩
    · rcases Nat.lt_succ_iff_lt_or_eq.mp (Nat.lt_succ_of_le high) with before | rfl
      · exact run.inside k low (by omega)
      · exact alone.inside _ le_rfl le_rfl
    · rcases Nat.lt_or_ge j i with after | within
      · omega
      · exact first i (longer.sub le_rfl within (by omega))

/-- The scan returns where the found run starts, and nothing where no run lasts. -/
theorem scan_from (free : ∀ a b, m.linked a b) (cumulative : m.Cumulative xs) {rest : List α}
    {n : ℕ} {start : Option α} (left : xs.drop n = rest) (tracks : Tracks m xs n start)
    (later : ∀ i j, m.Lasting xs i j → n ≤ j) :
    (∀ p ∈ m.scan start rest, ∃ a j, m.Found xs a j ∧ xs[a]? = some p) ∧
      (m.scan start rest = none → ∀ i j, ¬ m.Lasting xs i j) := by
  induction rest generalizing n start with
  | nil =>
    refine ⟨nofun, fun _ i j lasting => ?_⟩
    have short : xs.length ≤ n := List.drop_eq_nil_iff.mp left
    have := lasting.lt_length
    have := later i j lasting
    omega
  | cons c rest ih =>
    have here : xs[n]? = some c := by
      rw [← List.head?_drop, left]
      rfl
    have next : xs.drop (n + 1) = rest := by
      rw [← List.drop_drop, left]
      rfl
    have fresh {start' : Option α} (tracks' : Tracks m xs (n + 1) start')
        (none_ : ∀ i, ¬ m.Lasting xs i n) := ih next tracks' fun i j lasting =>
      Nat.succ_le_of_lt (lt_of_le_of_ne (later i j lasting) fun same => none_ i (same ▸ lasting))
    by_cases good : m.good c
    · obtain ⟨a, at_a, run, first⟩ := tracks.extend free here good
      by_cases lasts : m.lasts (start.getD c) c
      · have found : m.Found xs a n := ⟨⟨⟨run, _, at_a, c, here, lasts⟩, later⟩, first⟩
        rw [scan, if_pos good, if_pos lasts]
        exact ⟨fun p same => ⟨a, n, found, by rw [at_a]; exact same⟩, nofun⟩
      · rw [scan, if_pos good, if_neg lasts]
        refine fresh ⟨fun p same => ?_, nofun⟩ fun i lasting => lasts ?_
        · cases same
          exact ⟨a, n, rfl, at_a, run, first⟩
        · obtain ⟨p, at_a', q, last, since⟩ :=
            (lasting.extend cumulative run (first i lasting.toRun)).lasting
          cases at_a.symm.trans at_a'
          cases here.symm.trans last
          exact since
    · rw [scan, if_neg good]
      have broken : ∀ i, ¬ m.Run xs i n := fun i run => by
        obtain ⟨p, last, fine⟩ := run.inside n run.ordered le_rfl
        cases here.symm.trans last
        exact good fine
      refine fresh ⟨nofun, fun _ i j same => ?_⟩ fun i lasting =>
        broken i lasting.toRun
      cases same
      exact broken i

theorem scan_spec (free : ∀ a b, m.linked a b) (cumulative : m.Cumulative xs) :
    (∀ p ∈ m.scan none xs, ∃ a j, m.Found xs a j ∧ xs[a]? = some p) ∧
      (m.scan none xs = none → ∀ i j, ¬ m.Lasting xs i j) :=
  scan_from free cumulative (n := 0) rfl
    ⟨nofun, fun _ _ j past => absurd past (Nat.succ_ne_zero j)⟩
    fun _ j _ => Nat.zero_le j

end Monitor
end Sequences
