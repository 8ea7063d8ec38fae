import Sentinel.Graphs.Search

/-! The breadth-first search finds nodes in the order of their distance from the source,
so the path that its predecessors leave is a shortest one. -/
namespace Graphs
open Python

variable {α : Type*}

/-- A walk of so many steps from the source. -/
inductive Walk (g : Adjacency α) (source : α) : ℕ → α → Prop where
  | refl : Walk g source 0 source
  | step {n : ℕ} {a b : α} : Walk g source n a → b ∈ g.next a → Walk g source (n + 1) b

/-- The distance of a node from the source. -/
structure Distance (g : Adjacency α) (source : α) (n : ℕ) (a : α) : Prop where
  walk : Walk g source n a
  least : ∀ m, Walk g source m a → n ≤ m

section Walks
variable {g : Adjacency α} {source a b : α} {n m : ℕ}

theorem Distance.unique (first : Distance g source n a) (second : Distance g source m a) : n = m :=
  le_antisymm (first.least m second.walk) (second.least n first.walk)

theorem Distance.refl (g : Adjacency α) (source : α) : Distance g source 0 source :=
  ⟨.refl, fun m _ => Nat.zero_le m⟩

theorem walk_zero (walk : Walk g source 0 a) : a = source := by
  cases walk
  rfl

/-- The steps along a path, the first node of which is reached already. -/
theorem Walk.along {path : List α} (walk : Walk g source n a) (chain : (a :: path).IsChain g.Steps) :
    Walk g source (n + path.length) ((a :: path).getLast (List.cons_ne_nil a path)) := by
  induction path generalizing n a with
  | nil => exact walk
  | cons b rest ih =>
    rw [List.isChain_cons_cons] at chain
    rw [List.getLast_cons (List.cons_ne_nil b rest), List.length_cons]
    have later := ih (walk.step chain.1) chain.2
    rwa [Nat.add_assoc, Nat.add_comm 1] at later

/-- A path from the source is a walk of one step less than it has nodes. -/
theorem walk_of_path {path : List α} (head : path.head? = some source) (last : path.getLast? = some a)
    (chain : path.IsChain g.Steps) : ∃ k, Walk g source k a ∧ path.length = k + 1 := by
  obtain ⟨rest, rfl⟩ := List.head?_eq_some_iff.mp head
  have walked := (Walk.refl (g := g)).along chain
  rw [List.getLast?_eq_getLast_of_ne_nil (List.cons_ne_nil source rest), Option.some.injEq] at last
  rw [last, Nat.zero_add] at walked
  exact ⟨rest.length, walked, rfl⟩

end Walks

variable [DecidableEq α]

/-- The search in the middle of a level: `near` waits at the distance `d` and `far` one step
further, and all nodes up to the distance `d` are found. -/
structure Layered (g : Adjacency α) (source : α) (found : Found α) (near far : List α) (d : ℕ) :
    Prop where
  exploring : Exploring g source found (near ++ far)
  near : ∀ a ∈ near, Distance g source d a
  far : ∀ a ∈ far, Distance g source (d + 1) a
  within : ∀ k ≤ d, ∀ a, Walk g source k a → a ∈ found.keys
  entries : ∀ a b, (b, some a) ∈ found.items →
    ∃ n, Distance g source n a ∧ Distance g source (n + 1) b
  root : ∀ b, (b, none) ∈ found.items → b = source

section Levels
variable {g : Adjacency α} {source : α} {found : Found α} {near far : List α} {d : ℕ}

theorem Layered.start (g : Adjacency α) (source : α) :
    Layered g source (Dict.empty.set source none) [source] [] 0 where
  exploring := .start g source
  near a member := List.mem_singleton.mp member ▸ .refl g source
  far a member := absurd member List.not_mem_nil
  within k short a walk := by
    obtain rfl := Nat.le_zero.mp short
    exact walk_zero walk ▸ List.mem_singleton_self source
  entries a b member := by
    cases List.mem_singleton.mp member
  root b member := by
    cases List.mem_singleton.mp member
    rfl

/-- When a level is done, all nodes of the next one are found. -/
theorem Layered.advance (l : Layered g source found [] far d) :
    Layered g source found far [] (d + 1) where
  exploring := by simpa using l.exploring
  near := l.far
  far a member := absurd member List.not_mem_nil
  within k short a walk := by
    rcases Nat.lt_or_eq_of_le short with earlier | rfl
    · exact l.within k (Nat.lt_succ_iff.mp earlier) a walk
    · cases walk with
      | @step n p b walk step =>
        have inside := l.within d le_rfl p walk
        by_cases waiting : p ∈ far
        · exact absurd ((l.far p waiting).least d walk) (by omega)
        · exact l.exploring.closed p inside (by simpa using waiting) a step
  entries := l.entries
  root := l.root

theorem Layered.visit {node : α} {fresh : List α} (l : Layered g source found (node :: near) far d)
    (discovers : Discovers node found (near ++ far) (g.next node) fresh) :
    Layered g source (discover node found (near ++ far) (g.next node)).1 near (far ++ fresh) d := by
  have here := l.near node List.mem_cons_self
  have next : ∀ b ∈ fresh, Distance g source (d + 1) b := by
    intro b member
    obtain ⟨step, unseen⟩ := discovers.new b member
    refine ⟨here.walk.step step, fun m walk => ?_⟩
    by_contra short
    exact unseen (l.within m (by omega) b walk)
  constructor
  case exploring =>
    have visited : Exploring g source _ _ := l.exploring.visit discovers
    rw [← List.append_assoc, ← discovers.queue]
    exact visited
  case near => exact fun a member => l.near a (List.mem_cons_of_mem node member)
  case far =>
    intro a member
    exact (List.mem_append.mp member).elim (l.far a) (next a)
  case within =>
    intro k short a walk
    rw [discovers.keys]
    exact List.mem_append_left _ (l.within k short a walk)
  case entries =>
    intro a b member
    rw [discovers.items, List.mem_append, List.mem_map] at member
    rcases member with old | ⟨c, new, same⟩
    · exact l.entries a b old
    · cases same
      exact ⟨d, here, next b new⟩
  case root =>
    intro b member
    rw [discovers.items, List.mem_append, List.mem_map] at member
    rcases member with old | ⟨c, -, same⟩
    · exact l.root b old
    · cases same

/-- Each entry of the search is one step further from the source than its predecessor. -/
theorem search_entries (goal : α) {queue : List α}
    (l : ∃ near far d, queue = near ++ far ∧ Layered g source found near far d) :
    (∀ a b, (b, some a) ∈ (search g goal found queue).items →
      ∃ n, Distance g source n a ∧ Distance g source (n + 1) b) ∧
      ∀ b, (b, none) ∈ (search g goal found queue).items → b = source := by
  induction found, queue using search.induct g goal with
  | case1 found =>
    obtain ⟨_, _, _, -, l⟩ := l
    rw [search]
    exact ⟨l.entries, l.root⟩
  | case2 found rest =>
    obtain ⟨_, _, _, -, l⟩ := l
    rw [search, if_pos rfl]
    exact ⟨l.entries, l.root⟩
  | case3 found node rest other ih =>
    rw [search, if_neg other]
    apply ih
    -- a level that is done is followed by the next one, which holds the node
    obtain ⟨near, far, d, same, started⟩ : ∃ near far d, rest = near ++ far ∧
        Layered g source found (node :: near) far d := by
      obtain ⟨near, far, d, same, l⟩ := l
      cases near with
      | nil =>
        obtain rfl : node :: rest = far := same
        exact ⟨rest, [], d + 1, (List.append_nil rest).symm, l.advance⟩
      | cons a near =>
        obtain ⟨rfl, rfl⟩ := List.cons.inj same
        exact ⟨near, far, d, rfl, l⟩
    obtain ⟨fresh, discovers⟩ := exists_discovers node found rest (g.next node)
    subst same
    exact ⟨near, far ++ fresh, d, by rw [discovers.queue, List.append_assoc], started.visit discovers⟩

end Levels

/-- Predecessors one step nearer lead back in as many steps as the distance. -/
theorem backtrack_length {g : Adjacency α} {source : α} {items : List (α × Option α)}
    (entries : ∀ a b, (b, some a) ∈ items → ∃ n, Distance g source n a ∧ Distance g source (n + 1) b)
    (root : ∀ b, (b, none) ∈ items → b = source) {fuel : ℕ} {b : α} {path : List α}
    (traced : backtrack items fuel (some b) = some path) :
    ∃ n, Distance g source n b ∧ path.length = n + 1 := by
  induction fuel generalizing b path with
  | zero => cases traced
  | succ fuel ih =>
    obtain ⟨before, found, rest⟩ := Option.bind_eq_some_iff.mp traced
    obtain ⟨rest, traced, rfl⟩ := Option.map_eq_some_iff.mp rest
    have entry := mem_keys_of_lookup found
    cases before with
    | none =>
      rw [backtrack_none, Option.some.injEq] at traced
      subst traced
      exact ⟨0, root b entry ▸ .refl g source, rfl⟩
    | some a =>
      obtain ⟨n, near, length⟩ := ih traced
      obtain ⟨m, near', far⟩ := entries a b entry
      exact ⟨n + 1, near.unique near' ▸ far, by rw [List.length_cons, length]⟩

/-- The path that the search leaves is no longer than any other. -/
theorem search_shortest (g : Adjacency α) (source goal : α) {fuel : ℕ} {path other : List α}
    (traced : backtrack (search g goal (Dict.empty.set source none) [source]).items fuel (some goal) =
      some path)
    (head : other.head? = some source) (last : other.getLast? = some goal)
    (chain : other.IsChain g.Steps) : path.length ≤ other.length := by
  obtain ⟨entries, root⟩ := search_entries goal ⟨[source], [], 0, rfl, .start g source⟩
  obtain ⟨n, distance, length⟩ := backtrack_length entries root traced
  obtain ⟨k, walk, count⟩ := walk_of_path head last chain
  rw [length, count]
  exact Nat.succ_le_succ (distance.least k walk)

end Graphs
