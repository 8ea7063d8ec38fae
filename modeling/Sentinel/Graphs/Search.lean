import Mathlib.Data.Finset.Card
import Mathlib.Data.List.Chain
import Mathlib.Logic.Relation
import Sentinel.Python.Dict

/-! Searches of a finite graph: breadth first from a source, with the predecessor of each
node that is found, and depth first for one target. Paths are read back from the
predecessors. -/
namespace Graphs
open Python

variable {α : Type*} [DecidableEq α]

/-- Successors that stay within finitely many nodes. -/
structure Adjacency (α : Type*) where
  nodes : List α
  next : α → List α
  next_nodes : ∀ a, ∀ b ∈ next a, b ∈ nodes

def Adjacency.Steps (g : Adjacency α) (a b : α) : Prop := b ∈ g.next a

def Adjacency.Reaches (g : Adjacency α) : α → α → Prop := Relation.ReflTransGen g.Steps

/-- The nodes found so far, each with the node it was found from. -/
abbrev Found (α : Type*) := Dict α (Option α)

/-! ### Breadth first -/

/-- The successors not found before, each with its predecessor, join the queue. -/
def discover (node : α) (found : Found α) (queue : List α) : List α → Found α × List α
  | [] => (found, queue)
  | b :: rest =>
    if b ∈ found.keys then discover node found queue rest
    else discover node (found.set b (some node)) (queue ++ [b]) rest

/-- What a visit of `node` adds. -/
structure Discovers (node : α) (found : Found α) (queue successors fresh : List α) : Prop where
  items : (discover node found queue successors).1.items =
    found.items ++ fresh.map fun b => (b, some node)
  queue : (discover node found queue successors).2 = queue ++ fresh
  new : ∀ b ∈ fresh, b ∈ successors ∧ b ∉ found.keys
  nodup : fresh.Nodup
  covers : ∀ b ∈ successors, b ∈ found.keys ∨ b ∈ fresh

theorem items_set_fresh {found : Found α} {b : α} (fresh : b ∉ found.keys) (a : Option α) :
    (found.set b a).items = found.items ++ [(b, a)] := assign_fresh fresh

theorem keys_set_fresh {found : Found α} {b : α} (fresh : b ∉ found.keys) (a : Option α) :
    (found.set b a).keys = found.keys ++ [b] := by
  simp [Dict.keys, items_set_fresh fresh]

theorem exists_discovers (node : α) (found : Found α) (queue successors : List α) :
    ∃ fresh, Discovers node found queue successors fresh := by
  induction successors generalizing found queue with
  | nil => exact ⟨[], by simp [discover], by simp [discover], by simp, by simp, by simp⟩
  | cons b rest ih =>
    by_cases known : b ∈ found.keys
    · obtain ⟨fresh, d⟩ := ih found queue
      have same : discover node found queue (b :: rest) = discover node found queue rest := by
        rw [discover, if_pos known]
      refine ⟨fresh, by rw [same, d.items], by rw [same, d.queue], ?_, d.nodup, ?_⟩
      · exact fun c member => ⟨List.mem_cons_of_mem b (d.new c member).1, (d.new c member).2⟩
      · intro c member
        rcases List.mem_cons.mp member with rfl | later
        · exact .inl known
        · exact d.covers c later
    · obtain ⟨fresh, d⟩ := ih (found.set b (some node)) (queue ++ [b])
      have same : discover node found queue (b :: rest) =
          discover node (found.set b (some node)) (queue ++ [b]) rest := by
        rw [discover, if_neg known]
      have keys := keys_set_fresh known (some node)
      have other : ∀ c ∈ fresh, c ∉ found.keys ∧ c ≠ b := fun c member => by
        have unseen := (d.new c member).2
        rw [keys, List.mem_append, List.mem_singleton, not_or] at unseen
        exact unseen
      refine ⟨b :: fresh, ?_, ?_, ?_, ?_, ?_⟩
      · rw [same, d.items, items_set_fresh known, List.append_assoc]
        rfl
      · rw [same, d.queue, List.append_assoc]
        rfl
      · intro c member
        rcases List.mem_cons.mp member with rfl | later
        · exact ⟨List.mem_cons_self, known⟩
        · exact ⟨List.mem_cons_of_mem b (d.new c later).1, (other c later).1⟩
      · exact List.nodup_cons.mpr ⟨fun again => (other b again).2 rfl, d.nodup⟩
      · intro c member
        rcases List.mem_cons.mp member with rfl | later
        · exact .inr List.mem_cons_self
        · rcases d.covers c later with old | new
          · rw [keys, List.mem_append, List.mem_singleton] at old
            rcases old with old | rfl
            · exact .inl old
            · exact .inr List.mem_cons_self
          · exact .inr (List.mem_cons_of_mem b new)

theorem Discovers.keys {node : α} {found : Found α} {queue successors fresh : List α}
    (d : Discovers node found queue successors fresh) :
    (discover node found queue successors).1.keys = found.keys ++ fresh := by
  simp [Dict.keys, d.items, Function.comp_def]

/-- The nodes not found yet. -/
def unfound (g : Adjacency α) (found : Found α) : Finset α := g.nodes.toFinset \ found.keys.toFinset

/-- Each node that joins the queue leaves the nodes not found. -/
theorem Discovers.unfound_card {g : Adjacency α} {node : α} {found : Found α} {queue fresh : List α}
    (d : Discovers node found queue (g.next node) fresh) :
    (unfound g (discover node found queue (g.next node)).1).card + fresh.length =
      (unfound g found).card := by
  have inside : fresh.toFinset ⊆ unfound g found := by
    intro b member
    rw [List.mem_toFinset] at member
    rw [unfound, Finset.mem_sdiff, List.mem_toFinset, List.mem_toFinset]
    exact ⟨g.next_nodes node b (d.new b member).1, (d.new b member).2⟩
  have left : unfound g (discover node found queue (g.next node)).1 =
      unfound g found \ fresh.toFinset := by
    rw [unfound, unfound, d.keys, List.toFinset_append, Finset.sdiff_union_distrib]
    ext b
    simp only [Finset.mem_inter, Finset.mem_sdiff]
    tauto
  rw [left, ← List.toFinset_card_of_nodup d.nodup]
  exact Finset.card_sdiff_add_card_eq_card inside

/-- Visits the queue in order, until it comes to the goal. -/
def search (g : Adjacency α) (goal : α) (found : Found α) (queue : List α) : Found α :=
  match queue with
  | [] => found
  | node :: rest =>
    if node = goal then found
    else
      search g goal (discover node found rest (g.next node)).1 (discover node found rest (g.next node)).2
termination_by (unfound g found).card + queue.length
decreasing_by
  obtain ⟨fresh, d⟩ := exists_discovers node found rest (g.next node)
  have count := d.unfound_card
  rw [d.queue, List.length_append, List.length_cons]
  omega

/-- Entries of a search: each node but the source comes after one that it succeeds. -/
inductive Grown (next : α → List α) (source : α) : List (α × Option α) → Prop where
  | root : Grown next source [(source, none)]
  | grow {items : List (α × Option α)} {a b : α} : Grown next source items →
      a ∈ items.map Prod.fst → b ∈ next a → b ∉ items.map Prod.fst →
      Grown next source (items ++ [(b, some a)])

namespace Grown
variable {next : α → List α} {source : α} {items : List (α × Option α)}

omit [DecidableEq α] in
theorem source_mem (grown : Grown next source items) : source ∈ items.map Prod.fst := by
  induction grown with
  | root => simp
  | grow _ _ _ _ ih =>
    rw [List.map_append]
    exact List.mem_append_left _ ih

omit [DecidableEq α] in
theorem extend {a : α} {fresh : List α} (grown : Grown next source items)
    (member : a ∈ items.map Prod.fst) (new : ∀ b ∈ fresh, b ∈ next a ∧ b ∉ items.map Prod.fst)
    (nodup : fresh.Nodup) : Grown next source (items ++ fresh.map fun b => (b, some a)) := by
  induction fresh generalizing items with
  | nil => simpa using grown
  | cons b rest ih =>
    obtain ⟨notLater, rest'⟩ := List.nodup_cons.mp nodup
    obtain ⟨step, unseen⟩ := new b List.mem_cons_self
    have one := grown.grow member step unseen
    have all := ih one (by simp [member]) (fun c later => ?_) rest'
    · simpa using all
    · refine ⟨(new c (List.mem_cons_of_mem b later)).1, ?_⟩
      rw [List.map_append, List.mem_append, not_or]
      refine ⟨(new c (List.mem_cons_of_mem b later)).2, ?_⟩
      rintro same
      obtain rfl : c = b := by simpa using same
      exact notLater later

omit [DecidableEq α] in
theorem reaches {b : α} (grown : Grown next source items) (member : b ∈ items.map Prod.fst) :
    Relation.ReflTransGen (fun a b => b ∈ next a) source b := by
  induction grown generalizing b with
  | root =>
    obtain rfl : b = source := by simpa using member
    exact .refl
  | @grow items a c _ inside step _ ih =>
    rw [List.map_append, List.mem_append] at member
    rcases member with old | new
    · exact ih old
    · obtain rfl : b = c := by simpa using new
      exact (ih inside).tail step

end Grown

/-- The invariant of the search: a node found but not queued has all its successors found. -/
structure Exploring (g : Adjacency α) (source : α) (found : Found α) (queue : List α) : Prop where
  grown : Grown g.next source found.items
  queued : ∀ a ∈ queue, a ∈ found.keys
  closed : ∀ a ∈ found.keys, a ∉ queue → ∀ b ∈ g.next a, b ∈ found.keys

theorem Exploring.start (g : Adjacency α) (source : α) :
    Exploring g source (Dict.empty.set source none) [source] where
  grown := .root
  queued _ member := member
  closed _ member unqueued := absurd member unqueued

theorem Exploring.visit {g : Adjacency α} {source node : α} {found : Found α} {rest fresh : List α}
    (e : Exploring g source found (node :: rest)) (d : Discovers node found rest (g.next node) fresh) :
    Exploring g source (discover node found rest (g.next node)).1
      (discover node found rest (g.next node)).2 where
  grown := by
    rw [d.items]
    exact e.grown.extend (e.queued node List.mem_cons_self) d.new d.nodup
  queued a member := by
    rw [d.queue] at member
    rw [d.keys, List.mem_append]
    exact (List.mem_append.mp member).imp_left fun old => e.queued a (List.mem_cons_of_mem node old)
  closed a member unqueued b step := by
    rw [d.queue, List.mem_append, not_or] at unqueued
    rw [d.keys, List.mem_append] at member ⊢
    have old : a ∈ found.keys := member.resolve_right unqueued.2
    by_cases here : a = node
    · exact d.covers b (here ▸ step)
    · have waiting : a ∉ node :: rest := by simp [here, unqueued.1]
      exact .inl (e.closed a old waiting b step)

omit [DecidableEq α] in
theorem Exploring.mem_of_reaches {g : Adjacency α} {source b : α} {found : Found α}
    (e : Exploring g source found []) (reached : g.Reaches source b) : b ∈ found.keys := by
  induction reached with
  | refl => exact e.grown.source_mem
  | tail _ step ih => exact e.closed _ ih List.not_mem_nil _ step

/-- The search finds the goal exactly when the source reaches it. -/
theorem search_spec {g : Adjacency α} {source : α} {found : Found α} {queue : List α}
    (e : Exploring g source found queue) (goal : α) :
    Grown g.next source (search g goal found queue).items ∧
      (goal ∈ (search g goal found queue).keys ↔ g.Reaches source goal) := by
  induction found, queue using search.induct g goal with
  | case1 found =>
    rw [search]
    exact ⟨e.grown, e.grown.reaches, e.mem_of_reaches⟩
  | case2 found rest =>
    rw [search, if_pos rfl]
    have member := e.queued goal List.mem_cons_self
    exact ⟨e.grown, e.grown.reaches, fun _ => member⟩
  | case3 found node rest other ih =>
    obtain ⟨fresh, d⟩ := exists_discovers node found rest (g.next node)
    rw [search, if_neg other]
    exact ih (e.visit d)

/-- Follows the predecessors from a node; `none` where the fuel or an entry is missing. -/
def backtrack (items : List (α × Option α)) : ℕ → Option α → Option (List α)
  | _, none => some []
  | 0, some _ => none
  | n + 1, some a => (items.lookup a).bind fun before => (backtrack items n before).map (a :: ·)

/-- A path against the edges, from a node back to the source. -/
structure PathBack (next : α → List α) (source a : α) (path : List α) : Prop where
  head : path.head? = some a
  last : path.getLast? = some source
  chain : path.IsChain fun b a => b ∈ next a

theorem backtrack_none (items : List (α × Option α)) (n : ℕ) : backtrack items n none = some [] := by
  cases n <;> rfl

theorem backtrack_source {items : List (α × Option α)} {source : α} {n : ℕ} (enough : n ≠ 0)
    (root : items.lookup source = some none) : backtrack items n (some source) = some [source] := by
  obtain ⟨m, rfl⟩ := Nat.exists_eq_succ_of_ne_zero enough
  simp [backtrack, root, backtrack_none]

theorem backtrack_step {items : List (α × Option α)} {a b : α} {n : ℕ} {path : List α}
    (entry : items.lookup b = some (some a)) (rest : backtrack items n (some a) = some path) :
    backtrack items (n + 1) (some b) = some (b :: path) := by
  simp [backtrack, entry, rest]

omit [DecidableEq α] in
theorem PathBack.cons {next : α → List α} {source a b : α} {path : List α}
    (back : PathBack next source a path) (step : b ∈ next a) : PathBack next source b (b :: path) := by
  obtain ⟨tail, rfl⟩ := List.head?_eq_some_iff.mp back.head
  refine ⟨rfl, ?_, List.isChain_cons_cons.mpr ⟨step, back.chain⟩⟩
  rw [List.getLast?_cons_cons]
  exact back.last

/-- From each node found the predecessors lead back to the source, whatever entries
come later. -/
theorem Grown.backtrack {next : α → List α} {source b : α} {items : List (α × Option α)}
    (grown : Grown next source items) (member : b ∈ items.map Prod.fst) :
    ∃ path, PathBack next source b path ∧ ∀ later n, items.length ≤ n →
      Graphs.backtrack (items ++ later) n (some b) = some path := by
  induction grown generalizing b with
  | root =>
    obtain rfl : b = source := by simpa using member
    refine ⟨[b], ⟨rfl, rfl, List.isChain_singleton b⟩, fun later n enough => ?_⟩
    exact backtrack_source (Nat.pos_iff_ne_zero.mp enough) (by simp)
  | @grow items a c _ inside step unseen ih =>
    rw [List.map_append, List.mem_append] at member
    rcases member with old | new
    · obtain ⟨path, back, traced⟩ := ih old
      refine ⟨path, back, fun later n enough => ?_⟩
      rw [List.length_append] at enough
      rw [List.append_assoc]
      exact traced _ n (by omega)
    · obtain rfl : b = c := by simpa using new
      obtain ⟨path, back, traced⟩ := ih inside
      refine ⟨b :: path, back.cons step, fun later n enough => ?_⟩
      rw [List.length_append, List.length_singleton] at enough
      obtain ⟨m, rfl⟩ := Nat.exists_eq_add_of_le' (Nat.one_le_of_lt enough)
      have missing : items.lookup b = none := by
        rw [List.lookup_eq_none_iff]
        intro entry there
        refine bne_iff_ne.mpr fun same => unseen ?_
        rw [same]
        exact List.mem_map_of_mem there
      have rest : Graphs.backtrack (items ++ [(b, some a)] ++ later) m (some a) = some path := by
        rw [List.append_assoc]
        exact traced _ m (by omega)
      exact backtrack_step (by simp [List.lookup_append, missing]) rest

/-- The path that a search leaves, from the source to a node that it found. -/
theorem backtrack_search {g : Adjacency α} {source goal : α} {found : Found α}
    (grown : Grown g.next source found.items) (member : goal ∈ found.keys) :
    ∃ path, backtrack found.items found.size (some goal) = some path ∧
      path.reverse.head? = some source ∧ path.reverse.getLast? = some goal ∧
      path.reverse.IsChain g.Steps := by
  obtain ⟨path, back, traced⟩ := grown.backtrack member
  refine ⟨path, by simpa using traced [] found.size le_rfl, ?_, ?_, ?_⟩
  · rw [List.head?_reverse]
    exact back.last
  · rw [List.getLast?_reverse]
    exact back.head
  · exact List.isChain_reverse.mpr back.chain

/-! ### Depth first -/

/-- The nodes known that were not seen yet. -/
def unseen (g : Adjacency α) (seen stack : List α) : Finset α :=
  (stack ++ g.nodes).toFinset \ seen.toFinset

/-- Whether a node of the stack reaches the target. -/
def reachesBy (g : Adjacency α) (target : α) (seen stack : List α) : Bool :=
  match stack with
  | [] => false
  | cur :: rest =>
    if cur = target then true
    else if cur ∈ seen then reachesBy g target seen rest
    else reachesBy g target (cur :: seen) (g.next cur ++ rest)
termination_by ((unseen g seen stack).card, stack.length)
decreasing_by
  · refine Prod.Lex.right' _ (Finset.card_le_card fun a member => ?_) (by simp)
    simp only [unseen, List.toFinset_append, List.toFinset_cons, Finset.mem_sdiff, Finset.mem_union,
      Finset.mem_insert] at member ⊢
    exact ⟨member.1.imp_left .inr, member.2⟩
  · rename_i fresh
    refine Prod.Lex.left _ _ (Finset.card_lt_card (Finset.ssubset_iff.mpr ⟨cur, by simp [unseen], ?_⟩))
    intro a member
    simp only [unseen, List.toFinset_append, List.toFinset_cons, Finset.mem_insert, Finset.mem_sdiff,
      Finset.mem_union, List.mem_toFinset, not_or] at member ⊢
    rcases member with rfl | ⟨(next | waiting) | node, _, unseen⟩
    · exact ⟨.inl (.inl rfl), fresh⟩
    · exact ⟨.inr (g.next_nodes cur a next), unseen⟩
    · exact ⟨.inl (.inr waiting), unseen⟩
    · exact ⟨.inr node, unseen⟩

theorem reachesBy_sound {g : Adjacency α} {target : α} {seen stack : List α}
    (found : reachesBy g target seen stack = true) : ∃ a ∈ stack, g.Reaches a target := by
  induction seen, stack using reachesBy.induct g target with
  | case1 seen =>
    rw [reachesBy] at found
    cases found
  | case2 seen rest => exact ⟨target, List.mem_cons_self, .refl⟩
  | case3 seen cur rest other known ih =>
    rw [reachesBy, if_neg other, if_pos known] at found
    obtain ⟨a, member, reached⟩ := ih found
    exact ⟨a, List.mem_cons_of_mem cur member, reached⟩
  | case4 seen cur rest other fresh ih =>
    rw [reachesBy, if_neg other, if_neg fresh] at found
    obtain ⟨a, member, reached⟩ := ih found
    rcases List.mem_append.mp member with next | waiting
    · exact ⟨cur, List.mem_cons_self, .head next reached⟩
    · exact ⟨a, List.mem_cons_of_mem cur waiting, reached⟩

/-- Where the search fails, all it has seen lies in a set without the target that no edge
leaves. -/
theorem exists_closed_of_not_reachesBy {g : Adjacency α} {target : α} {seen stack : List α}
    (missed : reachesBy g target seen stack = false) (absent : target ∉ seen)
    (next : ∀ a ∈ seen, ∀ b ∈ g.next a, b ∈ seen ∨ b ∈ stack) :
    ∃ closed : List α, target ∉ closed ∧ (∀ a ∈ seen, a ∈ closed) ∧ (∀ a ∈ stack, a ∈ closed) ∧
      ∀ a ∈ closed, ∀ b ∈ g.next a, b ∈ closed := by
  induction seen, stack using reachesBy.induct g target with
  | case1 seen =>
    refine ⟨seen, absent, fun a member => member, by simp, fun a member b step => ?_⟩
    exact (next a member b step).resolve_right List.not_mem_nil
  | case2 seen rest =>
    rw [reachesBy, if_pos rfl] at missed
    cases missed
  | case3 seen cur rest other known ih =>
    rw [reachesBy, if_neg other, if_pos known] at missed
    obtain ⟨closed, avoids, old, waiting, within⟩ := ih missed absent fun a member b step => by
      rcases next a member b step with inside | waits
      · exact .inl inside
      · exact (List.mem_cons.mp waits).imp_left fun same : b = cur => same ▸ known
    exact ⟨closed, avoids, old, List.forall_mem_cons.mpr ⟨old cur known, waiting⟩, within⟩
  | case4 seen cur rest other fresh ih =>
    rw [reachesBy, if_neg other, if_neg fresh] at missed
    have absent' : target ∉ cur :: seen := by
      rw [List.mem_cons, not_or]
      exact ⟨Ne.symm other, absent⟩
    obtain ⟨closed, avoids, old, waiting, within⟩ := ih missed absent' fun a member b step => by
      rcases List.mem_cons.mp member with rfl | earlier
      · exact .inr (List.mem_append_left _ step)
      · rcases next a earlier b step with inside | waits
        · exact .inl (List.mem_cons_of_mem cur inside)
        · rcases List.mem_cons.mp waits with rfl | later
          · exact .inl List.mem_cons_self
          · exact .inr (List.mem_append_right _ later)
    refine ⟨closed, avoids, fun a member => old a (List.mem_cons_of_mem cur member), ?_, within⟩
    refine List.forall_mem_cons.mpr ⟨old cur List.mem_cons_self, fun a member => ?_⟩
    exact waiting a (List.mem_append_right _ member)

/-- The depth-first search decides what a node reaches, on any graph. -/
theorem reachesBy_iff {g : Adjacency α} {start target : α} :
    reachesBy g target [] [start] = true ↔ g.Reaches start target := by
  constructor
  · intro found
    obtain ⟨a, member, reached⟩ := reachesBy_sound found
    exact List.mem_singleton.mp member ▸ reached
  · intro reached
    by_contra missed
    obtain ⟨closed, avoids, -, stack, within⟩ := exists_closed_of_not_reachesBy
      (Bool.eq_false_iff.mpr missed) List.not_mem_nil fun _ member => absurd member List.not_mem_nil
    refine avoids ?_
    clear missed avoids
    induction reached with
    | refl => exact stack start List.mem_cons_self
    | tail _ step ih => exact within _ ih _ step

end Graphs
