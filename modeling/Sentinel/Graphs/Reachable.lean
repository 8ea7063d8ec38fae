import Mathlib.Logic.Relation
import Sentinel.Graphs.Search
import Sentinel.Python.Grouping

/-! What a node reaches in one or more steps. The source of the search is not seen at
first, so it is found again only along a cycle. -/
namespace Graphs
open Python

variable {α : Type*} [DecidableEq α]

/-- The nodes not seen yet. -/
def unseenNodes (g : Adjacency α) (seen : List α) : Finset α := g.nodes.toFinset \ seen.toFinset

/-- The successors of a node that are not seen, each once. -/
def freshFrom (g : Adjacency α) (seen : List α) (node : α) : List α := keepFirst id seen (g.next node)

theorem mem_freshFrom {g : Adjacency α} {seen : List α} {node b : α} :
    b ∈ freshFrom g seen node ↔ b ∈ g.next node ∧ b ∉ seen := by
  constructor
  · exact mem_keepFirst
  · rintro ⟨step, unseen⟩
    obtain ⟨c, kept, rfl⟩ := keepFirst_covers step (show id b ∉ seen from unseen)
    exact kept

theorem freshFrom_nodup (g : Adjacency α) (seen : List α) (node : α) :
    (freshFrom g seen node).Nodup := by
  simpa [freshFrom] using keepFirst_nodup id seen (g.next node)

theorem unseenNodes_card (g : Adjacency α) (seen : List α) (node : α) :
    (unseenNodes g (seen ++ freshFrom g seen node)).card + (freshFrom g seen node).length =
      (unseenNodes g seen).card := by
  have inside : (freshFrom g seen node).toFinset ⊆ unseenNodes g seen := by
    intro b member
    obtain ⟨step, unseen⟩ := mem_freshFrom.mp (List.mem_toFinset.mp member)
    rw [unseenNodes, Finset.mem_sdiff, List.mem_toFinset, List.mem_toFinset]
    exact ⟨g.next_nodes node b step, unseen⟩
  have left : unseenNodes g (seen ++ freshFrom g seen node) =
      unseenNodes g seen \ (freshFrom g seen node).toFinset := by
    ext b
    simp only [unseenNodes, List.toFinset_append, Finset.mem_sdiff, Finset.mem_union]
    tauto
  rw [left, ← List.toFinset_card_of_nodup (freshFrom_nodup g seen node)]
  exact Finset.card_sdiff_add_card_eq_card inside

/-- Visits the queue in order; the nodes seen on the way. -/
def reachable (g : Adjacency α) (seen queue : List α) : List α :=
  match queue with
  | [] => seen
  | node :: rest => reachable g (seen ++ freshFrom g seen node) (rest ++ freshFrom g seen node)
termination_by (unseenNodes g seen).card + queue.length
decreasing_by
  have count := unseenNodes_card g seen node
  rw [List.length_append, List.length_cons]
  omega

/-- The invariant of the search: a node seen, or the source, that does not wait has all its
successors seen. -/
structure Spreading (g : Adjacency α) (source : α) (seen queue : List α) : Prop where
  nodup : seen.Nodup
  sound : ∀ a ∈ seen, Relation.TransGen g.Steps source a
  queued : ∀ a ∈ queue, a = source ∨ a ∈ seen
  closed : ∀ a, a = source ∨ a ∈ seen → a ∉ queue → ∀ b ∈ g.next a, b ∈ seen

omit [DecidableEq α] in
theorem Spreading.start (g : Adjacency α) (source : α) : Spreading g source [] [source] where
  nodup := List.nodup_nil
  sound a member := absurd member List.not_mem_nil
  queued a member := .inl (List.mem_singleton.mp member)
  closed a known idle := by
    rcases known with rfl | member
    · exact absurd (List.mem_singleton_self a) idle
    · exact absurd member List.not_mem_nil

theorem Spreading.visit {g : Adjacency α} {source node : α} {seen rest : List α}
    (s : Spreading g source seen (node :: rest)) :
    Spreading g source (seen ++ freshFrom g seen node) (rest ++ freshFrom g seen node) where
  nodup := s.nodup.append (freshFrom_nodup g seen node) fun b old new => (mem_freshFrom.mp new).2 old
  sound a member := by
    rcases List.mem_append.mp member with old | new
    · exact s.sound a old
    · have step : g.Steps node a := (mem_freshFrom.mp new).1
      rcases s.queued node List.mem_cons_self with rfl | known
      · exact .single step
      · exact (s.sound node known).tail step
  queued a member := by
    rcases List.mem_append.mp member with waiting | new
    · exact (s.queued a (List.mem_cons_of_mem node waiting)).imp_right (List.mem_append_left _)
    · exact .inr (List.mem_append_right _ new)
  closed a known idle b step := by
    rw [List.mem_append, not_or] at idle
    rw [List.mem_append]
    by_cases here : a = node
    · subst here
      by_cases old : b ∈ seen
      · exact .inl old
      · exact .inr (mem_freshFrom.mpr ⟨step, old⟩)
    · have known' : a = source ∨ a ∈ seen :=
        known.imp_right fun member => (List.mem_append.mp member).resolve_right idle.2
      exact .inl (s.closed a known' (by simp [here, idle.1]) b step)

theorem reachable_spreading {g : Adjacency α} {source : α} {seen queue : List α}
    (s : Spreading g source seen queue) : Spreading g source (reachable g seen queue) [] := by
  induction seen, queue using reachable.induct g with
  | case1 seen =>
    rw [reachable]
    exact s
  | case2 seen node rest ih =>
    rw [reachable]
    exact ih s.visit

theorem reachable_nodup (g : Adjacency α) (source : α) : (reachable g [] [source]).Nodup :=
  (reachable_spreading (Spreading.start g source)).nodup

/-- The search sees what the source reaches in one or more steps. -/
theorem mem_reachable {g : Adjacency α} {source a : α} :
    a ∈ reachable g [] [source] ↔ Relation.TransGen g.Steps source a := by
  have s := reachable_spreading (Spreading.start g source)
  refine ⟨s.sound a, fun reached => ?_⟩
  induction reached with
  | single step => exact s.closed source (.inl rfl) List.not_mem_nil _ step
  | tail _ step ih => exact s.closed _ (.inr ih) List.not_mem_nil _ step

end Graphs
