import Sentinel.Graphs.Reachable
import Sentinel.Graphs.Shortest
import Sentinel.Tools.OriginPath

/-! Queries of the graph of calls: a shortest path between two services, and all that a
service can affect or be affected by. -/
namespace Sentinel.Tools
open Python Fixtures Graphs

structure CriticalPathInput where
  target : String
  source : String := "frontend"
  named : target ≠ "" := by decide

structure CriticalPath where
  source : String
  target : String
  path : List String
  found : Bool
  deriving DecidableEq, Repr

structure ServiceInput where
  service : String
  named : service ≠ "" := by decide

structure BlastRadius where
  service : String
  upstream : List String
  downstream : List String
  deriving DecidableEq, Repr

/-- `_reachable`. -/
def reachableFrom (edges : List (String × String)) (start : String) (reverse : Bool) : List String :=
  let seen := reachable (adjacency (if reverse then edges.map Prod.swap else edges)) [] [start]
  seen.filter fun a => a ≠ start

/-- `topology_critical_path` over the edges of the store; `none` if it came to no end. -/
def criticalPath (params : CriticalPathInput) (edges : List (String × String)) : Option CriticalPath :=
  (shortestPath edges params.source params.target).map fun path =>
    { source := params.source, target := params.target, path, found := !path.isEmpty }

/-- `topology_blast_radius` over the edges of the store. -/
def blastRadius (params : ServiceInput) (edges : List (String × String)) : BlastRadius where
  service := params.service
  upstream := sortedBy id (reachableFrom edges params.service true)
  downstream := sortedBy id (reachableFrom edges params.service false)

section
variable [LowerCase] [UpperCase]

def topologyCriticalPath (params : CriticalPathInput) (s : FixtureStore) : Option CriticalPath :=
  criticalPath params (edgesOf s {})

def topologyBlastRadius (params : ServiceInput) (s : FixtureStore) : BlastRadius :=
  blastRadius params (edgesOf s {})

end

/-- One service calls the other. -/
def CallEdge (edges : List (String × String)) (a b : String) : Prop := (a, b) ∈ edges

/-- A path of the least length, or none where there is no way. -/
structure ShortestPath (edges : List (String × String)) (src dst : String) (path : List String) :
    Prop where
  unreachable : path = [] ↔ ¬ Relation.ReflTransGen (CallEdge edges) src dst
  ends : path ≠ [] → path.head? = some src ∧ path.getLast? = some dst
  steps : path.IsChain (CallEdge edges)
  least : ∀ other : List String, other.head? = some src → other.getLast? = some dst →
    other.IsChain (CallEdge edges) → path.length ≤ other.length
  itself : src = dst → path = [src]

section
variable (edges : List (String × String))

theorem shortestPath_shortest (src dst : String) :
    ∃ path, shortestPath edges src dst = some path ∧ ShortestPath edges src dst path := by
  obtain ⟨grown, found⟩ := search_spec (Exploring.start (adjacency edges) src) dst
  have steps_eq : (adjacency edges).Steps = CallEdge edges := adjacency_steps
  rw [Adjacency.Reaches, steps_eq] at found
  unfold shortestPath
  dsimp only
  split_ifs with member
  · obtain ⟨path, traced, first, last, chain⟩ := backtrack_search grown member
    rw [steps_eq] at chain
    have nonempty : path.reverse ≠ [] := by
      rintro none_
      rw [none_] at last
      cases last
    have least : ∀ other : List String, other.head? = some src → other.getLast? = some dst →
        other.IsChain (CallEdge edges) → path.reverse.length ≤ other.length := by
      intro other head tail steps
      rw [List.length_reverse]
      exact search_shortest (adjacency edges) src dst traced head tail (steps_eq ▸ steps)
    refine ⟨path.reverse, by rw [traced]; rfl, ?_, fun _ => ⟨first, last⟩, chain, least, ?_⟩
    · exact iff_of_false nonempty (not_not.mpr (found.mp member))
    · rintro rfl
      have short := least [src] rfl rfl (List.isChain_singleton src)
      obtain ⟨rest, same⟩ := List.head?_eq_some_iff.mp first
      rw [same, List.length_cons, List.length_singleton] at short
      rw [same, List.eq_nil_of_length_eq_zero (by omega : rest.length = 0)]
  · have apart := mt found.mpr member
    refine ⟨[], rfl, iff_of_true rfl apart, fun nonempty => absurd rfl nonempty, List.isChain_nil,
      fun _ _ _ _ => Nat.zero_le _, ?_⟩
    rintro rfl
    exact absurd .refl apart

theorem mem_reachableFrom {start a : String} {reverse : Bool} :
    a ∈ reachableFrom edges start reverse ↔ a ≠ start ∧
      if reverse then Relation.TransGen (CallEdge edges) a start
      else Relation.TransGen (CallEdge edges) start a := by
  have steps (edges : List (String × String)) : (adjacency edges).Steps = CallEdge edges :=
    adjacency_steps
  simp only [reachableFrom, List.mem_filter, mem_reachable, steps, decide_eq_true_eq, and_comm]
  cases reverse with
  | false => simp
  | true =>
    have swapped : CallEdge (edges.map Prod.swap) = Function.swap (CallEdge edges) := by
      funext a b
      simp [CallEdge, Function.swap]
    simp [swapped, Relation.transGen_swap]

theorem reachableFrom_nodup (start : String) (reverse : Bool) :
    (reachableFrom edges start reverse).Nodup :=
  (reachable_nodup _ start).filter _

/-- Sorting distinct services puts them in strict order. -/
theorem sorted_reachableFrom (start : String) (reverse : Bool) :
    (sortedBy id (reachableFrom edges start reverse)).Pairwise (· < ·) := by
  have distinct := (sortedBy_perm id _).nodup_iff.mpr (reachableFrom_nodup edges start reverse)
  exact ((sortedBy_pairwise id _).and distinct).imp fun both => lt_of_le_of_ne both.1 both.2

end

/-- What the two queries answer about a graph. -/
structure Answered (edges : List (String × String)) (path : CriticalPathInput → Option CriticalPath)
    (radius : ServiceInput → BlastRadius) : Prop where
  critical : ∀ params, ∃ out, path params = some out ∧
    ShortestPath edges params.source params.target out.path ∧ (out.found = true ↔ out.path ≠ [])
  upstream : ∀ params a, a ∈ (radius params).upstream ↔
    a ≠ params.service ∧ Relation.TransGen (CallEdge edges) a params.service
  downstream : ∀ params a, a ∈ (radius params).downstream ↔
    a ≠ params.service ∧ Relation.TransGen (CallEdge edges) params.service a
  sorted : ∀ params, (radius params).upstream.Pairwise (· < ·) ∧
    (radius params).downstream.Pairwise (· < ·)

theorem answered (edges : List (String × String)) :
    Answered edges (criticalPath · edges) (blastRadius · edges) where
  critical params := by
    obtain ⟨path, found, shortest⟩ := shortestPath_shortest edges params.source params.target
    exact ⟨_, by rw [criticalPath, found]; rfl, shortest, by simp⟩
  upstream params a := by
    rw [blastRadius, mem_sortedBy, mem_reachableFrom]
    simp
  downstream params a := by
    rw [blastRadius, mem_sortedBy, mem_reachableFrom]
    simp
  sorted params := ⟨sorted_reachableFrom edges _ _, sorted_reachableFrom edges _ _⟩

/-- Both queries answer as they should on every graph, and so the tools on that of a store. -/
theorem topology_queries_answered [LowerCase] [UpperCase] :
    (∀ edges, Answered edges (criticalPath · edges) (blastRadius · edges)) ∧
      ∀ s, Answered (edgesOf s {}) (topologyCriticalPath · s) (topologyBlastRadius · s) :=
  ⟨answered, fun s => answered (edgesOf s {})⟩

end Sentinel.Tools
