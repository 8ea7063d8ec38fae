import Sentinel.Graphs.Search
import Sentinel.Tools.Attribution

/-! The path of a failure: from the first caller in the graph of erring calls to the
first callee that calls no further. The two are chosen apart from each other, so there
may be no way between them. -/
namespace Sentinel.Tools
open Python Fixtures Graphs

structure OriginPathOutput where
  classification : FaultKind
  originService : Option String := none
  path : List String := []
  terminalHasServerError : Bool
  evidence : List String := []

/-- The arguments of `_edges`. -/
structure EdgeFilter where
  errorOnly : Bool := false
  start : Option ℤ := none
  stop : Option ℤ := none

section
variable [LowerCase] [UpperCase]

/-- The edge that a span stands for, if it passes the filter. -/
def EdgeFilter.edge (f : EdgeFilter) (s : FixtureStore) (span : TraceRow) : Option (String × String) :=
  if spanKind span ≠ some "client" then none
  else if f.errorOnly && !isError span then none
  else if f.start.any fun start => span.time < start then none
  else if f.stop.any fun stop => span.time ≥ stop then none
  else (given (s.calleeOf span)).bind fun callee =>
    if callee = span.service then none else some (span.service, callee)

/-- `_edges`, a set in some order. -/
def edgesOf (s : FixtureStore) (f : EdgeFilter) : List (String × String) :=
  keepFirst id [] (s.allSpans.filterMap (f.edge s))

def errEdges (s : FixtureStore) : List (String × String) := edgesOf s { errorOnly := true }

end

/-- The callees of each caller, in order. -/
def adjacency (edges : List (String × String)) : Adjacency String where
  nodes := edges.map Prod.snd
  next a := sortedBy id (keepFirst id [] ((edges.filter fun e => e.1 = a).map Prod.snd))
  next_nodes a b member := by
    obtain ⟨e, inside, rfl⟩ := List.mem_map.mp (mem_keepFirst (mem_sortedBy.mp member)).1
    exact List.mem_map_of_mem (List.mem_of_mem_filter inside)

/-- `_shortest_path`; `none` if it came to no end. -/
def shortestPath (edges : List (String × String)) (src dst : String) : Option (List String) :=
  let prev := search (adjacency edges) dst (Dict.empty.set src none) [src]
  if dst ∈ prev.keys then (backtrack prev.items prev.size (some dst)).map List.reverse else some []

/-- `sorted(left - right)`. -/
def sortedDifference (left right : List String) : List String :=
  sortedBy id (left.filter fun a => a ∉ right)

def callersOf (edges : List (String × String)) : List String := keepFirst id [] (edges.map Prod.fst)

def calleesOf (edges : List (String × String)) : List String := keepFirst id [] (edges.map Prod.snd)

def terminals (callers callees : List String) : List String :=
  if (sortedDifference callees callers).isEmpty then sortedBy id callees
  else sortedDifference callees callers

def boolText (b : Bool) : String := if b then "True" else "False"

section
variable [LowerCase] [UpperCase] [StrRepr]

def edgeText (edge : String × String) : String :=
  "(" ++ StrRepr.repr edge.1 ++ ", " ++ StrRepr.repr edge.2 ++ ")"

/-- The output for a terminal callee and the path to it. -/
def originAt (s : FixtureStore) (errEdges : List (String × String)) (terminal : String)
    (path : List String) : OriginPathOutput :=
  let hasServer : Bool := terminal ∈ serverErrorServices s
  { classification := if hasServer then .service else .edge
    originService := if hasServer then some terminal else none
    path
    terminalHasServerError := hasServer
    evidence :=
      ["error edges: [" ++ String.intercalate ", " ((sortedBy toLex errEdges).map edgeText) ++ "]",
        "terminal callee: " ++ terminal ++ " (own server spans error: " ++ boolText hasServer ++ ")"] }

/-- `topology_locate_origin`. -/
def topologyLocateOrigin (s : FixtureStore) : Option OriginPathOutput :=
  let errEdges := errEdges s
  if errEdges.isEmpty then
    some { classification := .unknown, terminalHasServerError := false
           evidence := ["no error edges found"] }
  else
    let callers := callersOf errEdges
    let callees := calleesOf errEdges
    (terminals callers callees).head?.bind fun terminal =>
      match sortedDifference callers callees with
      | [] => some (originAt s errEdges terminal [terminal])
      | entry :: _ => (shortestPath errEdges entry terminal).map (originAt s errEdges terminal)

end

/-! ### The graph of erring calls -/

section
variable {edges : List (String × String)} {a b : String}

theorem mem_adjacency : b ∈ (adjacency edges).next a ↔ (a, b) ∈ edges := by
  simp only [adjacency, mem_sortedBy, mem_keepFirst_id, List.mem_map, List.mem_filter,
    decide_eq_true_eq]
  constructor
  · rintro ⟨⟨a, b⟩, ⟨inside, rfl⟩, rfl⟩
    exact inside
  · exact fun inside => ⟨(a, b), ⟨inside, rfl⟩, rfl⟩

theorem adjacency_steps : (adjacency edges).Steps = fun a b => (a, b) ∈ edges := by
  funext a b
  exact propext mem_adjacency

/-- The path runs along the edges from the source to the target, or is empty where
there is no way. -/
theorem shortestPath_spec (edges : List (String × String)) (src dst : String) :
    ∃ path, shortestPath edges src dst = some path ∧
      (path.getLast? = some dst ↔ Relation.ReflTransGen (fun a b => (a, b) ∈ edges) src dst) ∧
      path.IsChain fun a b => (a, b) ∈ edges := by
  obtain ⟨grown, found⟩ := search_spec (Exploring.start (adjacency edges) src) dst
  rw [Adjacency.Reaches, adjacency_steps] at found
  unfold shortestPath
  dsimp only
  split_ifs with member
  · obtain ⟨path, traced, -, last, chain⟩ := backtrack_search grown member
    rw [adjacency_steps] at chain
    exact ⟨path.reverse, by rw [traced]; rfl, iff_of_true last (found.mp member), chain⟩
  · exact ⟨[], rfl, iff_of_false (by simp) fun reached => member (found.mpr reached),
      List.isChain_nil⟩

theorem mem_sortedDifference {left right : List String} :
    a ∈ sortedDifference left right ↔ a ∈ left ∧ a ∉ right := by
  simp [sortedDifference]

/-- The terminals are the candidates. -/
theorem mem_terminals {callers callees : List String} :
    b ∈ terminals callers callees ↔
      b ∈ callees ∧ (b ∈ callers → ∀ c ∈ callees, c ∈ callers) := by
  unfold terminals
  split_ifs with none
  · have all : ∀ c ∈ callees, c ∈ callers := by
      intro c inside
      by_contra outside
      have member := mem_sortedDifference.mpr ⟨inside, outside⟩
      rw [List.isEmpty_iff.mp none] at member
      cases member
    simp only [mem_sortedBy]
    exact ⟨fun inside => ⟨inside, fun _ => all⟩, And.left⟩
  · rw [mem_sortedDifference]
    refine and_congr_right fun _ => ⟨fun outside inside => absurd inside outside, fun only inside => ?_⟩
    refine none (List.isEmpty_iff.mpr (List.eq_nil_iff_forall_not_mem.mpr fun c member => ?_))
    obtain ⟨callee, notCaller⟩ := mem_sortedDifference.mp member
    exact notCaller (only inside c callee)

theorem head_terminals_le {callers callees : List String} {t : String}
    (head : (terminals callers callees).head? = some t) (member : b ∈ terminals callers callees) :
    t ≤ b := by
  unfold terminals at head member
  split_ifs at head member
  · exact head_sortedBy_le head (mem_sortedBy.mp member)
  · exact head_sortedBy_le head (mem_sortedBy.mp member)

end

section
variable [LowerCase] [UpperCase] (s : FixtureStore)

/-- Some erring client span of one service calls the other. -/
def ErrorEdge (a b : String) : Prop :=
  ∃ span ∈ s.allSpans, spanKind span = some "client" ∧ isError span = true ∧ span.service = a ∧
    s.calleeOf span = some b ∧ b ≠ "" ∧ b ≠ a

def ErrorCaller (a : String) : Prop := ∃ b, ErrorEdge s a b

def ErrorCallee (b : String) : Prop := ∃ a, ErrorEdge s a b

/-- A callee that calls no further, or any callee if each calls further. -/
def TerminalCandidate (b : String) : Prop :=
  ErrorCallee s b ∧ (ErrorCaller s b → ∀ c, ErrorCallee s c → ErrorCaller s c)

def Terminal (t : String) : Prop :=
  TerminalCandidate s t ∧ ∀ b, TerminalCandidate s b → t ≤ b

/-- The first caller that nothing calls. -/
def Entry (e : String) : Prop :=
  (ErrorCaller s e ∧ ¬ ErrorCallee s e) ∧ ∀ a, ErrorCaller s a → ¬ ErrorCallee s a → e ≤ a

variable {s}

theorem Terminal.unique {t u : String} (one : Terminal s t) (other : Terminal s u) : t = u :=
  le_antisymm (one.2 u other.1) (other.2 t one.1)

theorem Entry.unique {e d : String} (one : Entry s e) (other : Entry s d) : e = d :=
  le_antisymm (one.2 d other.1.1 other.1.2) (other.2 e one.1.1 one.1.2)

theorem edge_eq_some {span : TraceRow} {a b : String} :
    ({ errorOnly := true } : EdgeFilter).edge s span = some (a, b) ↔
      spanKind span = some "client" ∧ isError span = true ∧ span.service = a ∧
        s.calleeOf span = some b ∧ b ≠ "" ∧ b ≠ a := by
  unfold EdgeFilter.edge
  by_cases client : spanKind span = some "client" <;> by_cases error : isError span = true
  · rw [if_neg (not_not.mpr client), if_neg (by simp [error]), if_neg (by simp), if_neg (by simp)]
    constructor
    · intro called
      obtain ⟨callee, found, edge⟩ := Option.bind_eq_some_iff.mp called
      obtain ⟨found, named⟩ := Option.filter_eq_some_iff.mp found
      split_ifs at edge with own
      cases edge
      exact ⟨client, error, rfl, found, of_decide_eq_true named, own⟩
    · rintro ⟨-, -, rfl, found, named, foreign⟩
      have kept : given (some b) = some b := by simp [given, named]
      rw [found, kept, Option.bind_some, if_neg foreign]
  · simp [client, error]
  · simp [client]
  · simp [client]

theorem mem_errEdges {a b : String} :
    (a, b) ∈ errEdges s ↔ ErrorEdge s a b := by
  rw [errEdges, edgesOf, mem_keepFirst_id, List.mem_filterMap]
  exact exists_congr fun span => and_congr_right fun _ => edge_eq_some

theorem mem_callers {a : String} :
    a ∈ callersOf (errEdges s) ↔ ErrorCaller s a := by
  simp only [callersOf, mem_keepFirst_id, List.mem_map, Prod.exists, exists_and_right, exists_eq_right,
    mem_errEdges, ErrorCaller]

theorem mem_callees {b : String} :
    b ∈ calleesOf (errEdges s) ↔ ErrorCallee s b := by
  simp only [calleesOf, mem_keepFirst_id, List.mem_map, Prod.exists, exists_eq_right, mem_errEdges,
    ErrorCallee]

theorem exists_terminal (err : ∃ a b, ErrorEdge s a b) : ∃ t, Terminal s t ∧
    (terminals (callersOf (errEdges s)) (calleesOf (errEdges s))).head? = some t := by
  have candidates {b : String} :
      b ∈ terminals (callersOf (errEdges s)) (calleesOf (errEdges s)) ↔ TerminalCandidate s b := by
    simp only [mem_terminals, mem_callers, mem_callees, TerminalCandidate]
  have some_ : ∃ b, TerminalCandidate s b := by
    obtain ⟨a, b, edge⟩ := err
    by_cases all : ∀ c, ErrorCallee s c → ErrorCaller s c
    · exact ⟨b, ⟨a, edge⟩, fun _ => all⟩
    · push Not at all
      obtain ⟨c, callee, notCaller⟩ := all
      exact ⟨c, callee, fun caller => absurd caller notCaller⟩
  obtain ⟨b, candidate⟩ := some_
  obtain ⟨t, head⟩ := Option.ne_none_iff_exists'.mp fun none =>
    List.ne_nil_of_mem (candidates.mpr candidate) (List.head?_eq_none_iff.mp none)
  exact ⟨t, ⟨candidates.mp (List.mem_of_head? head), fun c candidate =>
    head_terminals_le head (candidates.mpr candidate)⟩, head⟩

/-- Either every caller is called, or the first of the others is the entry. -/
theorem entry_cases :
    (sortedDifference (callersOf (errEdges s)) (calleesOf (errEdges s)) = [] ∧
      ∀ a, ErrorCaller s a → ErrorCallee s a) ∨
    ∃ e rest, sortedDifference (callersOf (errEdges s)) (calleesOf (errEdges s)) = e :: rest ∧
      Entry s e := by
  have entries {a : String} : a ∈ sortedDifference (callersOf (errEdges s)) (calleesOf (errEdges s)) ↔
      ErrorCaller s a ∧ ¬ ErrorCallee s a := by
    rw [mem_sortedDifference, mem_callers, mem_callees]
  cases sorted : sortedDifference (callersOf (errEdges s)) (calleesOf (errEdges s)) with
  | nil =>
    refine .inl ⟨rfl, fun a caller => ?_⟩
    by_contra uncalled
    have member := entries.mpr ⟨caller, uncalled⟩
    rw [sorted] at member
    cases member
  | cons e rest =>
    refine .inr ⟨e, rest, rfl, entries.mp (by simp [sorted]), fun a caller uncalled => ?_⟩
    have head : (sortedDifference (callersOf (errEdges s)) (calleesOf (errEdges s))).head? = some e := by
      rw [sorted, List.head?_cons]
    exact head_sortedBy_le head (mem_sortedBy.mp (entries.mpr ⟨caller, uncalled⟩))

variable [StrRepr]

/-- What the tool answers where some call errs. -/
theorem topologyLocateOrigin_cases (err : ∃ a b, ErrorEdge s a b) :
    ∃ t, Terminal s t ∧
      ((topologyLocateOrigin s = some (originAt s (errEdges s) t [t]) ∧
          ∀ a, ErrorCaller s a → ErrorCallee s a) ∨
        ∃ e path, Entry s e ∧ shortestPath (errEdges s) e t = some path ∧
          topologyLocateOrigin s = some (originAt s (errEdges s) t path)) := by
  obtain ⟨t, terminal, head⟩ := exists_terminal err
  obtain ⟨a, b, edge⟩ := err
  have some_ : (errEdges s).isEmpty = false :=
    List.isEmpty_eq_false_iff_exists_mem.mpr ⟨(a, b), mem_errEdges.mpr edge⟩
  refine ⟨t, terminal, ?_⟩
  rcases entry_cases (s := s) with ⟨none, all⟩ | ⟨e, rest, sorted, entry⟩
  · refine .inl ⟨?_, all⟩
    simp [topologyLocateOrigin, some_, head, none]
  · obtain ⟨path, found, -⟩ := shortestPath_spec (errEdges s) e t
    refine .inr ⟨e, path, entry, found, ?_⟩
    simp [topologyLocateOrigin, some_, head, sorted, found]

/-- The output names the path along which errors propagate to the terminal callee. -/
structure Localizes (s : FixtureStore) (out : OriginPathOutput) (t : String) : Prop where
  terminal : Terminal s t
  classified : out.classification = .service ↔ t ∈ serverErrorServices s
  nonempty : out.path ≠ []
  last : out.path.getLast? = some t
  chain : out.path.IsChain (ErrorEdge s)

theorem localizes_originAt {t : String} {path : List String} (terminal : Terminal s t)
    (last : path.getLast? = some t) (chain : path.IsChain (ErrorEdge s)) :
    Localizes s (originAt s (errEdges s) t path) t where
  terminal := terminal
  classified := by
    by_cases own : t ∈ serverErrorServices s <;> simp [originAt, own]
  nonempty := fun empty => by
    change path = [] at empty
    rw [empty] at last
    cases last
  last := last
  chain := chain

/-- The path exists exactly when every erring caller is called in turn, or the first that
is not reaches the terminal callee along erring calls. -/
theorem propagation_path_iff (s : FixtureStore) (err : ∃ a b, ErrorEdge s a b) :
    (∃ out t, topologyLocateOrigin s = some out ∧ Localizes s out t) ↔
      (∀ a, ErrorCaller s a → ErrorCallee s a) ∨
        ∃ e t, Entry s e ∧ Terminal s t ∧ Relation.ReflTransGen (ErrorEdge s) e t := by
  have edges : (fun a b => (a, b) ∈ errEdges s) = ErrorEdge s := by
    funext a b
    exact propext mem_errEdges
  obtain ⟨t, terminal, ⟨located, all⟩ | ⟨e, path, entry, found, located⟩⟩ := topologyLocateOrigin_cases err
  · exact iff_of_true ⟨_, t, located, localizes_originAt terminal rfl (List.isChain_singleton t)⟩ (.inl all)
  · obtain ⟨_, same, last, chain⟩ := shortestPath_spec (errEdges s) e t
    cases found.symm.trans same
    rw [edges] at last chain
    constructor
    · rintro ⟨out, u, answered, localizes⟩
      cases located.symm.trans answered
      have goal : path.getLast? = some t := localizes.terminal.unique terminal ▸ localizes.last
      exact .inr ⟨e, t, entry, terminal, last.mp goal⟩
    · rintro (all | ⟨d, u, entry', terminal', reached⟩)
      · exact absurd (all e entry.1.1) entry.1.2
      · have reached : Relation.ReflTransGen (ErrorEdge s) e t := by
          rwa [entry.unique entry', terminal.unique terminal']
        exact ⟨_, t, located, localizes_originAt terminal (last.mpr reached) chain⟩

end

section Sample
attribute [local instance] asciiLowerCase asciiUpperCase quoted

def failedCallOf (spanId caller operation : String)
    (named : spanId ≠ "" ∧ caller ≠ "" ∧ operation ≠ "") : TraceRow where
  traceId := "t1"
  spanId := spanId
  time := 0
  service := caller
  operation := operation
  durationMs := 3
  status := "ERROR"
  attributes := [("span.kind", .str "client")]
  named := ⟨by decide, named.1, named.2.1, named.2.2, by decide⟩

/-- A call of payment fails. -/
def oneFailure : FixtureStore :=
  .init { traces := [failedCallOf "s1" "frontend" "oteldemo.PaymentService/Charge" (by decide)] }

/-- And one of cart, from a service that has nothing to do with it. -/
def twoFailures : FixtureStore :=
  .init { traces := [failedCallOf "s1" "frontend" "oteldemo.PaymentService/Charge" (by decide),
    failedCallOf "s2" "recommendation" "oteldemo.CartService/GetCart" (by decide)] }

theorem propagation_path_oneFailure :
    (∃ a b, ErrorEdge oneFailure a b) ∧
      ∃ out t, topologyLocateOrigin oneFailure = some out ∧ Localizes oneFailure out t := by
  have only {a b : String} : ErrorEdge oneFailure a b ↔ a = "frontend" ∧ b = "payment" := by
    have listed : errEdges oneFailure = [("frontend", "payment")] := by decide +kernel
    rw [← mem_errEdges, listed, List.mem_singleton, Prod.mk.injEq]
  have edge : ErrorEdge oneFailure "frontend" "payment" := only.mpr ⟨rfl, rfl⟩
  have uncalled : ¬ ErrorCallee oneFailure "frontend" := fun ⟨_, called⟩ =>
    absurd (only.mp called).2 (by decide)
  have calls : ¬ ErrorCaller oneFailure "payment" := fun ⟨_, calls⟩ =>
    absurd (only.mp calls).1 (by decide)
  refine ⟨⟨_, _, edge⟩, (propagation_path_iff oneFailure ⟨_, _, edge⟩).mpr
    (.inr ⟨"frontend", "payment", ⟨⟨⟨_, edge⟩, uncalled⟩, ?_⟩, ⟨⟨⟨_, edge⟩, ?_⟩, ?_⟩, .single edge⟩)⟩
  · rintro a ⟨b, calling⟩ -
    exact (only.mp calling).1.ge
  · exact fun caller => absurd caller calls
  · rintro b ⟨⟨a, called⟩, -⟩
    exact (only.mp called).2.ge

/-- The first caller has nothing to do with the first callee. -/
theorem two_failures_no_path : ¬ ∀ s : FixtureStore, (∃ a b, ErrorEdge s a b) →
    ∃ out t, topologyLocateOrigin s = some out ∧ Localizes s out t := by
  intro located
  have edge : ErrorEdge twoFailures "frontend" "payment" := mem_errEdges.mp (by decide +kernel)
  have empty : (topologyLocateOrigin twoFailures).map OriginPathOutput.path = some [] := by
    decide +kernel
  obtain ⟨out, t, answered, localizes⟩ := located twoFailures ⟨_, _, edge⟩
  rw [answered, Option.map_some, Option.some.injEq] at empty
  exact localizes.nonempty empty

end Sample

end Sentinel.Tools
