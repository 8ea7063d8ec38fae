import Sentinel.Graphs.Preorder
import Sentinel.Tools.Attribution

/-! A trace as a call tree: the spans in the order of a depth-first walk, each with the
number of its ancestors within the trace. -/
namespace Sentinel.Tools
open Python Fixtures Graphs

structure TreeNode where
  depth : ℕ
  service : String
  operation : String
  spanKind : Option String := none
  status : String
  durationMs : ℚ
  deriving DecidableEq, Repr

structure SpanTreeOutput where
  nodes : List TreeNode
  count : ℕ
  deriving DecidableEq, Repr

def spanIds (spans : List TraceRow) : List String := spans.map TraceRow.spanId

/-- The spans of each parent that is in the trace. -/
def childSpans (spans : List TraceRow) : Dict String (List TraceRow) :=
  collect (fun span => span.parentSpanId.filter fun parent => parent ∈ spanIds spans) .empty spans

def rootSpans (spans : List TraceRow) : List TraceRow :=
  spans.filter fun s => s.parentSpanId.all fun parent => parent = "" || parent ∉ spanIds spans

/-- `sorted(children.get(span.span_id, []), key=...)`. -/
def childrenInOrder (spans : List TraceRow) (span : TraceRow) : List TraceRow :=
  sortedBy traceOrder (((childSpans spans).get? span.spanId).getD [])

def recursionError : Exn := ⟨"RecursionError", "maximum recursion depth exceeded", false⟩

section
variable [LowerCase]

def treeNode (visit : ℕ × TraceRow) : TreeNode where
  depth := visit.1
  service := visit.2.service
  operation := visit.2.operation
  spanKind := spanKind visit.2
  status := visit.2.status
  durationMs := visit.2.durationMs

/-- The tree of the spans of a trace, where `walk` may nest as deep as there are frames. -/
def spanTree (frames : ℕ) (spans : List TraceRow) : Py SpanTreeOutput := do
  let visits ← (sortedBy traceOrder (rootSpans spans)).mapM
    (walk recursionError (childrenInOrder spans) frames 0)
  let nodes := visits.flatten.map treeNode
  .ok { nodes, count := nodes.length }

def tracesSpanTree (frames : ℕ) (traceId : String) (s : FixtureStore) : Py SpanTreeOutput :=
  spanTree frames (s.getTrace traceId)

end

/-- One span of the trace names another one as its parent. -/
def ChildOf (spans : List TraceRow) (p c : TraceRow) : Prop :=
  p ∈ spans ∧ c ∈ spans ∧ c.parentSpanId = some p.spanId

/-- No span of the trace is named as the parent. -/
def RootOf (spans : List TraceRow) (s : TraceRow) : Prop := s ∈ spans ∧ ∀ p, ¬ ChildOf spans p s

/-- A preorder of the spans, each with its depth. -/
structure SpanTree (spans : List TraceRow) (visit : List (ℕ × TraceRow)) : Prop where
  once : (visit.map Prod.snd).Perm spans
  root : ∀ d s, (d, s) ∈ visit → RootOf spans s → d = 0
  nested : ∀ d s p, (d, s) ∈ visit → ChildOf spans p s → ∃ e, (e, p) ∈ visit ∧ d = e + 1
  contiguous : ∀ d s, (d, s) ∈ visit → ∃ before block after,
    visit = before ++ (d, s) :: (block ++ after) ∧
      ∀ x, x ∈ block.map Prod.snd ↔ Relation.TransGen (ChildOf spans) s x
  siblings : ∀ p s t, ChildOf spans p s → ChildOf spans p t → traceOrder s < traceOrder t →
    [s, t].Sublist (visit.map Prod.snd)
  roots : ∀ s t, RootOf spans s → RootOf spans t → traceOrder s < traceOrder t →
    [s, t].Sublist (visit.map Prod.snd)

section
variable {spans : List TraceRow}

theorem mem_spanIds {id : String} : id ∈ spanIds spans ↔ ∃ s ∈ spans, s.spanId = id := List.mem_map

theorem same_of_id (distinct : (spanIds spans).Nodup) {s t : TraceRow} (inS : s ∈ spans)
    (inT : t ∈ spans) (same : s.spanId = t.spanId) : s = t :=
  List.inj_on_of_nodup_map distinct inS inT same

theorem mem_childrenInOrder {p c : TraceRow} :
    c ∈ childrenInOrder spans p ↔
      c ∈ spans ∧ c.parentSpanId = some p.spanId ∧ p.spanId ∈ spanIds spans := by
  have found := get?_collect (fun span : TraceRow =>
    span.parentSpanId.filter fun parent => decide (parent ∈ spanIds spans)) .empty spans p.spanId
  rw [childrenInOrder, mem_sortedBy, childSpans, found]
  simp only [Dict.get?_empty, Option.getD_none, List.nil_append, List.mem_filter, decide_eq_true_eq,
    Option.filter_eq_some_iff]

theorem mem_children_of_mem {p c : TraceRow} (member : p ∈ spans) :
    c ∈ childrenInOrder spans p ↔ ChildOf spans p c := by
  rw [mem_childrenInOrder]
  exact ⟨fun kid => ⟨member, kid.1, kid.2.1⟩,
    fun kid => ⟨kid.2.1, kid.2.2, mem_spanIds.mpr ⟨p, member, rfl⟩⟩⟩

theorem mem_rootSpans {s : TraceRow} : s ∈ rootSpans spans ↔ RootOf spans s := by
  rw [rootSpans, List.mem_filter]
  refine and_congr_right fun member => ?_
  cases named : s.parentSpanId with
  | none =>
    simp [ChildOf, named]
  | some parent =>
    have real : parent = "" → parent ∉ spanIds spans := by
      rintro rfl known
      obtain ⟨p, -, empty⟩ := mem_spanIds.mp known
      exact p.named.2.1 empty
    have outside : (parent = "" ∨ parent ∉ spanIds spans) ↔ parent ∉ spanIds spans :=
      ⟨fun either => either.elim real id, .inr⟩
    simp only [Option.all_some, Bool.or_eq_true, decide_eq_true_eq, outside]
    constructor
    · rintro unknown p ⟨inP, -, same⟩
      rw [named, Option.some.injEq] at same
      exact unknown (mem_spanIds.mpr ⟨p, inP, same.symm⟩)
    · intro alone known
      obtain ⟨p, inP, same⟩ := mem_spanIds.mp known
      exact alone p ⟨inP, member, by rw [named, same]⟩

/-- The children of the spans of the trace; other rows have none. -/
noncomputable def kidsWithin (spans : List TraceRow) (a : TraceRow) : List TraceRow :=
  open Classical in if a ∈ spans then childrenInOrder spans a else []

theorem below_iff {p c : TraceRow} : Below (kidsWithin spans) p c ↔ ChildOf spans p c := by
  unfold Below kidsWithin
  split
  · rename_i member
    exact mem_children_of_mem member
  · rename_i outside
    exact iff_of_false List.not_mem_nil fun kid => outside kid.1

theorem below_eq (spans : List TraceRow) : Below (kidsWithin spans) = ChildOf spans := by
  funext p c
  exact propext below_iff

theorem collect_nodup (distinct : (spanIds spans).Nodup) (p : TraceRow) :
    (childrenInOrder spans p).Nodup := by
  have found := get?_collect (fun span : TraceRow =>
    span.parentSpanId.filter fun parent => decide (parent ∈ spanIds spans)) .empty spans p.spanId
  rw [childrenInOrder, (sortedBy_perm _ _).nodup_iff, childSpans, found]
  exact distinct.of_map.filter _

theorem spans_forest (distinct : (spanIds spans).Nodup)
    (acyclic : ∀ s, ¬ Relation.TransGen (ChildOf spans) s s) :
    Forest spans (sortedBy traceOrder (rootSpans spans)) (kidsWithin spans) where
  kid_mem a b kid := by
    have child := below_iff.mp kid
    exact ⟨child.1, child.2.1⟩
  root_iff b := by
    rw [mem_sortedBy, mem_rootSpans]
    exact and_congr_right fun _ => forall_congr' fun p => not_congr below_iff.symm
  parent a a' b first second := by
    have child := below_iff.mp first
    have child' := below_iff.mp second
    exact same_of_id distinct child.1 child'.1 (Option.some.inj (child.2.2.symm.trans child'.2.2))
  kids_nodup a := by
    unfold kidsWithin
    split
    · exact collect_nodup distinct a
    · exact List.nodup_nil
  roots_nodup := (sortedBy_perm _ _).nodup_iff.mpr (distinct.of_map.filter _)
  acyclic a := by
    rw [below_eq]
    exact acyclic a

/-- Of two elements of a sorted list, the one with the smaller key stands before. -/
theorem pair_sublist {xs : List TraceRow} {visit : List TraceRow} {s t : TraceRow}
    (ordered : (sortedBy traceOrder xs).Sublist visit) (inS : s ∈ xs) (inT : t ∈ xs)
    (less : traceOrder s < traceOrder t) : [s, t].Sublist visit :=
  (sublist_of_key_lt (sortedBy_pairwise _ _) (mem_sortedBy.mpr inS) (mem_sortedBy.mpr inT)
    less).trans ordered

/-- What the tool visits is a preorder of the trace. -/
theorem spanTree_visits (distinct : (spanIds spans).Nodup)
    (acyclic : ∀ s, ¬ Relation.TransGen (ChildOf spans) s s) {visit : List (ℕ × TraceRow)}
    (visits : Visits (kidsWithin spans) 0 (sortedBy traceOrder (rootSpans spans)) visit) :
    SpanTree spans visit := by
  have forest := spans_forest distinct acyclic
  have all (x : TraceRow) : x ∈ visit.map Prod.snd ↔ x ∈ spans := by
    rw [visits.mem_iff]
    refine ⟨?_, forest.rooted⟩
    rintro ⟨r, root, reached⟩
    rw [mem_sortedBy, mem_rootSpans] at root
    rw [below_eq] at reached
    rcases Relation.ReflTransGen.cases_tail reached with rfl | ⟨p, -, child⟩
    · exact root.1
    · exact child.2.1
  have visited {p : TraceRow} (member : p ∈ spans) : ∃ d, (d, p) ∈ visit := by
    obtain ⟨⟨d, q⟩, inVisit, rfl⟩ := List.mem_map.mp ((all p).mpr member)
    exact ⟨d, inVisit⟩
  constructor
  case once =>
    exact (List.perm_ext_iff_of_nodup
      (forest.visits_nodup visits forest.roots_nodup forest.roots_apart) distinct.of_map).mpr all
  case root =>
    intro d s member root
    rcases visits.depth_of_mem member with ⟨-, rfl⟩ | ⟨e, p, -, kid, -⟩
    · rfl
    · exact absurd (below_iff.mp kid) (root.2 p)
  case nested =>
    intro d s p member child
    rcases visits.depth_of_mem member with ⟨top, -⟩ | ⟨e, q, above, kid, step⟩
    · rw [mem_sortedBy, mem_rootSpans] at top
      exact absurd child (top.2 p)
    · obtain rfl := forest.parent q p s kid (below_iff.mpr child)
      exact ⟨e, above, step⟩
  case contiguous =>
    intro d s member
    have block := visits.contiguous member
    rwa [below_eq] at block
  case siblings =>
    intro p s t first second less
    obtain ⟨d, inVisit⟩ := visited first.1
    have ordered := visits.kids_sublist inVisit
    rw [kidsWithin, if_pos first.1] at ordered
    have inOrder {c : TraceRow} (child : ChildOf spans p c) :
        c ∈ ((childSpans spans).get? p.spanId).getD [] :=
      mem_sortedBy.mp ((mem_children_of_mem child.1).mpr child)
    exact pair_sublist ordered (inOrder first) (inOrder second) less
  case roots =>
    intro s t first second less
    exact pair_sublist visits.tops_sublist (mem_rootSpans.mpr first) (mem_rootSpans.mpr second) less

/-- No chain of spans, each the parent of the next, is longer than the frames that are left. -/
def Nested (spans : List TraceRow) (frames : ℕ) : Prop :=
  ∀ chain : List TraceRow, (∀ s ∈ chain, s ∈ spans) → chain.IsChain (ChildOf spans) →
    chain.length ≤ frames

/-- The chains of the trace are the paths down from its roots, and parts of them. -/
theorem nested_iff {roots : List TraceRow} (forest : Forest spans roots (kidsWithin spans))
    {frames : ℕ} : Nested spans frames ↔ ∀ r ∈ roots, Fits (kidsWithin spans) frames r := by
  constructor
  · intro nested r root path down
    rw [below_eq] at down
    refine nested (r :: path) (fun s member => ?_) down
    rcases List.mem_cons.mp member with rfl | later
    · exact ((forest.root_iff s).mp root).1
    · have below : (r :: path).IsChain (Relation.TransGen (ChildOf spans)) :=
        down.imp fun _ _ => .single
      obtain ⟨p, -, child⟩ := Relation.TransGen.tail'_iff.mp (below.rel_cons later)
      exact child.2.1
  · intro fits chain inside down
    cases chain with
    | nil => exact Nat.zero_le frames
    | cons s rest =>
      obtain ⟨r, root, reached⟩ := forest.rooted (inside s List.mem_cons_self)
      rw [← below_eq] at down
      exact ((fits r root).below reached) rest down

/-- A chain never has more spans than the trace. -/
theorem nested_of_length {roots : List TraceRow} (forest : Forest spans roots (kidsWithin spans))
    {frames : ℕ} (enough : spans.length ≤ frames) : Nested spans frames := by
  intro chain inside down
  rw [← below_eq] at down
  exact ((forest.path_nodup down).subperm inside).length_le.trans enough

theorem walk_roots [LowerCase] {frames : ℕ} {r : TraceRow}
    (root : r ∈ sortedBy traceOrder (rootSpans spans)) :
    walk recursionError (childrenInOrder spans) frames 0 r =
      walk recursionError (kidsWithin spans) frames 0 r :=
  walk_congr (fun _ inside => (if_pos inside).symm)
    (fun _ _ _ kid => (mem_childrenInOrder.mp kid).1) (mem_rootSpans.mp (mem_sortedBy.mp root)).1

theorem nested_of_returned [LowerCase] {frames : ℕ} {out : SpanTreeOutput}
    (forest : Forest spans (sortedBy traceOrder (rootSpans spans)) (kidsWithin spans))
    (returned : spanTree frames spans = .ok out) : Nested spans frames := by
  refine (nested_iff forest).mpr fun r root => ?_
  rw [spanTree, bind_ok_iff] at returned
  obtain ⟨blocks, mapped, -⟩ := returned
  obtain ⟨block, walked⟩ := mapM_returns_iff.mp ⟨blocks, mapped⟩ r root
  rw [walk_roots root] at walked
  exact fits_of_walk walked

/-- For spans with distinct ids and no span above itself, the tool returns a preorder of the
trace exactly where the frames last for its deepest chain. -/
theorem spanTree_preorder_iff [LowerCase] (distinct : (spanIds spans).Nodup)
    (acyclic : ∀ s, ¬ Relation.TransGen (ChildOf spans) s s) (frames : ℕ) :
    (∃ visit, SpanTree spans visit ∧
      spanTree frames spans = .ok { nodes := visit.map treeNode, count := spans.length }) ↔
      Nested spans frames := by
  have forest := spans_forest distinct acyclic
  constructor
  · rintro ⟨visit, -, returned⟩
    exact nested_of_returned forest returned
  · intro nested
    have fits := (nested_iff forest).mp nested
    obtain ⟨blocks, mapped, visits⟩ := visits_each 0 fun r root =>
      walk_visits recursionError 0 (fits r root)
    have walked : (sortedBy traceOrder (rootSpans spans)).mapM
        (walk recursionError (childrenInOrder spans) frames 0) = .ok blocks := by
      rw [mapM_congr fun r root => walk_roots root, mapped]
    have tree := spanTree_visits distinct acyclic visits
    refine ⟨blocks.flatten, tree, ?_⟩
    have count : spans.length = (blocks.flatten.map treeNode).length := by
      rw [List.length_map, ← tree.once.length_eq, List.length_map]
    rw [spanTree, walked, count]
    rfl

end

section Sample
attribute [local instance] asciiLowerCase

/-- A request of the frontend to the cart, and a span whose parent is elsewhere. -/
def cartTrace : List TraceRow :=
  [{ traceId := "c1", spanId := "front", time := 510, service := "frontend", operation := "GET /cart",
     durationMs := 81, status := "OK" },
    { traceId := "c1", spanId := "cart", parentSpanId := some "front", time := 511, service := "cart",
      operation := "GetCart", durationMs := 82, status := "OK" },
    { traceId := "c1", spanId := "stray", parentSpanId := some "gone", time := 512, service := "cart",
      operation := "Expire", durationMs := 83, status := "OK" }]

theorem cartTrace_acyclic (s : TraceRow) : ¬ Relation.TransGen (ChildOf cartTrace) s s := by
  intro cycle
  obtain ⟨c, ⟨-, inC, named⟩, -⟩ := Relation.TransGen.head'_iff.mp cycle
  obtain ⟨p, -, inP, inS, parent⟩ := Relation.TransGen.tail'_iff.mp cycle
  simp only [cartTrace, List.mem_cons, List.not_mem_nil, or_false] at inC inP inS
  rcases inS with rfl | rfl | rfl <;> rcases inC with rfl | rfl | rfl <;> simp at named
  rcases inP with rfl | rfl | rfl <;> simp at parent

theorem spanTree_preorder_sample : ∃ visit, SpanTree cartTrace visit ∧
    spanTree 3 cartTrace = .ok { nodes := visit.map treeNode, count := cartTrace.length } :=
  (spanTree_preorder_iff (by decide) cartTrace_acyclic 3).mpr
    (nested_of_length (spans_forest (by decide) cartTrace_acyclic) (by decide))

/-- The `i`-th span of a chain of calls, each made by the one before it. -/
def nestedSpan (i : ℕ) : TraceRow where
  traceId := "d1"
  spanId := String.ofList (List.replicate (i + 1) 's')
  parentSpanId := some (String.ofList (List.replicate i 's'))
  time := 530
  service := "cart"
  operation := "retry"
  durationMs := 84
  status := "OK"
  named := ⟨by decide, by simp [String.ext_iff], by decide, by decide, by decide⟩

def deepTrace (n : ℕ) : List TraceRow := (List.range n).map nestedSpan

theorem nestedSpan_id (i : ℕ) : (nestedSpan i).spanId.length = i + 1 := by
  simp [nestedSpan]

theorem deepTrace_distinct (n : ℕ) : (spanIds (deepTrace n)).Nodup := by
  rw [spanIds, deepTrace, List.map_map]
  refine List.nodup_range.map fun i j same => ?_
  have lengths := congrArg String.length same
  simpa [nestedSpan_id] using lengths

theorem deepTrace_rises {n : ℕ} {p c : TraceRow} (child : ChildOf (deepTrace n) p c) :
    p.spanId.length < c.spanId.length := by
  obtain ⟨-, inC, parent⟩ := child
  obtain ⟨i, -, rfl⟩ := List.mem_map.mp inC
  rw [← Option.some.inj parent, nestedSpan_id]
  simp

theorem deepTrace_acyclic (n : ℕ) (s : TraceRow) : ¬ Relation.TransGen (ChildOf (deepTrace n)) s s := by
  intro cycle
  have rises {t : TraceRow} (below : Relation.TransGen (ChildOf (deepTrace n)) s t) :
      s.spanId.length < t.spanId.length := by
    induction below with
    | single child => exact deepTrace_rises child
    | tail _ child ih => exact ih.trans (deepTrace_rises child)
  exact lt_irrefl _ (rises cycle)

theorem deepTrace_chain (n : ℕ) : (deepTrace n).IsChain (ChildOf (deepTrace n)) := by
  rw [List.isChain_iff_getElem]
  intro i within
  have next : i + 1 < n := by simpa [deepTrace] using within
  refine ⟨List.getElem_mem _, List.getElem_mem _, ?_⟩
  simp [deepTrace, nestedSpan]

/-- A chain of as many calls as the interpreter's stack has frames, of which the tool has one,
makes the tool raise. -/
theorem deep_trace_unrendered : ¬ ∀ spans : List TraceRow, (spanIds spans).Nodup →
    (∀ s, ¬ Relation.TransGen (ChildOf spans) s s) → ∃ visit, SpanTree spans visit ∧
      spanTree 999 spans = .ok { nodes := visit.map treeNode, count := spans.length } := by
  intro rendered
  have distinct := deepTrace_distinct 1000
  have acyclic := deepTrace_acyclic 1000
  obtain ⟨visit, -, returned⟩ := rendered _ distinct acyclic
  have nested := nested_of_returned (spans_forest distinct acyclic) returned
  have short := nested (deepTrace 1000) (fun _ member => member) (deepTrace_chain 1000)
  rw [deepTrace, List.length_map, List.length_range] at short
  omega

end Sample

end Sentinel.Tools
