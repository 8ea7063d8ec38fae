import Mathlib.Algebra.GroupWithZero.Nat
import Sentinel.Python.Grouping
import Sentinel.Python.Ordering
import Sentinel.Tools.Spans

/-! Whole traces kept up to a cap on the spans, those with errors first. A trace that
does not fit is left out and later ones are still tried. -/
namespace Sentinel.Rcaeval
open Python Fixtures Tools

/-- The spans of one trace. -/
def spansOf (rows : List TraceRow) (tid : String) : List TraceRow :=
  rows.filter fun r => r.traceId = tid

section
variable [UpperCase]

def hasError (spans : List TraceRow) : Bool :=
  spans.any fun s => !(["OK", "UNSET"].contains (UpperCase.upper s.status))

def tracesOf (rows : List TraceRow) : Dict String (List TraceRow) :=
  collect (fun r => some r.traceId) .empty rows

/-- The trace ids in the order in which traces are tried. -/
def traceOrder (rows : List TraceRow) : List String :=
  let byTrace := tracesOf rows
  sortedBy (fun tid => toLex (if hasError ((byTrace.get? tid).getD []) then 0 else 1, tid) : _ → ℕ ×ₗ String)
    byTrace.keys

/-- One round of the loop: a group that does not fit is skipped, unless it is the first. -/
def addGroup (cap : ℤ) (out group : List TraceRow) : List TraceRow :=
  if out ≠ [] ∧ cap < out.length + group.length then out else out ++ group

/-- `_sample_whole_traces`. -/
def sampleWholeTraces (rows : List TraceRow) (cap : ℤ) : List TraceRow :=
  if rows.length ≤ cap then rows
  else
    let byTrace := tracesOf rows
    (traceOrder rows).foldl (fun out tid => addGroup cap out ((byTrace.get? tid).getD [])) []

end

theorem mem_spansOf {rows : List TraceRow} {tid : String} {r : TraceRow} :
    r ∈ spansOf rows tid ↔ r ∈ rows ∧ r.traceId = tid := by
  simp [spansOf]

theorem get?_tracesOf (rows : List TraceRow) (tid : String) :
    ((tracesOf rows).get? tid).getD [] = spansOf rows tid := by
  have found := get?_collect (fun r : TraceRow => some r.traceId) .empty rows tid
  simpa [tracesOf, spansOf] using found

theorem mem_keys_tracesOf {rows : List TraceRow} {tid : String} :
    tid ∈ (tracesOf rows).keys ↔ ∃ r ∈ rows, r.traceId = tid := by
  have none_ : tid ∉ (Dict.empty : Dict String (List TraceRow)).keys := List.not_mem_nil
  simp [tracesOf, mem_keys_collect, none_]

/-- Another trace of the same input has none of the spans of this one. -/
theorem spansOf_spansOf (rows : List TraceRow) (tid tid' : String) :
    spansOf (spansOf rows tid) tid' = if tid = tid' then spansOf rows tid else [] := by
  unfold spansOf
  rw [List.filter_filter]
  split
  · rename_i same
    subst same
    simp
  · rename_i other
    refine List.filter_eq_nil_iff.mpr fun r _ => ?_
    simp only [Bool.and_eq_true, decide_eq_true_eq, not_and]
    intro atLater atFirst
    exact other (atFirst.symm.trans atLater)

theorem spansOf_append (a b : List TraceRow) (tid : String) :
    spansOf (a ++ b) tid = spansOf a tid ++ spansOf b tid :=
  List.filter_append a b

/-- The traces with an error come first, and by id among themselves. -/
def TriedBefore [UpperCase] (rows : List TraceRow) (a b : String) : Prop :=
  (hasError (spansOf rows a) ∧ ¬ hasError (spansOf rows b)) ∨
    (hasError (spansOf rows a) = hasError (spansOf rows b) ∧ a < b)

/-- What the loop has kept after the traces `tried`. -/
structure Sampling (rows : List TraceRow) (cap : ℤ) (tried : List String) (out : List TraceRow) :
    Prop where
  begun : out = [] → tried = []
  whole : ∀ tid, spansOf out tid = spansOf rows tid ∨ spansOf out tid = []
  untried : ∀ tid ∉ tried, spansOf out tid = []
  size : out.length = (tried.map fun tid => (spansOf out tid).length).sum
  bounded : (out.length : ℤ) ≤
    max cap ((tried.head?.map fun tid => (spansOf rows tid).length).getD 0 : ℕ)
  full : ∀ before tid after, tried = before ++ tid :: after → spansOf out tid = [] →
    cap < ((before.map fun t => (spansOf out t).length).sum + (spansOf rows tid).length : ℕ)

/-- Where a list with one more element is cut: before that element, or at an earlier one. -/
theorem concat_eq_cut {α : Type*} {xs before after : List α} {x a : α}
    (same : xs ++ [x] = before ++ a :: after) :
    (xs = before ∧ x = a) ∨ ∃ rest, after = rest ++ [x] ∧ xs = before ++ a :: rest := by
  rcases List.eq_nil_or_concat after with rfl | ⟨rest, y, rfl⟩
  · exact .inl (by simpa using List.append_inj' same rfl)
  · refine .inr ⟨rest, ?_⟩
    have cut : xs ++ [x] = (before ++ a :: rest) ++ [y] := by simpa using same
    obtain ⟨early, last⟩ := List.append_inj' cut rfl
    rw [List.singleton_inj] at last
    exact ⟨by rw [last, List.concat_eq_append], early⟩

section
variable {rows out : List TraceRow} {cap : ℤ} {tried : List String} {tid : String}

theorem Sampling.skip (so : Sampling rows cap tried out) (fresh : tid ∉ tried) (nonempty : out ≠ [])
    (exceeds : cap < out.length + (spansOf rows tid).length) :
    Sampling rows cap (tried ++ [tid]) out where
  begun empty := absurd empty nonempty
  whole := so.whole
  untried t later := so.untried t fun earlier => later (List.mem_append_left _ earlier)
  size := by
    rw [List.map_append, List.sum_append, ← so.size]
    simp [so.untried tid fresh]
  bounded := by
    cases tried with
    | nil => exact absurd (List.eq_nil_of_length_eq_zero so.size) nonempty
    | cons t rest => exact so.bounded
  full before t after cut dropped := by
    rcases concat_eq_cut cut with ⟨rfl, rfl⟩ | ⟨rest, -, earlier⟩
    · rw [← so.size]
      exact_mod_cast exceeds
    · exact so.full before t rest earlier dropped

theorem Sampling.add (so : Sampling rows cap tried out) (fresh : tid ∉ tried)
    (spans : spansOf rows tid ≠ [])
    (fits : out = [] ∨ out.length + (spansOf rows tid).length ≤ cap) :
    Sampling rows cap (tried ++ [tid]) (out ++ spansOf rows tid) := by
  have own : spansOf (out ++ spansOf rows tid) tid = spansOf rows tid := by
    rw [spansOf_append, so.untried tid fresh, spansOf_spansOf, if_pos rfl, List.nil_append]
  have others {t : String} (other : t ≠ tid) :
      spansOf (out ++ spansOf rows tid) t = spansOf out t := by
    rw [spansOf_append, spansOf_spansOf, if_neg (Ne.symm other), List.append_nil]
  have earlier {ts : List String} (early : ∀ t ∈ ts, t ∈ tried) :
      (ts.map fun t => (spansOf (out ++ spansOf rows tid) t).length) =
        ts.map fun t => (spansOf out t).length := by
    refine List.map_congr_left fun t member => ?_
    rw [others fun same => fresh (same ▸ early t member)]
  constructor
  case begun =>
    intro empty
    exact absurd (List.append_eq_nil_iff.mp empty).2 spans
  case whole =>
    intro t
    by_cases same : t = tid
    · exact .inl (same ▸ own)
    · rw [others same]
      exact so.whole t
  case untried =>
    intro t later
    rw [List.mem_append, List.mem_singleton, not_or] at later
    rw [others later.2]
    exact so.untried t later.1
  case size =>
    rw [List.map_append, List.sum_append, earlier fun _ member => member, ← so.size]
    simp [own]
  case bounded =>
    rcases fits with rfl | fits
    · rw [so.begun rfl]
      simp
    · rw [List.length_append]
      push_cast
      exact le_max_of_le_left fits
  case full =>
    intro before t after cut dropped
    rcases concat_eq_cut cut with ⟨-, rfl⟩ | ⟨rest, -, split⟩
    · exact absurd (own.symm.trans dropped) spans
    · have early : ∀ t' ∈ before ++ t :: rest, t' ∈ tried := fun _ member => split ▸ member
      have here : t ≠ tid := fun same => fresh (same ▸ early t (by simp))
      rw [earlier fun t' member => early t' (List.mem_append_left _ member)]
      rw [others here] at dropped
      exact so.full before t rest split dropped

theorem Sampling.step (so : Sampling rows cap tried out) (fresh : tid ∉ tried)
    (spans : spansOf rows tid ≠ []) :
    Sampling rows cap (tried ++ [tid]) (addGroup cap out (spansOf rows tid)) := by
  unfold addGroup
  split
  · rename_i skipped
    exact so.skip fresh skipped.1 skipped.2
  · rename_i added
    refine so.add fresh spans ?_
    rw [not_and_or, not_not, not_lt] at added
    exact added

/-- The loop over distinct traces of the input. -/
theorem sampling_run (cap : ℤ) {tids : List String} (distinct : tids.Nodup)
    (spans : ∀ tid ∈ tids, spansOf rows tid ≠ []) :
    Sampling rows cap tids (tids.foldl (fun out tid => addGroup cap out (spansOf rows tid)) []) := by
  induction tids using List.reverseRecOn with
  | nil => exact ⟨fun _ => rfl, fun _ => .inr rfl, fun _ _ => rfl, rfl, by simp, by simp⟩
  | append_singleton tids tid ih =>
    rw [List.foldl_append, List.foldl_cons, List.foldl_nil]
    obtain ⟨earlier, -, apart⟩ := List.nodup_append'.mp distinct
    refine (ih earlier fun t member => spans t (List.mem_append_left _ member)).step ?_ ?_
    · exact fun again => apart again (List.mem_singleton_self tid)
    · exact spans tid (by simp)

end

section
variable [UpperCase]

theorem mem_traceOrder {rows : List TraceRow} {tid : String} :
    tid ∈ traceOrder rows ↔ ∃ r ∈ rows, r.traceId = tid :=
  mem_sortedBy.trans mem_keys_tracesOf

theorem traceOrder_nodup (rows : List TraceRow) : (traceOrder rows).Nodup :=
  (sortedBy_perm _ _).nodup_iff.mpr (tracesOf rows).unique

theorem spansOf_ne_nil {rows : List TraceRow} {tid : String} (tried : tid ∈ traceOrder rows) :
    spansOf rows tid ≠ [] := by
  obtain ⟨r, member, same⟩ := mem_traceOrder.mp tried
  exact List.ne_nil_of_mem (mem_spansOf.mpr ⟨member, same⟩)

theorem traceOrder_ordered (rows : List TraceRow) :
    (traceOrder rows).Pairwise (TriedBefore rows) := by
  refine ((sortedBy_pairwise _ _).and (traceOrder_nodup rows)).imp fun {a b} => ?_
  rintro ⟨le, apart⟩
  simp only [get?_tracesOf, Prod.Lex.toLex_le_toLex] at le
  unfold TriedBefore
  rcases le with less | ⟨same, le⟩
  · cases erring : hasError (spansOf rows a) <;> cases other : hasError (spansOf rows b) <;>
      simp_all
  · refine .inr ⟨?_, lt_of_le_of_ne le apart⟩
    cases erring : hasError (spansOf rows a) <;> cases other : hasError (spansOf rows b) <;>
      simp_all

/-- What a sample of whole traces keeps and leaves out. -/
structure WholeTraces (rows : List TraceRow) (cap : ℤ) (kept : List TraceRow) : Prop where
  whole : ∀ tid, spansOf kept tid = spansOf rows tid ∨ spansOf kept tid = []
  parents : ∀ s ∈ kept, ∀ p ∈ rows, p.traceId = s.traceId → s.parentSpanId = some p.spanId → p ∈ kept
  bounded : (kept.length : ℤ) ≤
    max cap (((traceOrder rows).head?.map fun tid => (spansOf rows tid).length).getD 0 : ℕ)
  full : ∀ before tid after, traceOrder rows = before ++ tid :: after → spansOf kept tid = [] →
    cap < ((before.map fun t => (spansOf kept t).length).sum + (spansOf rows tid).length : ℕ)

omit [UpperCase] in
/-- A trace kept in part is kept as a whole, the parents with it. -/
theorem mem_of_whole {rows kept : List TraceRow} {s p : TraceRow}
    (whole : ∀ tid, spansOf kept tid = spansOf rows tid ∨ spansOf kept tid = [])
    (inKept : s ∈ kept) (inRows : p ∈ rows) (same : p.traceId = s.traceId) : p ∈ kept := by
  have member : s ∈ spansOf kept s.traceId := mem_spansOf.mpr ⟨inKept, rfl⟩
  rcases whole s.traceId with all | none_
  · exact (mem_spansOf.mp (all ▸ mem_spansOf.mpr ⟨inRows, same⟩)).1
  · exact absurd (none_ ▸ member) List.not_mem_nil

/-- The traces are tried with the erring ones first, then by id. Each is kept whole or not
at all, and one is left out only where it would exceed the cap. -/
theorem sampleWholeTraces_keeps (rows : List TraceRow) (cap : ℤ) :
    (traceOrder rows).Nodup ∧ (∀ tid, tid ∈ traceOrder rows ↔ ∃ r ∈ rows, r.traceId = tid) ∧
      (traceOrder rows).Pairwise (TriedBefore rows) ∧
      WholeTraces rows cap (sampleWholeTraces rows cap) := by
  refine ⟨traceOrder_nodup rows, fun _ => mem_traceOrder, traceOrder_ordered rows, ?_⟩
  unfold sampleWholeTraces
  split
  · rename_i fits
    refine ⟨fun _ => .inl rfl, fun _ _ _ member _ _ => member, le_max_of_le_left fits, ?_⟩
    intro before tid after cut dropped
    exact absurd dropped (spansOf_ne_nil (cut ▸ by simp))
  · simp only [get?_tracesOf]
    have run := sampling_run cap (traceOrder_nodup rows) fun _ => spansOf_ne_nil
    exact ⟨run.whole, fun s inKept p inRows same _ => mem_of_whole run.whole inKept inRows same,
      run.bounded, run.full⟩

end
end Sentinel.Rcaeval
