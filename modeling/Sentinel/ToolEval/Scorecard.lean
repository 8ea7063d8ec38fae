import Sentinel.Tools.Traces
import Sentinel.ToolEval.Aggregate

/-! The scorecard of a sweep: the graded cases counted by the system, the fault and the kind
of fault that their names tell. -/
namespace Sentinel.ToolEval
open Python Fixtures Tools

/-- What a case is named after. -/
structure CaseName where
  system : String
  service : String
  fault : String
  number : String

section
variable [StrRepr]

def parseCaseName (name : String) : Py CaseName :=
  let parts := name.toList.splitOn '_'
  if parts.length < 4 then
    .error ⟨"ValueError", "unexpected RCAEval case name: " ++ StrRepr.repr name, false⟩
  else
    let part (i : ℕ) := String.ofList (parts.getD i [])
    .ok { system := part 0
          service := String.ofList (List.intercalate ['_'] ((parts.drop 1).take (parts.length - 3)))
          fault := part (parts.length - 2)
          number := part (parts.length - 1) }

end

/-- `FAULT_CATEGORY.get(fault, "unknown")`. -/
def faultCategory (fault : String) : String :=
  (([("cpu", "resource"), ("mem", "resource"), ("disk", "resource"), ("socket", "resource"),
    ("delay", "network"), ("loss", "network"), ("f1", "code"), ("f2", "code"), ("f3", "code"),
    ("f4", "code"), ("f5", "code")] : List (String × String)).lookup fault).getD "unknown"

structure Cell where
  hits : ℕ
  n : ℕ
  ac1 : ℚ

abbrev Table := Dict String Cell

/-- `_bump`. -/
def bump (table : Table) (key : String) (hit : Bool) : Table :=
  let cell := (table.get? key).getD ⟨0, 0, 0⟩
  let n := cell.n + 1
  let hits := cell.hits + if hit then 1 else 0
  table.set key ⟨hits, n, rnd (hits / n)⟩

structure Scores where
  hits : ℕ := 0
  bySystem : Table := .empty
  byFault : Table := .empty
  byCategory : Table := .empty

/-- One graded case. -/
def Scores.add (scores : Scores) (name : CaseName) (hit : Bool) : Scores where
  hits := scores.hits + if hit then 1 else 0
  bySystem := bump scores.bySystem name.system hit
  byFault := bump scores.byFault name.fault hit
  byCategory := bump scores.byCategory (faultCategory name.fault) hit

/-- The loop of `aggregate_scorecard`. -/
def aggregateScorecard [StrRepr] (graded : List (String × Json)) : Py Scores :=
  graded.foldlM (fun scores entry => do
    let name ← parseCaseName entry.1
    pure (scores.add name (holds entry.2 "correct"))) {}

structure Scorecard extends Scores where
  overallAc1 : ℚ
  n : ℕ
  skipped : List (String × Exn)
  notRun : List String
  stoppedEarly : Bool
  totalCostUsd : ℚ
  maxCostUsd : Option ℚ

/-- `round(x, 4)`. -/
def roundFour (x : ℚ) : ℚ := rnd (roundEven (10000 * x) / 10000)

def Table.toJson (table : Table) : Json :=
  .dict (table.items.map fun entry => (entry.1, .dict [("hits", .int entry.2.hits),
    ("n", .int entry.2.n), ("ac1", .float entry.2.ac1)]))

/-- The document of a scorecard, where `reprExn` is `repr` of the exceptions. -/
def Scorecard.toJson (reprExn : Exn → String) (card : Scorecard) : Json :=
  .dict [("overall_ac1", .float card.overallAc1), ("n", .int card.n), ("hits", .int card.hits),
    ("by_system", card.bySystem.toJson), ("by_fault", card.byFault.toJson),
    ("by_category", card.byCategory.toJson),
    ("skipped", .list (card.skipped.map fun skip =>
      .dict [("case", .str skip.1), ("error", .str (reprExn skip.2))])),
    ("not_run", texts card.notRun), ("stopped_early", .bool card.stoppedEarly),
    ("total_cost_usd", .float card.totalCostUsd), ("max_cost_usd", Json.ofOption card.maxCostUsd)]

/-! ### The tables of a scorecard -/

/-- The cell of the hits and misses of a key. -/
def cellOf (hits : List Bool) : Option Cell :=
  if hits.isEmpty then none
  else some ⟨hits.count true, hits.length, rnd ((hits.count true : ℚ) / hits.length)⟩

theorem bump_own {table : Table} {key : String} {hits : List Bool}
    (before : table.get? key = cellOf hits) (hit : Bool) :
    (bump table key hit).get? key = cellOf (hits ++ [hit]) := by
  rw [bump, Dict.get?_set, if_pos rfl, before]
  cases hits with
  | nil => cases hit <;> rfl
  | cons first rest =>
    -- the cell adds up in ℕ, the one quotient is of the sums
    have counted : ((first :: rest) ++ [hit]).count true =
        (first :: rest).count true + if hit then 1 else 0 := by
      rw [List.count_append, List.count_singleton]
      simp
    have length : ((first :: rest) ++ [hit]).length = (first :: rest).length + 1 := by
      rw [List.length_append, List.length_singleton]
    have full (bs : List Bool) (nonempty : bs ≠ []) : cellOf bs =
        some ⟨bs.count true, bs.length, rnd ((bs.count true : ℚ) / bs.length)⟩ := by
      rw [cellOf, if_neg (by simpa using nonempty)]
    rw [full _ (List.cons_ne_nil _ _), full _ (by simp), counted, length]
    rfl

theorem bump_other {table : Table} {key other : String} (ne : other ≠ key) (hit : Bool) :
    (bump table key hit).get? other = table.get? other := by
  rw [bump, Dict.get?_set, if_neg ne]

section
variable [StrRepr]

/-- The hits and misses of the cases whose name has the key. -/
def hitsOf (key : CaseName → String) (k : String) (graded : List (String × Json)) : List Bool :=
  (graded.filter fun entry => (parseCaseName entry.1).toOption.any fun name => key name = k).map
    fun entry => holds entry.2 "correct"

/-- A table has a cell for each key of a case, with the hits among the cases of that key. -/
def Tabulates (key : CaseName → String) (graded : List (String × Json)) (table : Table) : Prop :=
  ∀ k, table.get? k = cellOf (hitsOf key k graded)

theorem Tabulates.bump {key : CaseName → String} {graded : List (String × Json)} {table : Table}
    (held : Tabulates key graded table) {entry : String × Json} {name : CaseName}
    (parsed : parseCaseName entry.1 = .ok name) :
    Tabulates key (graded ++ [entry]) (bump table (key name) (holds entry.2 "correct")) := by
  intro k
  by_cases own : k = key name
  · subst own
    have split : hitsOf key (key name) (graded ++ [entry]) =
        hitsOf key (key name) graded ++ [holds entry.2 "correct"] := by
      simp [hitsOf, parsed, Except.toOption]
    rw [split]
    exact bump_own (held _) _
  · have same : hitsOf key k (graded ++ [entry]) = hitsOf key k graded := by
      simp [hitsOf, parsed, Except.toOption, Ne.symm own]
    rw [same, bump_other own]
    exact held k

/-- What the scores tell of the graded cases. -/
structure Scores.Tell (graded : List (String × Json)) (scores : Scores) : Prop where
  hits : scores.hits = graded.countP fun entry => holds entry.2 "correct"
  bySystem : Tabulates CaseName.system graded scores.bySystem
  byFault : Tabulates CaseName.fault graded scores.byFault
  byCategory : Tabulates (fun name => faultCategory name.fault) graded scores.byCategory

theorem aggregateScorecard_spec (graded : List (String × Json)) :
    (∃ scores, aggregateScorecard graded = .ok scores ∧ scores.Tell graded) ∨
      ∃ e, aggregateScorecard graded = .error e ∧ ∃ entry ∈ graded, parseCaseName entry.1 = .error e := by
  induction graded using List.reverseRecOn with
  | nil => exact .inl ⟨{}, rfl, ⟨rfl, fun _ => rfl, fun _ => rfl, fun _ => rfl⟩⟩
  | append_singleton graded entry ih =>
    rw [aggregateScorecard, List.foldlM_append, ← aggregateScorecard]
    rcases ih with ⟨scores, added, told⟩ | ⟨e, raised, other, member, bad⟩
    · cases parsed : parseCaseName entry.1 with
      | ok name =>
        refine .inl ⟨scores.add name (holds entry.2 "correct"), ?_, ?_⟩
        · rw [added]
          simp [parsed, bind, Except.bind, pure, Except.pure]
        · constructor
          · rw [Scores.add, told.hits, List.countP_append, List.countP_singleton]
          · exact told.bySystem.bump parsed
          · exact told.byFault.bump parsed
          · exact told.byCategory.bump parsed
      | error e =>
        refine .inr ⟨e, ?_, entry, by simp, parsed⟩
        rw [added]
        simp [parsed, bind, Except.bind]
    · refine .inr ⟨e, ?_, other, List.mem_append_left _ member, bad⟩
      rw [raised]
      rfl

end

end Sentinel.ToolEval
