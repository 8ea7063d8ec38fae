import Mathlib.Data.Finset.Card
import Mathlib.Data.Finset.Filter
import Sentinel.Python.Grouping
import Sentinel.Python.Iteration
import Sentinel.Python.Ordering
import Sentinel.Tools.Attribution

/-! The alerts that the recorded scenarios fire. The check over all of them is for what the
alerts must not do, which is to tell which fault was injected. -/
namespace Sentinel.Labs.Otel
open Python Tools

/-- The alert names that each scenario fires. -/
abbrev Matrix := Dict String (List String)

/-- `str(v)` of a field that has to be a string. -/
def stringItem (v : Json) (key : String) : Py String := do
  match ← v.item key with
  | .str text => pure text
  | w => throw ⟨"TypeError", s!"expected a string, not '{w.typeName}'", false⟩

/-- One manifest's entry of the matrix. -/
def coverageRow (manifest : Json) : Py (String × List String) := do
  let scenarioId ← stringItem manifest "scenario_id"
  let alerts ← (← manifest.getElse "alerts" (.list [])).elements
  let names ← alerts.mapM fun a => stringItem a "alertname"
  pure (scenarioId, sortedBy id names)

/-- `build_coverage_matrix`, for the manifests of the fixture directories. -/
def buildCoverageMatrix (manifests : List Json) : Py Matrix := do
  let rows ← manifests.mapM coverageRow
  pure (rows.foldl (fun matrix row => matrix.set row.1 row.2) .empty)

section
variable [StrRepr]

/-- `str(names)` of a list of strings. -/
def listText (names : List String) : String :=
  "[" ++ String.intercalate ", " (names.map StrRepr.repr) ++ "]"

/-- The members of `frozenset(names)`, sorted. -/
def firingSet (names : List String) : List String := sortedBy id (keepFirst id [] names)

/-- The scenarios of each name, or of each firing set, in the order they are met. -/
def scenariosBy {κ : Type} [DecidableEq κ] (keys : String × List String → List κ) (matrix : Matrix) :
    Dict κ (List (κ × String)) :=
  collect (fun pair => some pair.1) .empty
    (matrix.items.flatMap fun row => (keys row).map fun key => (key, row.1))

def scenariosOf {κ : Type} (pairs : List (κ × String)) : List String :=
  sortedBy id (keepFirst id [] (pairs.map Prod.snd))

def coverageProblems (matrix : Matrix) : List String :=
  (matrix.items.filter fun row => row.2.isEmpty).map
      (fun row => s!"E1 coverage: scenario {row.1} fired no alert") ++
    ((scenariosBy Prod.snd matrix).items.filter fun entry => (scenariosOf entry.2).length < 2).map
      (fun entry => s!"E2 sharing: alert {entry.1} fires for only {listText (scenariosOf entry.2)}") ++
    ((scenariosBy (fun row => [firingSet row.2]) matrix).items.filter fun entry =>
        (scenariosOf entry.2).length < 2).map
      (fun entry => s!"E3 no-index: firing set {listText entry.1} is unique to " ++
        listText (scenariosOf entry.2))

def assertCoverageInvariants (matrix : Matrix) : Py Unit :=
  if (coverageProblems matrix).isEmpty then .ok ()
  else .error ⟨"CoverageError", String.intercalate "; " (coverageProblems matrix), false⟩

end

/-! ### What the check guarantees -/

theorem mem_scenariosOf {κ : Type} {pairs : List (κ × String)} {scenario : String} :
    scenario ∈ scenariosOf pairs ↔ ∃ key, (key, scenario) ∈ pairs := by
  simp [scenariosOf]

theorem scenariosOf_nodup {κ : Type} (pairs : List (κ × String)) : (scenariosOf pairs).Nodup := by
  have unique := keepFirst_nodup id [] (pairs.map Prod.snd)
  rw [List.map_id] at unique
  exact (sortedBy_perm id _).nodup_iff.mpr unique

/-- A name or a set is unique where there are no two scenarios of it. -/
theorem scenariosOf_short {κ : Type} {pairs : List (κ × String)} :
    (scenariosOf pairs).length < 2 ↔ ∀ s ∈ scenariosOf pairs, ∀ t ∈ scenariosOf pairs, s = t := by
  have unique := scenariosOf_nodup pairs
  rcases scenarios : scenariosOf pairs with - | ⟨s, - | ⟨t, rest⟩⟩
  · simp
  · simp
  · rw [scenarios, List.nodup_cons, List.mem_cons, not_or] at unique
    constructor
    · intro short
      simp only [List.length_cons] at short
      omega
    · intro same
      exact absurd (same s (by simp) t (by simp)) unique.1.1

section
variable {κ : Type} [DecidableEq κ] {keys : String × List String → List κ} {matrix : Matrix}

theorem mem_scenariosBy {entry : κ × List (κ × String)}
    (member : entry ∈ (scenariosBy keys matrix).items) (scenario : String) :
    scenario ∈ scenariosOf entry.2 ↔ ∃ row ∈ matrix.items, row.1 = scenario ∧ entry.1 ∈ keys row := by
  rw [scenariosBy, items_collect] at member
  obtain ⟨key, -, rfl⟩ := List.mem_map.mp member
  simp only [mem_scenariosOf, List.mem_filter, List.mem_flatMap, List.mem_map, Prod.mk.injEq,
    Option.some.injEq, decide_eq_true_eq]
  constructor
  · rintro ⟨_, ⟨row, inside, _, named, rfl, rfl⟩, rfl⟩
    exact ⟨row, inside, rfl, named⟩
  · rintro ⟨row, inside, rfl, named⟩
    exact ⟨key, ⟨row, inside, key, named, rfl, rfl⟩, rfl⟩

theorem exists_scenariosBy {row : String × List String} (member : row ∈ matrix.items) {key : κ}
    (named : key ∈ keys row) : ∃ entry ∈ (scenariosBy keys matrix).items, entry.1 = key := by
  have known : key ∈ (scenariosBy keys matrix).keys := by
    rw [scenariosBy, mem_keys_collect]
    exact .inr ⟨(key, row.1), List.mem_flatMap.mpr ⟨row, member, List.mem_map_of_mem named⟩, rfl⟩
  exact List.mem_map.mp known

/-- No name or set is unique exactly where every scenario shares its own with another. -/
theorem shared_iff : (∀ entry ∈ (scenariosBy keys matrix).items, ¬ (scenariosOf entry.2).length < 2) ↔
    ∀ row ∈ matrix.items, ∀ key ∈ keys row, ∃ other ∈ matrix.items,
      other.1 ≠ row.1 ∧ key ∈ keys other := by
  constructor
  · intro shared row inside key named
    obtain ⟨entry, member, rfl⟩ := exists_scenariosBy inside named
    by_contra alone
    push Not at alone
    refine shared entry member (scenariosOf_short.mpr ?_)
    have own : ∀ s ∈ scenariosOf entry.2, s = row.1 := by
      intro s known
      obtain ⟨other, inside, rfl, named⟩ := (mem_scenariosBy member s).mp known
      by_contra apart
      exact alone other inside apart named
    exact fun s knownS t knownT => (own s knownS).trans (own t knownT).symm
  · intro shared entry member short
    rw [scenariosOf_short] at short
    have known : entry.1 ∈ (scenariosBy keys matrix).keys := List.mem_map_of_mem member
    rw [scenariosBy, mem_keys_collect] at known
    obtain none | ⟨pair, collected, isKey⟩ := known
    · cases none
    obtain ⟨row, inside, held⟩ := List.mem_flatMap.mp collected
    obtain ⟨key, named, rfl⟩ := List.mem_map.mp held
    obtain rfl : key = entry.1 := Option.some.inj isKey
    obtain ⟨other, there, apart, namedThere⟩ := shared row inside _ named
    refine apart (short _ ?_ _ ?_)
    · exact (mem_scenariosBy member _).mpr ⟨other, there, rfl, namedThere⟩
    · exact (mem_scenariosBy member _).mpr ⟨row, inside, rfl, named⟩

end

theorem mem_firingSet {xs : List String} {a : String} : a ∈ firingSet xs ↔ a ∈ xs := by
  rw [firingSet, mem_sortedBy, mem_keepFirst_id]

theorem firingSet_eq_iff {xs ys : List String} : firingSet xs = firingSet ys ↔ ∀ a, a ∈ xs ↔ a ∈ ys := by
  constructor
  · intro same a
    rw [← mem_firingSet, same, mem_firingSet]
  · intro same
    have unique (zs : List String) : (keepFirst id [] zs).Nodup := by
      have distinct := keepFirst_nodup id [] zs
      rwa [List.map_id] at distinct
    refine sortedBy_congr ?_ (fun _ _ => rfl) Function.injective_id
    rw [List.perm_ext_iff_of_nodup (unique xs) (unique ys)]
    intro a
    rw [mem_keepFirst_id, mem_keepFirst_id, same]

/-- Every scenario fires an alert, and just those that another scenario fires. -/
def Hidden (matrix : Matrix) : Prop :=
  ∀ row ∈ matrix.items, row.2 ≠ [] ∧ ∃ other ∈ matrix.items, other.1 ≠ row.1 ∧ ∀ a, a ∈ row.2 ↔ a ∈ other.2

theorem coverage_iff [StrRepr] {matrix : Matrix} :
    Returns (assertCoverageInvariants matrix) ↔ Hidden matrix := by
  have passes : Returns (assertCoverageInvariants matrix) ↔ coverageProblems matrix = [] := by
    rw [assertCoverageInvariants]
    split_ifs with none
    · exact iff_of_true (returns_ok _) (List.isEmpty_iff.mp none)
    · exact iff_of_false (not_returns_error _) fun empty => none (List.isEmpty_iff.mpr empty)
  have sets : ∀ row other : String × List String,
      firingSet row.2 ∈ [firingSet other.2] ↔ ∀ a, a ∈ row.2 ↔ a ∈ other.2 := fun row other => by
    rw [List.mem_singleton, firingSet_eq_iff]
  rw [passes, coverageProblems, List.append_eq_nil_iff, List.append_eq_nil_iff, List.map_eq_nil_iff,
    List.map_eq_nil_iff, List.map_eq_nil_iff, List.filter_eq_nil_iff, List.filter_eq_nil_iff,
    List.filter_eq_nil_iff]
  simp only [decide_eq_true_eq, shared_iff, List.forall_mem_singleton, sets]
  constructor
  · rintro ⟨⟨fires, -⟩, shares⟩ row inside
    exact ⟨fun empty => fires row inside (List.isEmpty_iff.mpr empty), shares row inside⟩
  · intro hidden
    refine ⟨⟨fun row inside empty => ?_, fun row inside name named => ?_⟩, fun row inside => ?_⟩
    · exact (hidden row inside).1 (List.isEmpty_iff.mp empty)
    · obtain ⟨other, there, apart, same⟩ := (hidden row inside).2
      exact ⟨other, there, apart, (same name).mp named⟩
    · exact (hidden row inside).2

/-- The matrix of recordings that have scenario ids of their own passes exactly where each of
them fires an alert, and just those that another one fires. -/
theorem built_coverage_iff [StrRepr] {manifests : List Json} {rows : List (String × List String)}
    (read : manifests.mapM coverageRow = .ok rows) (distinct : (rows.map Prod.fst).Nodup) :
    ∃ matrix, buildCoverageMatrix manifests = .ok matrix ∧
      (Returns (assertCoverageInvariants matrix) ↔ ∀ row ∈ rows, row.2 ≠ [] ∧
        ∃ other ∈ rows, other.1 ≠ row.1 ∧ ∀ a, a ∈ row.2 ↔ a ∈ other.2) := by
  have built : buildCoverageMatrix manifests =
      .ok (rows.foldl (fun matrix row => matrix.set row.1 row.2) .empty) := by
    rw [buildCoverageMatrix, read]
    rfl
  refine ⟨_, built, coverage_iff.trans ?_⟩
  rw [Hidden, Dict.items_foldl_set rows distinct]

/-- A guess of the scenario from the alerts it fires is right. -/
def Guesses (guess : Finset String → String) (row : String × List String) : Prop :=
  guess row.2.toFinset = row.1

instance (guess : Finset String → String) : DecidablePred (Guesses guess) := fun _ =>
  decEq _ _

/-- Where a guess is right, it is wrong for the other scenarios that fire the same alerts. -/
theorem Hidden.guessed {matrix : Matrix} (hidden : Hidden matrix) (guess : Finset String → String) :
    2 * (matrix.items.filter fun row => Guesses guess row).length ≤ matrix.items.length := by
  have unique : matrix.items.Nodup := matrix.unique.of_map _
  have same {row other : String × List String} (fires : ∀ a, a ∈ row.2 ↔ a ∈ other.2) :
      row.2.toFinset = other.2.toFinset := by
    ext a
    rw [List.mem_toFinset, List.mem_toFinset, fires]
  choose! twin inside apart fires using fun row member => (hidden row member).2
  have right : (matrix.items.toFinset.filter (Guesses guess)).card =
      (matrix.items.filter fun row => Guesses guess row).length := by
    rw [← List.toFinset_card_of_nodup (unique.filter _)]
    congr 1
    ext row
    simp
  have whole := Finset.card_filter_add_card_filter_not (s := matrix.items.toFinset) (Guesses guess)
  have fewer : (matrix.items.toFinset.filter (Guesses guess)).card ≤
      (matrix.items.toFinset.filter fun row => ¬ Guesses guess row).card := by
    refine Finset.card_le_card_of_injOn twin ?_ ?_
    · intro row member
      rw [Finset.mem_coe, Finset.mem_filter, List.mem_toFinset] at member ⊢
      refine ⟨inside row member.1, fun isRight => apart row member.1 ?_⟩
      rw [← isRight, ← same (fires row member.1)]
      exact member.2
    · intro row member other memberOther twins
      rw [Finset.mem_coe, Finset.mem_filter, List.mem_toFinset] at member memberOther
      have names : row.1 = other.1 := by
        rw [← member.2, ← memberOther.2, same (fires row member.1), same (fires other memberOther.1),
          twins]
      exact List.inj_on_of_nodup_map matrix.unique member.1 memberOther.1 names
  rw [right] at whole fewer
  rw [List.toFinset_card_of_nodup unique] at whole
  omega

/-- The check passes exactly where every scenario fires and shares its alerts with another
one, and then no guess from the alerts is right for more than half of the scenarios. -/
theorem coverage_hides [StrRepr] (matrix : Matrix) :
    (Returns (assertCoverageInvariants matrix) ↔ Hidden matrix) ∧
      (Returns (assertCoverageInvariants matrix) → ∀ guess : Finset String → String,
        2 * (matrix.items.filter fun row => Guesses guess row).length ≤ matrix.items.length) :=
  ⟨coverage_iff, fun passes guess => (coverage_iff.mp passes).guessed guess⟩

section Sample
attribute [local instance] quoted

/-- Two scenarios that fire the same alert, whatever the order and number of times. -/
def pairedMatrix : Matrix where
  items := [("payment_failure_001", ["UserFacingDegradation"]),
    ("cart_failure_001", ["UserFacingDegradation", "UserFacingDegradation"])]
  unique := by decide

theorem pairedMatrix_hides : Returns (assertCoverageInvariants pairedMatrix) ∧
    2 * (pairedMatrix.items.filter fun row => Guesses (fun _ => "cart_failure_001") row).length ≤
      pairedMatrix.items.length := by
  have passes := (coverage_hides pairedMatrix).1.mpr (by simp [Hidden, pairedMatrix])
  exact ⟨passes, (coverage_hides pairedMatrix).2 passes _⟩

end Sample

end Sentinel.Labs.Otel
