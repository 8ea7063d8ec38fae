import Mathlib.Data.Finset.Card
import Sentinel.Fixtures.Dumps
import Sentinel.Python.Replace
import Sentinel.Tools.Store

/-! Grading a submitted report against the sealed truth: where, what, and which change. The
localization grader, for the converted cases, has the location decide alone. -/
namespace Sentinel.ToolEval
open Python Fixtures Tools

/-- `[a-z0-9]`. -/
def isTokenChar (c : Char) : Bool := ('a' ≤ c ∧ c ≤ 'z') ∨ ('0' ≤ c ∧ c ≤ '9')

section
variable [LowerCase]

/-- The runs of token characters of a text. -/
def tokensOf (text : String) : Finset (List Char) :=
  (((LowerCase.lower text).toList.splitOnP fun c => !isTokenChar c).filter (· ≠ [])).toFinset

/-- `_tokens`. -/
def tokens (text : Json) : Py (Finset (List Char)) :=
  if text.truthy then
    match text with
    | .str text => .ok (tokensOf text)
    | v => .error ⟨"AttributeError", s!"'{v.typeName}' object has no attribute 'lower'", false⟩
  else .ok (tokensOf "")

/-- `_type_match`. -/
def typeMatch (reported : Json) (truth : String) : Py Bool := do
  let rt ← tokens reported
  let tt ← tokens (.str truth)
  if rt = ∅ then pure false else pure (decide (max 1 (tt.card - 1) ≤ (rt ∩ tt).card))

/-- Whether a field of the root cause is one of the values. -/
def among (rc : Json) (field : String) (values : List Json) : Py Bool := do
  (← rc.get field).isIn (.list values)

/-- The reported edge runs between two of the services. -/
def edgeAmong (rc : Json) (services : List Json) : Py Bool := do
  if ← among rc "caller" services then among rc "callee" services else pure false

/-- `root_cause.model_dump(exclude_none=True)`. -/
def presentDump (rootCause : RootCause) : Json :=
  .dict ([("kind", .str rootCause.kind), ("type", .str rootCause.type)] ++
    (rootCause.service.map fun name => ("service", .str name)).toList ++
    (rootCause.caller.map fun name => ("caller", .str name)).toList ++
    (rootCause.callee.map fun name => ("callee", .str name)).toList)

/-- The grade of no report. -/
def ungraded (dimensions : List String) : Json :=
  .dict (dimensions.map (fun d => (d, .bool false)) ++ [("reason", .str "no report submitted")])

/-- `location_correct` of `grade`. -/
def locationCorrect (rc : Json) (truth : PrivateTruth) : Py Bool := do
  let kind ← rc.get "kind"
  let kindOk := kind.pyEq (.str truth.rootCause.kind)
  let named := (truth.acceptedServices.getD []).map Json.str
  if truth.rootCause.kind = "service" then
    let accepted := if named.isEmpty then [textOrNull truth.rootCause.service] else named
    let location ← if kindOk then among rc "service" accepted else pure false
    if !location && !named.isEmpty && kind.pyEq (.str "edge") then edgeAmong rc named
    else pure location
  else if truth.rootCause.kind = "edge" then
    let caller ← rc.get "caller"
    let callee ← rc.get "callee"
    pure (kindOk && caller.pyEq (textOrNull truth.rootCause.caller) &&
      callee.pyEq (textOrNull truth.rootCause.callee))
  else pure kindOk

/-- `set(decoy_change_ids) <= set(ruled_out)`. -/
def decoysRuledOut (decoys : List String) (ruledOut : Json) : Py Bool := do
  let ruledOut ← ruledOut.orEmptyList.toSet
  pure (decoys.all fun id => ruledOut.any (·.pyEq (.str id)))

def grade (report : Json) (truth : PrivateTruth) : Py Json := do
  if report.truthy then
    let rc := (← report.get "root_cause").orEmptyDict
    let location ← locationCorrect rc truth
    let culpritChangeId ← report.get "culprit_change_id"
    let culprit := culpritChangeId.pyEq (.str truth.culpritChangeId)
    let ruledOutChangeIds ← report.get "ruled_out_change_ids"
    let decoys ← decoysRuledOut truth.decoyChangeIds ruledOutChangeIds
    let type ← typeMatch (← rc.get "type") truth.rootCause.type
    pure (.dict [("correct", .bool (location && culprit)), ("location_correct", .bool location),
      ("culprit_correct", .bool culprit), ("decoys_ruled_out", .bool decoys),
      ("type_match", .bool type),
      ("reported", .dict [("root_cause", rc), ("culprit_change_id", culpritChangeId),
        ("ruled_out_change_ids", ruledOutChangeIds)]),
      ("truth", .dict [("root_cause", presentDump truth.rootCause),
        ("culprit_change_id", .str truth.culpritChangeId),
        ("decoy_change_ids", texts truth.decoyChangeIds)])])
  else pure (ungraded ["correct", "location_correct", "culprit_correct", "decoys_ruled_out", "type_match"])

/-- The eval-only truth of a converted case. -/
structure RCAEvalTruth where
  scenarioId : String
  rootCause : RootCause
  acceptedServices : List String
  rootCauseIndicator : Option String := none
  faultCategory : String

/-- `truth.accepted_services or ([service] if service else [])`. -/
def RCAEvalTruth.accepted (truth : RCAEvalTruth) : List String :=
  if truth.acceptedServices.isEmpty then (given truth.rootCause.service).toList
  else truth.acceptedServices

/-- `" ".join(v)`. -/
def joinSpaces : Json → Py (List Char)
  | .list items => do
    let words ← items.mapM fun
      | .str word => .ok word.toList
      | v => .error ⟨"TypeError", s!"expected str instance, {v.typeName} found", false⟩
    pure (List.intercalate [' '] words)
  | .dict entries => .ok (List.intercalate [' '] (entries.map fun entry => entry.1.toList))
  | .str text => .ok (text.toList.intersperse ' ')
  | _ => .error ⟨"TypeError", "can only join an iterable", false⟩

/-- `location_correct` of `grade_localization`. -/
def localized (rc : Json) (accepted : List Json) : Py Bool := do
  if ← among rc "service" accepted then pure true
  else if (← rc.get "kind").pyEq (.str "edge") then edgeAmong rc accepted else pure false

def gradeLocalization (report : Json) (truth : RCAEvalTruth) : Py Json := do
  if report.truthy then
    let rc := (← report.get "root_cause").orEmptyDict
    let location ← localized rc (truth.accepted.map .str)
    let type ← typeMatch (← rc.get "type") truth.rootCause.type
    let evidence ← joinSpaces (← report.get "evidence").orEmptyList
    let indicator := (given truth.rootCauseIndicator).any fun text => decide (text.toList <:+: evidence)
    pure (.dict [("correct", .bool location), ("location_correct", .bool location),
      ("type_match", .bool type), ("indicator_correct", .bool indicator),
      ("reported", .dict [("root_cause", rc)]),
      ("truth", .dict [("root_cause", presentDump truth.rootCause),
        ("accepted_services", texts truth.accepted),
        ("indicator", textOrNull truth.rootCauseIndicator)])])
  else pure (ungraded ["correct", "location_correct", "type_match", "indicator_correct"])

end

/-- `bool(grade.get(dimension))`. -/
def holds (grade : Json) (dimension : String) : Bool := (grade.lookup dimension).any Json.truthy

/-- A report is right if it is right about the place and about the change. -/
theorem grade_correct [LowerCase] {report g : Json} {truth : PrivateTruth}
    (graded : grade report truth = .ok g) :
    holds g "correct" = (holds g "location_correct" && holds g "culprit_correct") := by
  unfold grade at graded
  split at graded
  case isFalse =>
    cases graded
    rfl
  case isTrue =>
    simp only [bind_ok_iff] at graded
    obtain ⟨_, -, location, -, _, -, _, -, decoys, -, _, -, type, -, built⟩ := graded
    cases built
    rfl

/-- Of a converted case, a report is right if there is one that is right about the place. -/
theorem gradeLocalization_correct [LowerCase] {report g : Json} {truth : RCAEvalTruth}
    (graded : gradeLocalization report truth = .ok g) :
    holds g "correct" = holds g "location_correct" ∧
      (holds g "correct" = true ↔ report.truthy = true ∧ ∃ rc, report.get "root_cause" = .ok rc ∧
        localized rc.orEmptyDict (truth.accepted.map .str) = .ok true) := by
  unfold gradeLocalization at graded
  split at graded
  case isFalse absent =>
    cases graded
    exact ⟨rfl, iff_of_false Bool.false_ne_true fun right => absent right.1⟩
  case isTrue present =>
    simp only [bind_ok_iff] at graded
    obtain ⟨rc, named, location, isLocated, _, -, type, -, _, -, _, -, built⟩ := graded
    cases built
    refine ⟨rfl, fun right => ⟨present, rc, named, ?_⟩, ?_⟩
    · exact isLocated.trans (congrArg Except.ok right)
    · rintro ⟨-, rc', named', right⟩
      obtain rfl := Except.ok.inj (named.symm.trans named')
      exact Except.ok.inj (isLocated.symm.trans right)

end Sentinel.ToolEval
