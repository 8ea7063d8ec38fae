import Sentinel.Actions.Catalog

/-! The brief of a completed run, built from the document of its result. The document is
any JSON object, and reading it raises where Python does. -/
namespace Sentinel.Actions
open Python

/-- `v or w`. -/
def firstTruthy (v w : Json) : Json := if v.truthy then v else w

/-- `v.get(key, default)`. -/
def getOr (v : Json) (key : String) (default : Json) : Py Json := do
  let found ← v.get key
  pure (if (v.lookup key).isSome then found else default)

/-- The values that `for x in v` goes through. -/
def iterate : Json → Py (List Json)
  | .list items => .ok items
  | .dict entries => .ok (entries.map fun entry => .str entry.1)
  | .str text => .ok (text.toList.map fun c => .str (String.singleton c))
  | v => .error ⟨"TypeError", s!"'{v.typeName}' object is not iterable", false⟩

/-- `v[:3]`. -/
def firstThree : Json → Py Json
  | .list items => .ok (.list (items.take 3))
  | .str text => .ok (.str (String.ofList (text.toList.take 3)))
  | .dict _ => .error ⟨"TypeError", "unhashable type: 'slice'", false⟩
  | v => .error ⟨"TypeError", s!"'{v.typeName}' object is not subscriptable", false⟩

def validationError : Exn := ⟨"ValidationError", "Input should be a valid string", false⟩

/-- A value of a field declared as `str`. -/
def asText : Json → Py String
  | .str text => .ok text
  | _ => .error validationError

/-- A value of a field declared as `str | None`. -/
def asOptionalText : Json → Py (Option String)
  | .null => .ok none
  | v => some <$> asText v

/-- A value of a field declared as `list[str]`. -/
def asTexts : Json → Py (List String)
  | .list items => items.mapM asText
  | _ => .error ⟨"ValidationError", "Input should be a valid list", false⟩

/-- Whether a verdict is about the service. -/
def mentions (verdict service : Json) : Py Bool := do
  let candidate ← verdict.get "candidate_service"
  let root ← verdict.get "root_cause_service"
  pure (candidate.pyEq service || root.pyEq service)

/-- `_top_evidence`. -/
def topEvidence : List Json → Json → Py (Json × Json)
  | [], _ => .ok (.list [], .dict [])
  | verdict :: rest, service => do
    if ← mentions verdict service then
      let evidence ← getOr verdict "evidence" (.list [])
      let lines ← firstThree evidence
      let signatures ← getOr verdict "observed_signatures" (.dict [])
      pure (lines, signatures)
    else topEvidence rest service

/-- Some verdict about the root cause is supported. -/
def supportedRoot (root : Json) : List Json → Py Bool
  | [] => .ok false
  | verdict :: rest => do
    let mentioned ← mentions verdict root
    let supported ← verdict.get "supported"
    if mentioned && supported.truthy then pure true else supportedRoot root rest

/-- `next((k for k, on in signatures.items() if on), None)`. -/
def firstOn : Json → Py (Option String)
  | .dict entries => .ok ((entries.find? fun entry => entry.2.truthy).map Prod.fst)
  | v => .error ⟨"AttributeError", s!"'{v.typeName}' object has no attribute 'items'", false⟩

/-- What `build_brief` reads before it asks for suggestions. -/
structure Diagnosis where
  synthesis : Json
  root : Json
  faultType : Json
  services : List Json
  ranked : List Json
  confident : Bool
  citations : Json
  signature : Option String
  rooted : confident = true → root.truthy = true

def rankedEntry (service evidence signatures : Json) : Json :=
  .dict [("service", service), ("evidence", evidence), ("observed_signatures", signatures)]

def diagnose (result : Json) : Py Diagnosis := do
  let synthesis ← Json.orEmptyDict <$> result.get "synthesis"
  let root := firstTruthy (← result.get "root_cause_service") (← synthesis.get "root_cause_service")
  let faultType ← synthesis.get "fault_type"
  let verdicts ← getOr result "verdicts" (.list [])
  let rankedServices := firstTruthy (← result.get "ranked_services")
    (← synthesis.get "ranked_services")
  let services ← firstThree rankedServices.orEmptyList
  let services ← iterate services
  let verdicts ← iterate verdicts
  let found ← services.mapM fun service => topEvidence verdicts service
  let ranked := (services.zip found).map fun (service, lines, on) => rankedEntry service lines on
  let supported ← supportedRoot root verdicts
  let leads := match services with
    | [] => true
    | first :: _ => first.pyEq root
  let cited ← if root.truthy then topEvidence verdicts root else .ok (.list [], .dict [])
  let signature ← firstOn ((found.head?.map Prod.snd).getD (.dict []))
  pure
    { synthesis, root, faultType, services, ranked, confident := root.truthy && supported && leads
      citations := cited.1, signature
      rooted := fun confident => (Bool.and_eq_true_iff.mp (Bool.and_eq_true_iff.mp confident).1).1 }

/-- `root or (ranked_services[0] if ranked_services else "unknown")`. -/
def Diagnosis.target (diagnosis : Diagnosis) : Json :=
  firstTruthy diagnosis.root (diagnosis.services.head?.getD (.str "unknown"))

/-- `fault_type`, as the catalog looks it up. -/
def faultText : Json → Py (Option String)
  | .str text => .ok (some text)
  | v =>
    if v.truthy then .error ⟨"AttributeError", s!"'{v.typeName}' object has no attribute 'lower'", false⟩
    else .ok none

/-- The catalog rows of a confident diagnosis. -/
def Diagnosis.remedies (diagnosis : Diagnosis) : Py (List CatalogRow) :=
  if diagnosis.confident then do
    let fault ← faultText diagnosis.faultType
    catalogKey fault diagnosis.signature
  else .ok []

structure Brief where
  runId : String
  symptom : String
  rootCauseService : Option String
  faultType : Option String
  graphSource : String := ""
  ranked : List Json := []
  primaryAction : Option SuggestedAction := none
  alternatives : List SuggestedAction := []
  confident : Bool := true

section
variable [FloatRepr] [Hashlib]

/-- `suggest_actions`, if there is anything to suggest. The target and the citations are
validated with the first draft, after the rows are looked up. -/
def Diagnosis.suggest (uuids : ℕ → String) (diagnosis : Diagnosis) : Py (List SuggestedAction) :=
  if diagnosis.root.truthy || !diagnosis.services.isEmpty then do
    let found ← diagnosis.remedies
    let target ← asText diagnosis.target
    let citations ← asTexts diagnosis.citations.orEmptyList
    draftActions uuids (rankedRows found) target citations (dryRunExecutor 0)
  else .ok []

def buildBrief (uuids : ℕ → String) (result : Json) : Py Brief := do
  let runId ← getOr result "run_id" (.str "")
  let diagnosis ← diagnose result
  let actions ← diagnosis.suggest uuids
  let symptom := firstTruthy (← getOr result "symptom" (.str ""))
    (← getOr diagnosis.synthesis "justification" (.str ""))
  let graphSource ← getOr result "graph_source" (.str "")
  pure
    { runId := ← asText runId
      symptom := ← asText (firstTruthy symptom (.str "Incident under investigation."))
      rootCauseService := ← asOptionalText diagnosis.root
      faultType := ← asOptionalText diagnosis.faultType
      graphSource := ← asText graphSource
      ranked := diagnosis.ranked
      primaryAction := electPrimary actions
      alternatives := actions.eraseP fun action => action.effect = .mutate
      confident := diagnosis.confident }

end

end Sentinel.Actions
