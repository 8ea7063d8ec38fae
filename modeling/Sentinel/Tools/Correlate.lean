import Sentinel.Tools.Traces

/-! Attribution of a fault from observations that count error spans: a service whose
server spans err, else the edge whose client spans err. -/
namespace Sentinel.Tools
open Python

structure AttributeFaultInput where
  observations : List FaultObservation
  given : observations ≠ []

/-- `AttributeFaultInput(observations=observations)`. -/
def AttributeFaultInput.validate (observations : List FaultObservation) : Py AttributeFaultInput :=
  if given : observations ≠ [] then .ok ⟨observations, given⟩
  else .error ⟨"ValidationError", "List should have at least 1 item after validation, not 0", false⟩

structure Attribution where
  kind : FaultKind
  service : Option String := none
  caller : Option String := none
  callee : Option String := none
  confidence : ℚ
  rationale : String

/-- `{o.service: o.error_count ...}` over the server observations that count an error. -/
def serverErrors (observations : List FaultObservation) : Dict String ℕ :=
  (observations.filter fun o => o.role = .server && decide (0 < o.errorCount)).foldl
    (fun d o => d.set o.service o.errorCount) .empty

/-- `correlate_attribute_fault`. -/
def attributeFault (params : AttributeFaultInput) : Attribution :=
  let errors := serverErrors params.observations
  match errors.keys.argmax fun service => (errors.get? service).getD 0 with
  | some service =>
    { kind := .service, service := some service, confidence := 9 / 10
      rationale := s!"{service} server spans error ({(errors.get? service).getD 0}): the service's own work failed" }
  | none =>
    let clientErrors := params.observations.filter fun o =>
      o.role = .client && decide (0 < o.errorCount) && !((errors.get? (o.callee.getD "")).isSome)
    match clientErrors.argmax FaultObservation.errorCount with
    | some top =>
      let callee := top.callee.getD "None"
      { kind := .edge, caller := some top.service, callee := top.callee, confidence := 4 / 5
        rationale := s!"{top.service} client spans to {callee} error ({top.errorCount}) " ++
          s!"while {callee} server spans are clean: an edge fault" }
    | none =>
      { kind := .unknown, confidence := 0, rationale := "no erroring observations to attribute" }

end Sentinel.Tools
