import Sentinel.Actions.Journal
import Sentinel.Fixtures.Validation
import Sentinel.Python.RecordLog

/-! The file of the action journal: each event is appended as one line of JSON, and the
fold reads the lines anew. A record that is read names its action by a string. -/
namespace Sentinel.Actions
open Python Tools Tools.Validated Fixtures

def EventKind.text : EventKind → String
  | .proposed => "proposed"
  | .posted => "posted"
  | .approved => "approved"
  | .denied => "denied"
  | .expired => "expired"
  | .executeStarted => "execute_started"
  | .executeResult => "execute_result"
  | .nearMiss => "near_miss"

def Effect.text : Effect → String
  | .notify => "notify"
  | .mutate => "mutate"

def Risk.text : Risk → String
  | .low => "low"
  | .medium => "medium"
  | .high => "high"

def SuggestedAction.modelDump (action : SuggestedAction) : Json :=
  .dict [("id", .str action.id), ("kind", .str action.kind.text), ("effect", .str action.effect.text),
    ("target_service", .str action.targetService), ("params", .dict action.params.toJson),
    ("description", .str action.description), ("risk", .str action.risk.text),
    ("reversible", .bool action.reversible), ("preview", .str action.preview),
    ("citations", texts action.citations), ("params_hash", .str action.paramsHash)]

def ResultRecord.data (result : ResultRecord) : List (String × Json) :=
  [("ok", .bool result.ok), ("before", result.before), ("after", result.after),
    ("duration_s", .float result.durationS), ("error", .str result.error)]

/-- The fields that the emitter of the event gives to `append`. -/
def EventBody.data : EventBody → List (String × Json)
  | .proposed action expiresAt =>
    [("action", action.modelDump), ("expires_at", .ofOption expiresAt)]
  | .posted surface ref => [("surface", .str surface), ("ref", .str ref)]
  | .approved approver surface => [("approver", .str approver), ("surface", .str surface)]
  | .denied approver reason => [("approver", .str approver), ("reason", .str reason)]
  | .expired => []
  | .executeStarted backend preview => [("backend", .str backend), ("preview", .str preview)]
  | .executeResult result => result.data
  | .nearMiss attempted «by» why => [("attempted", .str attempted), ("by", .str «by»), ("why", .str why)]

def Event.record (ts : ℚ) (e : Event) : Json :=
  .dict (("ts", .float ts) :: ("kind", .str e.kind.text) :: ("action_id", .str e.actionId) :: e.body.data)

/-! ### What is read -/

def ActionKind.validate : Json → Validated ActionKind
  | .str "restart" => .ok .restart
  | .str "scale" => .ok .scale
  | .str "remove_impairment" => .ok .removeImpairment
  | .str "revert_change" => .ok .revertChange
  | .str "open_ticket" => .ok .openTicket
  | .str "page_oncall" => .ok .pageOncall
  | _ => fail "Input should be 'restart', 'scale', 'remove_impairment', 'revert_change', 'open_ticket' or 'page_oncall'"

def Effect.validate : Json → Validated Effect
  | .str "notify" => .ok .notify
  | .str "mutate" => .ok .mutate
  | _ => fail "Input should be 'notify' or 'mutate'"

def Risk.validate : Json → Validated Risk
  | .str "low" => .ok .low
  | .str "medium" => .ok .medium
  | .str "high" => .ok .high
  | _ => fail "Input should be 'low', 'medium' or 'high'"

/-- The lax conversion to a `bool` field. A bool is taken as it is. -/
class LaxScalars extends LaxNumbers where
  parseBool : Json → Except String Bool
  parse_bool : ∀ b, parseBool (.bool b) = .ok b

/-- The state of an action as the fold leaves it. What it assigns to the fields is not
validated. -/
structure FoldedState where
  action : SuggestedAction
  status : Status := .proposed
  approver : Json := .null
  surface : Json := .null
  expiresAt : Option ℚ := none
  outcome : Json := .null

section
variable [LaxScalars]

def validateBool (v : Json) : Validated Bool :=
  match LaxScalars.parseBool v with
  | .ok b => .ok b
  | .error msg => fail msg

/-- `str | int`. -/
def ParamValue.validate : Json → Validated ParamValue
  | .str s => .ok (.str s)
  | v => (validateInt v).map .int

def validateParamEntries : List (String × Json) → Validated (List (String × ParamValue))
  | [] => .ok []
  | (key, v) :: rest =>
    (both (within key (ParamValue.validate v)) (validateParamEntries rest)).map fun p => (key, p.1) :: p.2

/-- `dict[str, str | int]`. -/
def validateParams : Json → Validated Params
  | .dict entries => (validateParamEntries entries).map fun pairs =>
    pairs.foldl (fun params pair => params.set pair.1 pair.2) .empty
  | _ => fail "Input should be a valid dictionary"

/-- `float | None`. -/
def validateOptionalFloat : Json → Validated (Option ℚ)
  | .null => .ok none
  | v => (validateFloat v).map some

def SuggestedAction.validate (v : Json) : Validated SuggestedAction :=
  if v.isDict then
    (both (required "id" validateStr v)
      (both (required "kind" ActionKind.validate v)
        (both (required "effect" Effect.validate v)
          (both (required "target_service" validateStr v)
            (both (defaulted "params" validateParams .empty v)
              (both (defaulted "description" validateStr "" v)
                (both (defaulted "risk" Risk.validate .medium v)
                  (both (defaulted "reversible" validateBool true v)
                    (both (defaulted "preview" validateStr "" v)
                      (both (defaulted "citations" (validateList validateStr) [] v)
                        (defaulted "params_hash" validateStr "" v))))))))))).map
      fun (id, kind, effect, targetService, params, description, risk, reversible, preview, citations,
          paramsHash) =>
        { id, kind, effect, targetService, params, description, risk, reversible, preview, citations
          paramsHash }
  else fail "Input should be a valid dictionary or instance of SuggestedAction"

/-- `e.get(key)` of a record that is a dict. -/
def field (e : Json) (key : String) : Json := (e.lookup key).getD .null

/-- The `elif` chain of the fold. -/
def FoldedState.follow (st : FoldedState) (kind e : Json) : FoldedState :=
  let named (text : String) : Bool := kind.pyEq (.str text)
  if named "posted" ∧ st.status = .proposed then
    { st with status := .posted, surface := field e "surface" }
  else if named "approved" ∧ (st.status = .proposed ∨ st.status = .posted) then
    { st with status := .approved, approver := field e "approver", surface := field e "surface" }
  else if named "denied" ∧ (st.status = .proposed ∨ st.status = .posted) then
    { st with status := .denied, approver := field e "approver" }
  else if named "expired" ∧ (st.status = .proposed ∨ st.status = .posted ∨ st.status = .approved) then
    { st with status := .expired }
  else if named "execute_started" ∧ st.status = .approved then { st with status := .executing }
  else if named "execute_result" ∧ st.status = .executing then
    { st with
      status := if (field e "ok").truthy then .done else .failed
      outcome := .dict (["ok", "before", "after", "duration_s", "error"].map fun k => (k, field e k)) }
  else st

abbrev FoldedStates := Dict String FoldedState

/-- One iteration of the fold. -/
def foldRecord (states : FoldedStates) (e : Json) : Py FoldedStates := do
  let aid ← e.item "action_id"
  let kind ← e.item "kind"
  match aid with
  | .str aid =>
    if kind.pyEq (.str "proposed") then
      let action ← e.item "action"
      let action ← validated (SuggestedAction.validate action)
      let expiresAt ← validated (validateOptionalFloat (field e "expires_at"))
      pure (states.set aid { action, expiresAt })
    else
      match states.get? aid with
      | none => pure states
      | some st => pure (states.set aid (st.follow kind e))
  | _ => throw ⟨"TypeError", s!"unhashable type: '{aid.typeName}'", false⟩

section
variable [FloatRepr] [FloatReader]

/-- The journal's file, if it is there. -/
abbrev JournalFile := Option (List Char)

namespace JournalFile

/-- `append`, of the record of an event. -/
def append (file : JournalFile) (record : Json) : JournalFile := some (file.getD [] ++ recordLine record)

def events (file : JournalFile) : Py (List Json) :=
  match file with
  | none => .ok []
  | some text => readRecords text

def fold (file : JournalFile) : Py FoldedStates := do
  let events ← file.events
  events.foldlM foldRecord .empty

def stateOf (file : JournalFile) (actionId : String) : Py (Option FoldedState) := do
  let states ← file.fold
  pure (states.get? actionId)

end JournalFile

end

end

end Sentinel.Actions
