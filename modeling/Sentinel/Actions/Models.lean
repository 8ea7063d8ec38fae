import Sentinel.Python.Json

/-! Schemas of the gated action half. A suggested action carries abstract
parameters only; its `paramsHash` binds an approval to the exact kind, target
and parameters it was granted for. -/
namespace Sentinel.Actions
open Python

inductive ActionKind where
  | restart | scale | removeImpairment | revertChange | openTicket | pageOncall
  deriving DecidableEq, Repr

def ActionKind.text : ActionKind → String
  | .restart => "restart"
  | .scale => "scale"
  | .removeImpairment => "remove_impairment"
  | .revertChange => "revert_change"
  | .openTicket => "open_ticket"
  | .pageOncall => "page_oncall"

inductive Effect where
  | notify | mutate
  deriving DecidableEq, Repr

inductive Risk where
  | low | medium | high
  deriving DecidableEq, Repr

inductive Status where
  | proposed | posted | approved | denied | expired | executing | done | failed
  deriving DecidableEq, Repr

def Status.text : Status → String
  | .proposed => "proposed"
  | .posted => "posted"
  | .approved => "approved"
  | .denied => "denied"
  | .expired => "expired"
  | .executing => "executing"
  | .done => "done"
  | .failed => "failed"

/-- The two parameter types the schema admits. -/
inductive ParamValue where
  | str (s : String)
  | int (n : Int)
  deriving DecidableEq, Repr

def ParamValue.toJson : ParamValue → Json
  | .str s => .str s
  | .int n => .int n

abbrev Params := Dict String ParamValue

def Params.toJson (params : Params) : List (String × Json) :=
  params.items.map fun (k, v) => (k, v.toJson)

structure SuggestedAction where
  id : String
  kind : ActionKind
  effect : Effect
  targetService : String
  params : Params := Dict.empty
  description : String := ""
  risk : Risk := .medium
  reversible : Bool := true
  preview : String := ""
  citations : List String := []
  paramsHash : String := ""

/-- `hashlib.sha256(text).hexdigest()` on an ASCII text. -/
class Hashlib where
  sha256 : List Char → String

/-- No two texts share a digest. -/
def CollisionFree [Hashlib] : Prop := Function.Injective Hashlib.sha256

section Hash
variable [FloatRepr] [Hashlib]

def hashPayload (kind targetService : String) (params : List (String × Json)) : Json :=
  .dict [("kind", .str kind), ("target_service", .str targetService),
    ("params", .dict (sortEntries params))]

def paramsHash (kind targetService : String) (params : List (String × Json)) : String :=
  Hashlib.sha256 (dumps (sortKeys (hashPayload kind targetService params)))

def SuggestedAction.computeHash (action : SuggestedAction) : String :=
  Actions.paramsHash action.kind.text action.targetService action.params.toJson

def SuggestedAction.withHash (action : SuggestedAction) : SuggestedAction :=
  { action with paramsHash := action.computeHash }

end Hash

/-- The `execute_result` payload kept with a finished action. -/
structure ResultRecord where
  ok : Bool
  before : Json
  after : Json
  durationS : ℚ
  error : String

structure ApprovalState where
  action : SuggestedAction
  status : Status := .proposed
  approver : Option String := none
  surface : Option String := none
  expiresAt : Option ℚ := none
  outcome : Option ResultRecord := none

end Sentinel.Actions
