import Sentinel.Agent.Registry
import Sentinel.Python.Values

/-! The final report as pydantic validates and dumps it. Validation collects the
errors of all fields, a missing field takes its default, unknown fields of the
report are dropped and those of the root cause are refused. -/
namespace Sentinel.Tools
open Python Agent

/-- The lax conversion of a JSON value to an `int` field, or its error text. -/
class LaxInt where
  parse : Json → Except String Int

abbrev Validated (α : Type) := Except (List FieldError) α

namespace Validated
variable {α β : Type}

def fail (msg : String) : Validated α := .error [⟨[], msg⟩]

/-- Errors of a nested value are located under its field or index. -/
def within (loc : String) : Validated α → Validated α
  | .error errors => .error (errors.map fun e => { e with loc := loc :: e.loc })
  | .ok a => .ok a

/-- Both parts, or the errors of both. -/
def both : Validated α → Validated β → Validated (α × β)
  | .ok a, .ok b => .ok (a, b)
  | .error e, .ok _ => .error e
  | .ok _, .error e => .error e
  | .error e, .error e' => .error (e ++ e')

theorem within_ok {loc : String} {v : Validated α} {a : α} : within loc v = .ok a ↔ v = .ok a := by
  cases v <;> simp [within]

theorem both_ok {v : Validated α} {w : Validated β} {a : α} {b : β} :
    both v w = .ok (a, b) ↔ v = .ok a ∧ w = .ok b := by
  cases v <;> cases w <;> simp [both]

theorem map_ok {f : α → β} {v : Validated α} {b : β} :
    Except.map f v = .ok b ↔ ∃ a, v = .ok a ∧ f a = b := by
  cases v <;> simp [Except.map]

end Validated

open Validated

def required {α : Type} (field : String) (validate : Json → Validated α) (v : Json) :
    Validated α :=
  within field (match v.lookup field with
    | none => fail "Field required"
    | some value => validate value)

def defaulted {α : Type} (field : String) (validate : Json → Validated α) (default : α)
    (v : Json) : Validated α :=
  within field (match v.lookup field with
    | none => .ok default
    | some value => validate value)

def validateStr : Json → Validated String
  | .str s => .ok s
  | _ => fail "Input should be a valid string"

/-- `str = Field(min_length=1)`. -/
def validateText (v : Json) : Validated String :=
  match validateStr v with
  | .ok "" => fail "String should have at least 1 character"
  | result => result

/-- `str | None`. -/
def validateOptionalStr : Json → Validated (Option String)
  | .null => .ok none
  | v => (validateStr v).map some

def validateItems {α : Type} (validate : Json → Validated α) : ℕ → List Json → Validated (List α)
  | _, [] => .ok []
  | i, v :: rest =>
    (both (within (toString i) (validate v)) (validateItems validate (i + 1) rest)).map
      fun p => p.1 :: p.2

def validateList {α : Type} (validate : Json → Validated α) : Json → Validated (List α)
  | .list items => validateItems validate 0 items
  | _ => fail "Input should be a valid list"

/-- `extra="forbid"`. -/
def refuseExtra (fields : List String) (v : Json) : Validated Unit :=
  match v.entries.filter fun entry => !(fields.contains entry.1) with
  | [] => .ok ()
  | extra => .error (extra.map fun entry => ⟨[entry.1], "Extra inputs are not permitted"⟩)

structure RootCause where
  kind : String
  type : String
  service : Option String := none
  caller : Option String := none
  callee : Option String := none

structure TimelineEntry where
  second : Int
  kind : String
  detail : String

structure RootCauseReport where
  rootCause : RootCause
  culpritChangeId : Option String := none
  ruledOutChangeIds : List String := []
  evidence : List String := []
  timeline : List TimelineEntry := []

def RootCause.validate (v : Json) : Validated RootCause :=
  if v.isDict then
    (both (required "kind" validateText v)
      (both (required "type" validateText v)
        (both (defaulted "service" validateOptionalStr none v)
          (both (defaulted "caller" validateOptionalStr none v)
            (both (defaulted "callee" validateOptionalStr none v)
              (refuseExtra ["kind", "type", "service", "caller", "callee"] v)))))).map
      fun (kind, type, service, caller, callee, _) => ⟨kind, type, service, caller, callee⟩
  else fail "Input should be a valid dictionary or instance of RootCause"

section
variable [LaxInt]

def validateInt (v : Json) : Validated Int :=
  match LaxInt.parse v with
  | .ok n => .ok n
  | .error msg => fail msg

def TimelineEntry.validate (v : Json) : Validated TimelineEntry :=
  if v.isDict then
    (both (required "second" validateInt v)
      (both (required "kind" validateStr v) (required "detail" validateStr v))).map
      fun (second, kind, detail) => ⟨second, kind, detail⟩
  else fail "Input should be a valid dictionary or instance of TimelineEntry"

/-- `RootCauseReport.model_validate`. -/
def RootCauseReport.validate (v : Json) : Validated RootCauseReport :=
  if v.isDict then
    (both (required "root_cause" RootCause.validate v)
      (both (defaulted "culprit_change_id" validateOptionalStr none v)
        (both (defaulted "ruled_out_change_ids" (validateList validateStr) [] v)
          (both (defaulted "evidence" (validateList validateStr) [] v)
            (defaulted "timeline" (validateList TimelineEntry.validate) [] v))))).map
      fun (rootCause, culprit, ruledOut, evidence, timeline) =>
        ⟨rootCause, culprit, ruledOut, evidence, timeline⟩
  else fail "Input should be a valid dictionary or instance of RootCauseReport"

end

def optionalStr : Option String → Json
  | none => .null
  | some s => .str s

def strings (items : List String) : Json := .list (items.map Json.str)

def RootCause.modelDump (rc : RootCause) : Json :=
  .dict [("kind", .str rc.kind), ("type", .str rc.type), ("service", optionalStr rc.service),
    ("caller", optionalStr rc.caller), ("callee", optionalStr rc.callee)]

def TimelineEntry.modelDump (entry : TimelineEntry) : Json :=
  .dict [("second", .int entry.second), ("kind", .str entry.kind), ("detail", .str entry.detail)]

/-- `model_dump(mode="json")`. -/
def RootCauseReport.modelDump (report : RootCauseReport) : Json :=
  .dict [("root_cause", report.rootCause.modelDump),
    ("culprit_change_id", optionalStr report.culpritChangeId),
    ("ruled_out_change_ids", strings report.ruledOutChangeIds),
    ("evidence", strings report.evidence),
    ("timeline", .list (report.timeline.map TimelineEntry.modelDump))]

/-! What a validated input held. -/

theorem required_ok {α : Type} {field : String} {validate : Json → Validated α} {v : Json} {a : α} :
    required field validate v = .ok a ↔ ∃ value, v.lookup field = some value ∧
      validate value = .ok a := by
  rw [required, within_ok]
  cases v.lookup field <;> simp [fail]

theorem defaulted_ok {α : Type} {field : String} {validate : Json → Validated α} {default : α}
    {v : Json} {a : α} : defaulted field validate default v = .ok a ↔
      (v.lookup field = none ∧ a = default) ∨
        ∃ value, v.lookup field = some value ∧ validate value = .ok a := by
  rw [defaulted, within_ok]
  cases v.lookup field <;> simp [eq_comm]

theorem validateStr_ok {v : Json} {s : String} : validateStr v = .ok s ↔ v = .str s := by
  cases v <;> simp [validateStr, fail]

theorem validateText_ok {v : Json} {s : String} :
    validateText v = .ok s ↔ v = .str s ∧ s ≠ "" := by
  cases v with
  | str t =>
    simp only [validateText, validateStr]
    split <;> simp_all [fail]
    rintro rfl
    assumption
  | _ => simp [validateText, validateStr, fail]

theorem validateOptionalStr_ok {v : Json} {s : Option String} :
    validateOptionalStr v = .ok s ↔ v = optionalStr s := by
  cases v <;> cases s <;> simp [validateOptionalStr, validateStr, fail, optionalStr, Except.map]

theorem validateItems_ok {α : Type} {validate : Json → Validated α} {i : ℕ} {items : List Json}
    {as : List α} : validateItems validate i items = .ok as ↔
      List.Forall₂ (fun v a => validate v = .ok a) items as := by
  induction items generalizing i as with
  | nil => cases as <;> simp [validateItems]
  | cons v rest ih =>
    simp only [validateItems, map_ok, Prod.exists, both_ok, within_ok, ih]
    cases as with
    | nil => simp
    | cons a as => simp [and_assoc]

theorem validateStrings_ok {v : Json} {items : List String} :
    validateList validateStr v = .ok items ↔ v = strings items := by
  cases v with
  | list values =>
    simp only [validateList, validateItems_ok, strings, Json.list.injEq, validateStr_ok]
    rw [← List.forall₂_map_right_iff (R := fun v w => v = w), List.forall₂_eq_eq_eq]
  | _ => simp [validateList, fail, strings]

end Sentinel.Tools
