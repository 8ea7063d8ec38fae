import Mathlib.Data.List.Sort
import Mathlib.Data.String.Basic
import Sentinel.Python.Exn
import Sentinel.Python.Json

/-! The tool registry. A tool is a function from a validated input to a dumped
output; which tools an agent is shown and which a call reaches are computed
separately from the same table. -/
namespace Sentinel.Agent
open Python

inductive ToolEffect where
  | read | notify | mutate
  deriving DecidableEq, Repr

structure FieldError where
  loc : List String
  msg : String

inductive Annotation where
  | int | float | str | bool | other

structure FieldInfo where
  name : String
  required : Bool
  annotation : Annotation

/-- A pydantic model: what validating a raw value gives, the text of a failed
validation, its schema and its fields. -/
structure InputModel where
  validate : Json → Except (List FieldError) Json
  errorText : List FieldError → String
  jsonSchema : Json
  fields : List FieldInfo

inductive ToolFailure where
  | toolError (code message : String) (hint : Option String) (example_ : Json)
  | raised (e : Exn)

structure ToolSpec where
  name : String
  «namespace» : String
  description : String
  inputModel : InputModel
  fn : Json → Except ToolFailure Json
  effect : ToolEffect := .read

/-- The table of registered tools, each under its own name. -/
structure ToolRegistry where
  specs : Dict String ToolSpec
  named : ∀ name spec, specs.get? name = some spec → spec.name = name

structure ToolSchema where
  name : String
  description : String
  inputSchema : Json

namespace ToolRegistry

def empty : ToolRegistry := ⟨Dict.empty, by simp⟩

def register (registry : ToolRegistry) (spec : ToolSpec) : Py ToolRegistry :=
  match registry.specs.get? spec.name with
  | some _ => .error ⟨"ValueError", "duplicate tool name: " ++ spec.name, false⟩
  | none => .ok
    { specs := registry.specs.set spec.name spec
      named := by
        intro name other found
        rw [Dict.get?_set] at found
        split at found
        · rename_i same
          cases found
          exact same.symm
        · exact registry.named name other found }

/-- A tool is registered unless its name is taken. It is then found under its name, and every
other tool as before. -/
theorem register_spec (registry : ToolRegistry) (spec : ToolSpec) :
    (Returns (registry.register spec) ↔ registry.specs.get? spec.name = none) ∧
      ∀ next, registry.register spec = .ok next → ∀ name, next.specs.get? name =
        if name = spec.name then some spec else registry.specs.get? name := by
  rw [register]
  split
  · rename_i taken
    refine ⟨iff_of_false (not_returns_error _) (by rw [taken]; simp), ?_⟩
    rintro _ ⟨⟩
  · rename_i free
    refine ⟨iff_of_true (returns_ok _) free, ?_⟩
    rintro _ ⟨⟩ name
    exact Dict.get?_set _ _ _ _

def names (registry : ToolRegistry) : List String :=
  registry.specs.keys.insertionSort (· ≤ ·)

def sortedSpecs (registry : ToolRegistry) : List ToolSpec :=
  registry.names.filterMap registry.specs.get?

def selected (registry : ToolRegistry) (names : List String) : List ToolSpec :=
  registry.sortedSpecs.filter fun s => s.name ∈ names

def anthropicSchemas (registry : ToolRegistry) (names : List String) : List ToolSchema :=
  (registry.selected names).map fun s => ⟨s.name, s.description, s.inputModel.jsonSchema⟩

end ToolRegistry

def Annotation.placeholder : Annotation → Json
  | .int => .int 0
  | .float => .float 0
  | .str => .str "string"
  | .bool => .bool false
  | .other => .null

/-- `_example_for`. -/
def exampleFor (model : InputModel) : Json :=
  .dict ((model.fields.filter FieldInfo.required).map fun f => (f.name, f.annotation.placeholder))

def errorDict (fields : List (String × Json)) : Json := .dict [("error", .dict fields)]

def FieldError.text (err : FieldError) : String := ".".intercalate err.loc ++ ": " ++ err.msg

/-- Runs the body of a tool on validated input. -/
def ToolSpec.run (spec : ToolSpec) (params : Json) : Py Json :=
  match spec.fn params with
  | .error (.toolError code message hint example_) =>
    .ok (errorDict
      [("code", .str code), ("message", .str message),
        ("hint", (hint.map Json.str).getD .null), ("example", example_)])
  | .error (.raised e) => .error e
  | .ok out => .ok out

/-- What a dispatch returns, and the tool whose body it ran. -/
structure Dispatched where
  result : Py Json
  reached : Option ToolSpec := none

/-- `ToolRegistry.dispatch`. -/
def ToolRegistry.dispatch (registry : ToolRegistry) (name : String) (rawInput : Json) :
    Dispatched :=
  match registry.specs.get? name with
  | none =>
    { result := .ok (errorDict
        [("code", .str "unknown_tool"), ("message", .str ("unknown tool: " ++ name)),
          ("hint", .str "call one of the tools you were given; check the exact name")]) }
  | some spec =>
    match spec.inputModel.validate rawInput with
    | .error errors =>
      let detail := "; ".intercalate ((errors.take 5).map FieldError.text)
      { result := .ok (errorDict
          [("code", .str "invalid_input"),
            ("message", .str ("invalid input for " ++ name ++ ": " ++ detail)),
            ("hint", .str "fix the field(s) named above and retry"),
            ("example", exampleFor spec.inputModel)]) }
    | .ok params => { result := spec.run params, reached := some spec }

theorem ToolRegistry.dispatch_reached_iff {registry : ToolRegistry} {name : String}
    {rawInput : Json} {spec : ToolSpec} :
    (registry.dispatch name rawInput).reached = some spec ↔
      registry.specs.get? name = some spec ∧ ∃ params, spec.inputModel.validate rawInput = .ok params := by
  unfold dispatch
  cases found : registry.specs.get? name with
  | none => simp
  | some known =>
    dsimp only
    cases validated : known.inputModel.validate rawInput with
    | error errors =>
      simp only [reduceCtorEq, Option.some.injEq, false_iff, not_and]
      rintro rfl ⟨params, ok⟩
      rw [validated] at ok
      cases ok
    | ok params =>
      simp only [Option.some.injEq]
      constructor
      · rintro rfl
        exact ⟨rfl, params, validated⟩
      · exact fun same => same.1

theorem ToolRegistry.mem_sortedSpecs {registry : ToolRegistry} {spec : ToolSpec} :
    spec ∈ registry.sortedSpecs ↔ registry.specs.get? spec.name = some spec := by
  simp only [sortedSpecs, names, List.mem_filterMap, List.mem_insertionSort, Dict.keys,
    List.mem_map]
  constructor
  · rintro ⟨name, -, found⟩
    rwa [registry.named name spec found]
  · intro found
    exact ⟨spec.name, ⟨_, (Dict.mem_items_iff _).mpr found, rfl⟩, found⟩

/-- A registry with one mutating tool that takes any input. -/
def restartTool : ToolSpec where
  name := "restart_service"
  «namespace» := "actions"
  description := "Restart a service."
  inputModel := { validate := .ok, errorText := fun _ => "", jsonSchema := .dict [], fields := [] }
  fn params := .ok params
  effect := .mutate

def actionRegistry : ToolRegistry where
  specs := Dict.empty.set "restart_service" restartTool
  named := by
    intro name spec found
    rw [Dict.get?_set] at found
    split at found
    · rename_i same
      cases found
      exact same.symm
    · cases found

end Sentinel.Agent
