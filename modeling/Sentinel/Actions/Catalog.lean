import Sentinel.Actions.Executor
import Sentinel.Python.Values

/-! The remediation catalog: a static table from a diagnosed fault to ranked
candidate actions. Exactly one mutation is elected primary; without a row the
suggestions only notify. -/
namespace Sentinel.Actions
open Python

/-- `MUTATE_KINDS`. -/
def ActionKind.effect : ActionKind → Effect
  | .restart | .scale | .removeImpairment | .revertChange => .mutate
  | .openTicket | .pageOncall => .notify

structure CatalogRow where
  kind : ActionKind
  params : Params := Dict.empty
  reversible : Bool := true
  risk : Risk

def twoReplicas : Params := Dict.empty.set "replicas" (.int 2)

/-- `_TABLE`. -/
def catalogTable : List (String × List CatalogRow) :=
  let busy : List CatalogRow :=
    [{ kind := .restart, risk := .low }, { kind := .scale, params := twoReplicas, risk := .low }]
  let impaired : List CatalogRow :=
    [{ kind := .removeImpairment, risk := .low }, { kind := .restart, risk := .low }]
  [("cpu", busy), ("mem", busy), ("memory", busy),
    ("disk", [{ kind := .restart, risk := .medium }, { kind := .pageOncall, risk := .low }]),
    ("delay", impaired), ("loss", impaired),
    ("socket", [{ kind := .restart, risk := .low }, { kind := .removeImpairment, risk := .low }]),
    ("error", [{ kind := .revertChange, risk := .medium }, { kind := .restart, risk := .low }]),
    ("flag_injected", impaired)]

/-- `_SIGNATURE_FALLBACK`. -/
def signatureFallback : List (String × String) :=
  [("resource", "cpu"), ("latency", "delay"), ("error", "error")]

/-- `_NOTIFY_ONLY`. -/
def notifyOnly : List CatalogRow :=
  [{ kind := .openTicket, risk := .low }, { kind := .pageOncall, risk := .low }]

/-- `_DESCRIPTIONS`, formatted. -/
def CatalogRow.description (row : CatalogRow) (svc : String) : String :=
  match row.kind with
  | .restart => s!"Restart {svc} to clear its impaired state."
  | .scale => s!"Scale {svc} to " ++ ((row.params.get? "replicas").getD (.int 2)).format ++
      " replicas to shed load."
  | .removeImpairment => s!"Clear the injected fault on {svc}."
  | .revertChange => s!"Revert the most recent change on {svc}."
  | .openTicket => s!"Open an incident ticket for {svc}."
  | .pageOncall => s!"Page the on-call engineer for {svc}."

/-- `text.lower()`, as far as ASCII words can equal it: the Kelvin sign is the one
other character whose lower case is ASCII. -/
def lower (text : String) : List Char :=
  text.toList.map fun c => if c = '\u212a' then 'k' else c.toLower

/-- `text.split()[0]`. -/
def firstWord (text : List Char) : Py (List Char) :=
  match (text.dropWhile isSpace).takeWhile fun c => !isSpace c with
  | [] => .error ⟨"IndexError", "list index out of range", false⟩
  | word => .ok word

/-- `_key`. An empty fault type counts as none. -/
def catalogKey (faultType signature : Option String) : Py (List CatalogRow) := do
  let byFault ← match faultType with
    | none => pure none
    | some faultType =>
      if faultType = "" then pure none
      else do
        let word ← firstWord (lower faultType)
        pure ([lower faultType, word].findSome? fun token => catalogTable.lookup (String.ofList token))
  match byFault with
  | some rows => pure rows
  | none =>
    pure <| match signature.bind fun name => signatureFallback.lookup name with
      | some key => (catalogTable.lookup key).getD []
      | none => []

section Suggest
variable [FloatRepr] [Hashlib]

/-- One draft. `uuid4` is a parameter. -/
def CatalogRow.suggest (row : CatalogRow) (id targetService : String) (citations : List String)
    (executor : Executor) : Py SuggestedAction := do
  let action : SuggestedAction :=
    { id, kind := row.kind, effect := row.kind.effect, targetService, params := row.params,
      description := row.description targetService, risk := row.risk,
      reversible := row.reversible, citations }
  let preview ← executor.render action
  pure { action with preview }.withHash

/-- `suggest_actions`. The rows are sorted stably, reversible first. -/
def suggestActions (uuids : ℕ → String) (targetService : String) (faultType signature : Option String)
    (citations : List String) (confident : Bool) (executor : Executor) :
    Py (List SuggestedAction) := do
  let found ← (if confident then catalogKey faultType signature else .ok [] : Py (List CatalogRow))
  let rows := if found.isEmpty then notifyOnly else found
  let ranked := rows.filter (·.reversible) ++ rows.filter fun row => !row.reversible
  ranked.zipIdx.mapM fun (row, n) => row.suggest (uuids n) targetService citations executor

/-- The rows that are suggested for the remedies found, in the order of the suggestions. -/
def rankedRows (found : List CatalogRow) : List CatalogRow :=
  let rows := if found.isEmpty then notifyOnly else found
  rows.filter (·.reversible) ++ rows.filter fun row => !row.reversible

def draftActions (uuids : ℕ → String) (rows : List CatalogRow) (targetService : String)
    (citations : List String) (executor : Executor) : Py (List SuggestedAction) :=
  rows.zipIdx.mapM fun (row, n) => row.suggest (uuids n) targetService citations executor

theorem suggestActions_eq (uuids : ℕ → String) (targetService : String)
    (faultType signature : Option String) (citations : List String) (confident : Bool)
    (executor : Executor) :
    suggestActions uuids targetService faultType signature citations confident executor =
      (if confident then catalogKey faultType signature else .ok []) >>= fun found =>
        draftActions uuids (rankedRows found) targetService citations executor := rfl

end Suggest

/-- `elect_primary`. -/
def electPrimary (actions : List SuggestedAction) : Option SuggestedAction :=
  actions.find? fun action => action.effect = .mutate

section Facts
variable [FloatRepr] [Hashlib]

theorem suggest_hashed {row : CatalogRow} {id targetService : String} {citations : List String}
    {executor : Executor} {action : SuggestedAction}
    (suggested : row.suggest id targetService citations executor = .ok action) :
    action.paramsHash = action.computeHash := by
  simp only [CatalogRow.suggest, bind_ok_iff, pure, Except.pure, Except.ok.injEq] at suggested
  obtain ⟨preview, -, rfl⟩ := suggested
  rfl

/-- Every suggested action carries the hash of its own content. -/
theorem suggestActions_hashed {uuids : ℕ → String} {targetService : String}
    {faultType signature : Option String} {citations : List String} {confident : Bool}
    {executor : Executor} {actions : List SuggestedAction}
    (suggested : suggestActions uuids targetService faultType signature citations confident executor =
      .ok actions) : ∀ action ∈ actions, action.paramsHash = action.computeHash := by
  rw [suggestActions, bind_ok_iff] at suggested
  obtain ⟨found, -, mapped⟩ := suggested
  intro action member
  obtain ⟨⟨row, n⟩, -, drafted⟩ := (mem_of_mapM mapped action).mp member
  exact suggest_hashed drafted

omit [FloatRepr] [Hashlib] in
theorem mem_of_electPrimary {actions : List SuggestedAction} {action : SuggestedAction}
    (elected : electPrimary actions = some action) : action ∈ actions ∧ action.effect = .mutate :=
  ⟨List.mem_of_find?_eq_some elected, by simpa using List.find?_some elected⟩

omit [FloatRepr] [Hashlib] in
theorem catalogKey_ordinary (faultType signature : Option String) :
    Ordinary (catalogKey faultType signature) := by
  have first (text : List Char) : Ordinary (firstWord text) := by
    unfold firstWord
    split
    · exact ordinary_error rfl
    · exact ordinary_ok _
  simp only [catalogKey]
  split
  · exact ordinary_ok _
  · split
    · exact ordinary_ok _
    · refine (first _).bind fun word _ => ?_
      simp only [pure_bind]
      split <;> exact ordinary_ok _

/-- Suggesting raises what the executor's `render` raises, else only `Exception`s. -/
theorem suggestActions_ordinary {uuids : ℕ → String} {targetService : String}
    {faultType signature : Option String} {citations : List String} {confident : Bool}
    {executor : Executor} (rendered : ∀ action, Ordinary (executor.render action)) :
    Ordinary (suggestActions uuids targetService faultType signature citations confident
      executor) := by
  refine Ordinary.bind ?_ fun _ _ => ordinary_mapM fun (row, n) _ => ?_
  · split
    · exact catalogKey_ordinary faultType signature
    · exact ordinary_ok []
  · exact (rendered _).bind fun _ _ => ordinary_ok _

end Facts

end Sentinel.Actions
