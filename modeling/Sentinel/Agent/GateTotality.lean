import Sentinel.Agent.Conformance
import Sentinel.Agent.ReadOnly

/-! On which report inputs the gates raise. They read the raw input of the model
before it is validated, so a field of an unexpected type raises in an attribute
access, a membership test or a set construction. -/
namespace Sentinel.Agent
open Python

/-- `v in container` returns. -/
def searchable (v container : Json) : Bool :=
  match container with
  | .list _ => true
  | .dict _ => v.hashable
  | .str _ => match v with
    | .str _ => true
    | _ => false
  | _ => false

theorem isIn_returns_iff {v container : Json} :
    Returns (v.isIn container) ↔ searchable v container = true := by
  cases container with
  | list items => simp [Json.isIn, searchable, Returns]
  | dict entries =>
    simp only [Json.isIn, searchable]
    split <;> simp_all [Returns]
  | str text => cases v <;> simp [Json.isIn, searchable, Returns]
  | _ => simp [Json.isIn, searchable, Returns]

/-- `set(v)` returns. -/
def collectable : Json → Bool
  | .list items => items.all Json.hashable
  | .dict _ | .str _ => true
  | _ => false

theorem toSet_returns_iff {v : Json} : Returns v.toSet ↔ collectable v = true := by
  cases v with
  | list items =>
    simp only [Json.toSet, collectable]
    split
    · rename_i item found
      have unhashable := List.find?_some found
      have member := List.mem_of_find?_eq_some found
      simp only [Returns, reduceCtorEq, exists_false, false_iff, List.all_eq_true]
      intro all
      simp [all item member] at unhashable
    · rename_i none
      simpa [Returns, List.find?_eq_none, List.all_eq_true] using none
  | _ => simp [Json.toSet, collectable, Returns]

/-- What `report_issues` says of the location. -/
def locationIssues (rc : Json) : List String :=
  (if isText (field rc "kind") "service" && !(field rc "service").truthy then
    ["root_cause kind=service requires a service"] else []) ++
  (if isText (field rc "kind") "edge" &&
      !((field rc "caller").truthy && (field rc "callee").truthy) then
    ["root_cause kind=edge requires caller and callee"] else []) ++
  (if !(isText (field rc "kind") "service" || isText (field rc "kind") "edge") then
    ["root_cause kind must be 'service' or 'edge'"] else [])

/-- A service fault with its service, or an edge fault with both ends. -/
def located (rc : Json) : Bool :=
  (isText (field rc "kind") "service" && (field rc "service").truthy) ||
    (isText (field rc "kind") "edge" && (field rc "caller").truthy && (field rc "callee").truthy)

theorem locationIssues_nil_iff {rc : Json} : locationIssues rc = [] ↔ located rc = true := by
  have distinct : isText (field rc "kind") "service" = true →
      isText (field rc "kind") "edge" = false := by
    rw [isText_iff, ← Bool.not_eq_true, isText_iff]
    rintro same
    rw [same]
    simp
  unfold locationIssues located
  cases service : isText (field rc "kind") "service" with
  | true =>
    rw [distinct service]
    cases (field rc "service").truthy <;> simp
  | false =>
    cases isText (field rc "kind") "edge" <;> cases (field rc "caller").truthy <;>
      cases (field rc "callee").truthy <;> simp

/-- What `report_issues` says of a culprit that is ruled out. -/
def overlapIssues (culprit ruledOut : Json) : Py (List String) :=
  if culprit.truthy then
    (do pure (if ← culprit.isIn ruledOut then
      ["culprit_change_id also appears in ruled_out_change_ids"] else []))
  else pure []

theorem overlapIssues_returns_iff (culprit ruledOut : Json) :
    Returns (overlapIssues culprit ruledOut) ↔
      (culprit.truthy = true → searchable culprit ruledOut = true) := by
  unfold overlapIssues
  split
  · rename_i truthy
    rw [← isIn_returns_iff]
    cases culprit.isIn ruledOut <;> simp [Returns, bind, Except.bind, pure, Except.pure, truthy]
  · rename_i falsy
    simp [Returns, pure, Except.pure, falsy]

theorem overlapIssues_nil_iff {culprit ruledOut : Json} :
    overlapIssues culprit ruledOut = .ok [] ↔
      (culprit.truthy = true → culprit.isIn ruledOut = .ok false) := by
  unfold overlapIssues
  split
  · rename_i truthy
    cases answer : culprit.isIn ruledOut with
    | error e => simp [bind, Except.bind, truthy]
    | ok inside => cases inside <;> simp [bind, Except.bind, pure, Except.pure, truthy]
  · rename_i falsy
    simp [pure, Except.pure, falsy]

def rootCauseField (v : Json) : Json := (field v "root_cause").orEmptyDict

/-- The report gates find no fault with the report over these changes. -/
structure Faultless (input : Json) (known : List String) : Prop where
  located : located (rootCauseField input) = true
  culprit : if (field input "culprit_change_id").truthy = true then
      known.any (isText (field input "culprit_change_id")) = true ∧
        (field input "culprit_change_id").isIn (ruledOutField input) = .ok false
    else known = []

section
variable [FloatRepr]

/-- What `report_issues` says of the culprit. -/
def culpritIssues (culprit : Json) (store : Option Store) (known : List String) :
    Py (List String) :=
  if !culprit.truthy then pure (if known.isEmpty then [] else ["culprit_change_id is empty"])
  else if store.isNone then pure []
  else if !culprit.hashable then throw culprit.unhashable
  else
    pure (if known.any (isText culprit) then []
      else ["culprit_change_id " ++ culprit.display ++ " is not a known change"])

theorem reportIssues_eq {entries : List (String × Json)} {store : Option Store}
    {known : List String} (changes : knownChanges store = .ok known) :
    reportIssues (.dict entries) store =
      if (rootCauseField (.dict entries)).isDict then do
        let culprit ← culpritIssues (field (.dict entries) "culprit_change_id") store known
        let overlap ← overlapIssues (field (.dict entries) "culprit_change_id")
          (ruledOutField (.dict entries))
        pure (locationIssues (rootCauseField (.dict entries)) ++ culprit ++ overlap)
      else .error ⟨"AttributeError",
        s!"'{(rootCauseField (.dict entries)).typeName}' object has no attribute 'get'", false⟩ := by
  simp only [reportIssues, get_dict, changes, bind, Except.bind]
  rw [show (field (.dict entries) "root_cause").orEmptyDict = rootCauseField (.dict entries) from rfl]
  cases rc : rootCauseField (.dict entries) with
  | dict rcEntries =>
    simp only [get_dict, Json.isDict, if_true]
    unfold culpritIssues overlapIssues
    -- the source's branches, in its order
    cases (field (.dict entries) "culprit_change_id").truthy with
    | false => rfl
    | true =>
      cases store.isNone with
      | true => rfl
      | false => cases (field (.dict entries) "culprit_change_id").hashable <;> rfl
  | _ => rfl

theorem culpritIssues_returns_iff (culprit : Json) (store : Option Store) (known : List String) :
    Returns (culpritIssues culprit store known) ↔
      (culprit.truthy = true → store.isSome = true → culprit.hashable = true) := by
  unfold culpritIssues
  cases culprit.truthy <;> cases store <;> cases culprit.hashable <;>
    simp [Returns, pure, Except.pure, throw, throwThe, MonadExceptOf.throw]

theorem culpritIssues_nil_iff {culprit : Json} {store : Store} {known : List String} :
    culpritIssues culprit (some store) known = .ok [] ↔
      if culprit.truthy = true then known.any (isText culprit) = true else known = [] := by
  have listed : culprit.truthy = true → culprit.hashable = false →
      known.any (isText culprit) = false := by
    intro _ unhashable
    rw [List.any_eq_false]
    intro id _
    rw [isText_iff]
    rintro rfl
    cases unhashable
  unfold culpritIssues
  cases truthy : culprit.truthy with
  | false => cases known <;> simp [pure, Except.pure]
  | true =>
    cases hashable : culprit.hashable with
    | false =>
      rw [listed truthy hashable]
      simp [throw, throwThe, MonadExceptOf.throw]
    | true => cases known.any (isText culprit) <;> simp [pure, Except.pure]

theorem reportIssues_returns_iff {entries : List (String × Json)} {store : Option Store}
    {known : List String} (changes : knownChanges store = .ok known) :
    Returns (reportIssues (.dict entries) store) ↔
      (rootCauseField (.dict entries)).isDict = true ∧
        ((field (.dict entries) "culprit_change_id").truthy = true →
          searchable (field (.dict entries) "culprit_change_id") (ruledOutField (.dict entries)) = true ∧
            (store.isSome = true →
              (field (.dict entries) "culprit_change_id").hashable = true)) := by
  rw [reportIssues_eq changes]
  split
  · rename_i object
    have both := and_congr
      (culpritIssues_returns_iff (field (.dict entries) "culprit_change_id") store known)
      (overlapIssues_returns_iff (field (.dict entries) "culprit_change_id")
        (ruledOutField (.dict entries)))
    simp only [Returns] at both
    simp only [Returns, bind_ok_iff, pure, Except.pure, Except.ok.injEq, object, true_and]
    constructor
    · rintro ⟨_, culprit, first, overlap, second, _⟩
      obtain ⟨hashable, found⟩ := both.mp ⟨⟨culprit, first⟩, overlap, second⟩
      exact fun truthy => ⟨found truthy, hashable truthy⟩
    · intro safe
      obtain ⟨⟨culprit, first⟩, overlap, second⟩ :=
        both.mpr ⟨fun truthy => (safe truthy).2, fun truthy => (safe truthy).1⟩
      exact ⟨_, culprit, first, overlap, second, rfl⟩
  · rename_i other
    simp [Returns, other]

theorem reportIssues_nil_iff {entries : List (String × Json)} {store : Store}
    {known : List String} (changes : knownChanges (some store) = .ok known)
    (object : (rootCauseField (.dict entries)).isDict = true) :
    reportIssues (.dict entries) (some store) = .ok [] ↔ Faultless (.dict entries) known := by
  rw [reportIssues_eq changes, if_pos object]
  simp only [bind_ok_iff, pure, Except.pure, Except.ok.injEq, List.append_eq_nil_iff]
  constructor
  · rintro ⟨culprit, first, overlap, second, ⟨located, rfl⟩, rfl⟩
    rw [culpritIssues_nil_iff] at first
    rw [overlapIssues_nil_iff] at second
    refine ⟨locationIssues_nil_iff.mp located, ?_⟩
    split
    · rename_i truthy
      rw [if_pos truthy] at first
      exact ⟨first, second truthy⟩
    · rename_i falsy
      rwa [if_neg falsy] at first
  · rintro ⟨located, culprit⟩
    refine ⟨[], culpritIssues_nil_iff.mpr ?_, [], overlapIssues_nil_iff.mpr ?_,
      ⟨locationIssues_nil_iff.mpr located, rfl⟩, rfl⟩
    · split
      · rename_i truthy
        rw [if_pos truthy] at culprit
        exact culprit.1
      · rename_i falsy
        rwa [if_neg falsy] at culprit
    · intro truthy
      rw [if_pos truthy] at culprit
      exact culprit.2

/-- The text of the input names an evaluation resource. -/
def namesForbidden (input : Json) : Bool :=
  (forbiddenInputRefs.find? fun ref =>
    decide (ref.toList <:+: (dumps input).map Char.toLower)).isSome

/-- The gates can read the report: its root cause is absent or an object, its
culprit can be looked up among the changes and in what is ruled out, and where
no fault is found the known changes can be compared with both. -/
structure Checkable (input : Json) (store : Option Store) : Prop where
  rootCause : (rootCauseField input).isDict = true
  culprit : (field input "culprit_change_id").truthy = true →
    searchable (field input "culprit_change_id") (ruledOutField input) = true ∧
      (store.isSome = true → (field input "culprit_change_id").hashable = true)
  complete : store.isSome = true → ∀ known, knownChanges store = .ok known →
    Faultless input known → collectable (ruledOutField input) = true ∧
      (field input "culprit_change_id").hashable = true

/-- The calls that the hooks decide on. -/
def Decides (call : ToolCall) (ctx : RunContext) : Prop :=
  call.name ≠ "report_root_cause" ∨ namesForbidden call.input = true ∨
    Checkable call.input ctx.store

omit [FloatRepr] in
theorem decoyCompletenessGate_returns_iff {call : ToolCall} {ctx : RunContext}
    {entries : List (String × Json)} {known : List String} (name : call.name = "report_root_cause")
    (object : call.input = .dict entries) (changes : knownChanges ctx.store = .ok known) :
    Returns (decoyCompletenessGate.preToolUse call ctx) ↔
      (ctx.store.isSome = true → collectable (ruledOutField (.dict entries)) = true ∧
        (field (.dict entries) "culprit_change_id").hashable = true) := by
  rw [← toSet_returns_iff]
  cases present : ctx.store with
  | none =>
    simp only [decoyCompletenessGate, present, Option.isNone_none, Bool.or_true, if_true, returns_ok,
      Option.isSome_none, Bool.false_eq_true, false_implies]
  | some store =>
    rw [present] at changes
    simp only [decoyCompletenessGate, name, ne_eq, not_true_eq_false, decide_false, Bool.false_or,
      present, Option.isNone_some, Bool.false_eq_true, if_false, changes, object, get_dict, bind,
      Except.bind, Option.isSome_some, forall_const]
    rw [show (field (.dict entries) "ruled_out_change_ids").orEmptyList =
      ruledOutField (.dict entries) from rfl]
    cases (ruledOutField (.dict entries)).toSet with
    | error e => simp [Returns]
    | ok items =>
      cases (field (.dict entries) "culprit_change_id").hashable with
      | false => simp [Returns, throw, throwThe, MonadExceptOf.throw]
      | true =>
        simp only [Bool.not_true, Bool.false_eq_true, if_false, returns_ok, true_and, iff_true]
        split <;> exact returns_ok _

theorem reportGate_report {call : ToolCall} (ctx : RunContext)
    (name : call.name = "report_root_cause") :
    (Returns (reportGate.preToolUse call ctx) ↔ Returns (reportIssues call.input ctx.store)) ∧
      (reportGate.preToolUse call ctx = .ok none ↔ reportIssues call.input ctx.store = .ok []) := by
  simp only [reportGate, name, if_true]
  cases reportIssues call.input ctx.store with
  | error e => simp [Returns]
  | ok issues => cases issues <;> simp [Returns, deny]

/-- A call of any other tool gets past the report gates. -/
theorem reportGate_other {call : ToolCall} {ctx : RunContext}
    (other : call.name ≠ "report_root_cause") (object : call.input.isDict = true) :
    Returns (reportGate.preToolUse call ctx) := by
  simp only [reportGate, if_neg other]
  by_cases finding : call.name = "report_finding"
  · rw [if_pos finding]
    cases input : call.input with
    | dict entries =>
      simp only [findingIssues, get_dict, bind, Except.bind, pure, Except.pure]
      split
      · exact absurd ‹_› (by simp)
      · exact returns_ok _
      · exact returns_ok _
    | _ =>
      rw [input] at object
      cases object
  · rw [if_neg finding]
    exact returns_ok _

omit [FloatRepr] in
theorem decoyCompletenessGate_gate {call : ToolCall} {ctx : RunContext} {result : ToolDecision}
    (answer : decoyCompletenessGate.preToolUse call ctx = .ok (some result)) :
    result.action = .deny := by
  simp only [decoyCompletenessGate, bind, Except.bind] at answer
  split at answer
  · cases answer
  · repeat' split at answer
    all_goals cases answer
    all_goals rfl

omit [FloatRepr] in
/-- Hooks that pass or deny: the first one that does not pass answers. -/
theorem preToolUse_returns_cons {hook : Hook} {rest : List Hook} {call : ToolCall}
    {ctx : RunContext} {start : ToolDecision}
    (gate : ∀ result, hook.preToolUse call ctx = .ok (some result) → result.action = .deny) :
    Returns (preToolUse (hook :: rest) call ctx start) ↔
      Returns (hook.preToolUse call ctx) ∧
        (hook.preToolUse call ctx = .ok none → Returns (preToolUse rest call ctx start)) := by
  simp only [preToolUse]
  cases answer : hook.preToolUse call ctx with
  | error e => simp [Returns]
  | ok result =>
    cases result with
    | none => simp [returns_ok]
    | some result =>
      simp only [gate result answer, returns_ok, Except.ok.injEq, reduceCtorEq, false_implies,
        and_self]

variable [JsonLoads]

/-- The gates of the agents that submit the final report. -/
def gatedHooks : List Hook := defaultHooks ++ [decoyCompletenessGate]

theorem sealGuard_none_iff {call : ToolCall} {ctx : RunContext} :
    sealGuard.preToolUse call ctx = .ok none ↔ namesForbidden call.input = false := by
  simp only [sealGuard, namesForbidden]
  split
  · rename_i found
    simp [found, deny]
  · rename_i found
    simp [found]

theorem sealGuard_returns (call : ToolCall) (ctx : RunContext) :
    Returns (sealGuard.preToolUse call ctx) := by
  simp only [sealGuard]
  split <;> exact returns_ok _

omit [FloatRepr] [JsonLoads] in
theorem budgetGuard_returns (call : ToolCall) (ctx : RunContext) :
    Returns (budgetGuard.preToolUse call ctx) := by
  simp only [budgetGuard]
  split
  · exact returns_ok _
  · split <;> exact returns_ok _

/-- The hooks return if the report gates do on what the seal and the budget let
through. -/
theorem gatedHooks_returns_iff {call : ToolCall} {ctx : RunContext} :
    Returns (preToolUse gatedHooks call ctx {}) ↔
      (namesForbidden call.input = false → budgetGuard.preToolUse call ctx = .ok none →
        Returns (reportGate.preToolUse call ctx) ∧
          (reportGate.preToolUse call ctx = .ok none →
            Returns (decoyCompletenessGate.preToolUse call ctx))) := by
  have gates := fun hook member => @defaultHooks_gate _ _ hook member call ctx
  rw [gatedHooks, defaultHooks]
  simp only [List.cons_append, List.nil_append]
  rw [preToolUse_returns_cons (gates _ (by simp [defaultHooks])),
    preToolUse_returns_cons (gates _ (by simp [defaultHooks])),
    preToolUse_returns_cons (gates _ (by simp [defaultHooks])),
    preToolUse_returns_cons (gates _ (by simp [defaultHooks])),
    preToolUse_returns_cons (gates _ (by simp [defaultHooks])),
    preToolUse_returns_cons (fun _ => decoyCompletenessGate_gate), sealGuard_none_iff]
  have passes : ∀ hook : Hook, hook = observer ∨ hook = findingValidator →
      hook.preToolUse call ctx = .ok none := by
    rintro hook (rfl | rfl) <;> rfl
  simp only [sealGuard_returns, budgetGuard_returns, passes observer (.inl rfl),
    passes findingValidator (.inr rfl), true_and, returns_ok, preToolUse, implies_true, and_true,
    forall_const]

omit [JsonLoads] in
theorem checkable_iff {entries : List (String × Json)} {store : Option Store} {known : List String}
    (changes : knownChanges store = .ok known) :
    Checkable (.dict entries) store ↔ Returns (reportIssues (.dict entries) store) ∧
      (reportIssues (.dict entries) store = .ok [] → store.isSome = true →
        collectable (ruledOutField (.dict entries)) = true ∧
          (field (.dict entries) "culprit_change_id").hashable = true) := by
  rw [reportIssues_returns_iff changes]
  have faultless : ∀ present : store.isSome = true,
      (rootCauseField (.dict entries)).isDict = true →
        (reportIssues (.dict entries) store = .ok [] ↔ Faultless (.dict entries) known) := by
    intro present object
    obtain ⟨store, rfl⟩ := Option.isSome_iff_exists.mp present
    exact reportIssues_nil_iff changes object
  constructor
  · rintro ⟨rootCause, culprit, complete⟩
    refine ⟨⟨rootCause, culprit⟩, fun empty present => ?_⟩
    exact complete present known changes ((faultless present rootCause).mp empty)
  · rintro ⟨⟨rootCause, culprit⟩, complete⟩
    refine ⟨rootCause, culprit, fun present known' changes' fault => ?_⟩
    obtain rfl := Except.ok.inj (changes.symm.trans changes')
    exact complete ((faultless present rootCause).mpr fault) present

theorem preToolUse_returns_iff {call : ToolCall} {ctx : RunContext} {known : List String}
    {entries : List (String × Json)} (object : call.input = .dict entries)
    (changes : knownChanges ctx.store = .ok known) :
    Returns (preToolUse gatedHooks call ctx {}) ↔ Decides call ctx := by
  rw [gatedHooks_returns_iff]
  by_cases name : call.name = "report_root_cause"
  · have budget : budgetGuard.preToolUse call ctx = .ok none := by
      simp only [budgetGuard, name, terminalTools, List.mem_cons, true_or, if_true]
    obtain ⟨returns, passes⟩ := reportGate_report ctx name
    simp only [Decides, name, ne_eq, not_true_eq_false, false_or, budget, forall_const, returns, passes,
      decoyCompletenessGate_returns_iff name object changes, object, checkable_iff changes]
    cases namesForbidden (.dict entries) <;> simp
  · simp only [Decides, ne_eq, name, not_false_eq_true, true_or, iff_true]
    intro _ _
    refine ⟨reportGate_other name (by rw [object]; rfl), fun _ => ?_⟩
    simp only [decoyCompletenessGate, ne_eq, name, not_false_eq_true, decide_true, Bool.true_or,
      if_true, returns_ok]

omit [FloatRepr] [JsonLoads] in
/-- A hook that leaves outputs alone adds nothing at the end. -/
theorem postToolUse_append_pure {hook : Hook}
    (pure_ : ∀ call output ctx, hook.postToolUse call output ctx = .ok (output, ctx))
    (hooks : List Hook) (call : ToolCall) : ∀ output ctx,
      postToolUse (hooks ++ [hook]) call output ctx = postToolUse hooks call output ctx := by
  induction hooks with
  | nil =>
    intro output ctx
    simp [postToolUse, pure_]
  | cons first rest ih =>
    intro output ctx
    simp only [List.cons_append, postToolUse, ih]

theorem gatedHooks_post {call : ToolCall} {output out : Json} {ctx ctx' : RunContext}
    (posted : postToolUse gatedHooks call output ctx = .ok (out, ctx')) :
    ctx'.toolCalls = ctx.toolCalls := by
  rw [gatedHooks, postToolUse_append_pure fun _ _ _ => rfl] at posted
  exact (defaultHooks_post posted).2.2

theorem gatedHooks_quiet {config : LoopConfig} (hooks : config.hooks = gatedHooks) {σ : Type*}
    {dispatch : String → Json → σ → Py Json × σ} {s : LoopState × σ} {tu : ToolUse}
    (decided : Returns (preToolUse config.hooks tu.call s.1.ctx {}))
    (posts : tu.name ≠ config.terminalTool → ∀ out,
      caughtOutput (dispatch tu.name tu.call.input s.2).1 = .ok out →
        Returns (postToolUse config.hooks tu.call out s.1.ctx)) :
    QuietUse config dispatch s tu := by
  obtain ⟨decision, decided⟩ := decided
  refine ⟨decision, decided, ?_, fun _ other out caught => ?_⟩
  · have gates : Gates config.hooks := by
      intro hook member call ctx result answer
      rw [hooks, gatedHooks, List.mem_append, List.mem_singleton] at member
      rcases member with standard | rfl
      · exact defaultHooks_gate hook standard call ctx result answer
      · exact decoyCompletenessGate_gate answer
    by_cases denied : decision.action = .deny
    · rw [denied]
      decide
    · obtain ⟨passed, -⟩ := preToolUse_gates gates tu.call s.1.ctx {} ⟨decision, decided, denied⟩
      obtain rfl := Except.ok.inj (decided.symm.trans passed)
      decide
  · obtain ⟨⟨out', ctx'⟩, posted⟩ := posts other out caught
    refine ⟨out', ctx', posted, ?_⟩
    rw [hooks] at posted
    exact gatedHooks_post posted

/-- For every object the model may hand in, the hooks return a decision, and the
loop answers the block, exactly on the calls they can decide on; a dispatched
call must raise nothing outside `Exception` and have its output filtered. -/
theorem gates_total_iff {config : LoopConfig} (hooks : config.hooks = gatedHooks) {σ : Type*}
    (dispatch : String → Json → σ → Py Json × σ) (st : LoopState) (world : σ) (tu : ToolUse)
    (changes : Returns (knownChanges st.ctx.store))
    (exceptions : ∀ e, (dispatch tu.name tu.call.input world).1 = .error e → e.base = false)
    (posts : tu.name ≠ config.terminalTool → ∀ out,
      caughtOutput (dispatch tu.name tu.call.input world).1 = .ok out →
        Returns (postToolUse config.hooks tu.call out st.ctx)) :
    (Returns (preToolUse config.hooks tu.call st.ctx {}) ↔ Decides tu.call st.ctx) ∧
      ((∃ st' world', runToolUse config dispatch st world tu = (.ok st', world') ∧
        st'.results.map ToolResult.toolUseId = st.results.map ToolResult.toolUseId ++ [tu.id]) ↔
          Decides tu.call st.ctx) := by
  obtain ⟨known, changes⟩ := changes
  obtain ⟨entries, object⟩ := callInput_dict tu.input
  have decides : Returns (preToolUse config.hooks tu.call st.ctx {}) ↔ Decides tu.call st.ctx := by
    rw [hooks]
    exact preToolUse_returns_iff object changes
  refine ⟨decides, ?_⟩
  rw [← decides]
  constructor
  · rintro ⟨st', world', ran, -⟩
    cases decided : preToolUse config.hooks tu.call st.ctx {} with
    | ok decision => exact returns_ok decision
    | error e =>
      simp only [runToolUse] at ran
      rw [show (⟨tu.name, if tu.input.isDict then tu.input else .dict []⟩ : ToolCall) = tu.call
        from rfl, decided] at ran
      cases ran
  · intro decided
    have quiet : QuietUse config dispatch (st, world) tu := gatedHooks_quiet hooks decided posts
    rcases runToolUse_quiet quiet with ⟨s', ran, -⟩ | ⟨e, base, raised, -⟩
    · exact ⟨s'.1, s'.2, ran, (runToolUse_delta quiet ran).ids⟩
    · rw [exceptions e raised] at base
      cases base

end

section Samples
attribute [local instance] fractionRepr plainInt unreadable

def ordersGated : LoopConfig := { ordersConfig with hooks := gatedHooks }

/-- The report whose root cause is the bare name of a service. -/
def bareReport : Json := .dict [("root_cause", .str "orders")]

theorem bareReport_public : namesForbidden bareReport = false := by decide +kernel

theorem bareReport_undecided (ctx : RunContext) : ¬ Decides ⟨"report_root_cause", bareReport⟩ ctx := by
  rintro (other | forbidden | checkable)
  · exact other rfl
  · rw [bareReport_public] at forbidden
    cases forbidden
  · exact absurd checkable.rootCause (by decide)

theorem gates_raise : ¬ ∀ (name : String) (input : Json) (ctx : RunContext), input.isDict = true →
    Returns (knownChanges ctx.store) → Returns (preToolUse gatedHooks ⟨name, input⟩ ctx {}) := by
  intro total
  have returns := total "report_root_cause" bareReport {} rfl (returns_ok [])
  have unlisted : knownChanges none = .ok [] := rfl
  exact bareReport_undecided {} ((preToolUse_returns_iff rfl unlisted).mp returns)

theorem gates_total_orders :
    (Returns (preToolUse ordersGated.hooks (ToolUse.call ⟨"t1", "report_root_cause", bareReport⟩) {} {}) ↔
        Decides (ToolUse.call ⟨"t1", "report_root_cause", bareReport⟩) {}) ∧
      ((∃ st' world', runToolUse ordersGated ordersDispatch { messages := [], ctx := {} } ()
          ⟨"t1", "report_root_cause", bareReport⟩ = (.ok st', world') ∧
        st'.results.map ToolResult.toolUseId = [] ++ ["t1"]) ↔
          Decides (ToolUse.call ⟨"t1", "report_root_cause", bareReport⟩) {}) :=
  gates_total_iff (show ordersGated.hooks = gatedHooks from rfl) ordersDispatch { messages := [], ctx := {} } ()
    ⟨"t1", "report_root_cause", bareReport⟩ (returns_ok []) nofun (fun other => absurd rfl other)

end Samples

end Sentinel.Agent
