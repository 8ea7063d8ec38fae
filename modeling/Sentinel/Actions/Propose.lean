import Sentinel.Actions.Brief
import Sentinel.Actions.Session
import Sentinel.Actions.Suggestions
import Sentinel.Python.Rounding

/-! The proposals of a completed run. Every suggested action is journaled as a proposal and
can be approved, the primary one and the alternatives alike. -/
namespace Sentinel.Actions
open Python

/-- What `propose_from_result` returns. -/
structure ProposalSummary where
  proposed : List String
  slack : Option String
  web : ℕ
  primary : Option String
  confident : Bool

structure ProposalRun where
  journal : Journal
  result : Py ProposalSummary

def Brief.actions (brief : Brief) : List SuggestedAction :=
  brief.primaryAction.toList ++ brief.alternatives

/-- `journal.proposed` for each action, with the time at which it is called. -/
def proposals (clock : ℕ → ℚ) (ttlS : ℚ) (actions : List SuggestedAction) : List Event :=
  actions.zipIdx.map fun (action, n) => ⟨action.id, .proposed action (some (rnd (clock n + ttlS)))⟩

/-- `post_brief` and `journal.posted`, if the brief goes to Slack: the events and the time
stamp of the message. `post` says whether the message was accepted, and its time stamp. -/
def slackPost (post : Brief → Py (Bool × String)) (surface : String) (brief : Brief) :
    Py (List Event × Option String) :=
  match brief.primaryAction with
  | some primary =>
    if surface ∈ ["slack", "both"] then do
      let (ok, ts) ← post brief
      pure (if ok then ([⟨primary.id, .posted "slack" ts⟩], some ts) else ([], none))
    else .ok ([], none)
  | none => .ok ([], none)

def webPosts (surface : String) (actions : List SuggestedAction) : List Event :=
  if surface ∈ ["web", "both"] then
    actions.map fun action => ⟨action.id, .posted "web" s!"/actions/{action.id}"⟩
  else []

section
variable [FloatRepr] [Hashlib]

def proposeFromResult (uuids : ℕ → String) (clock : ℕ → ℚ) (ttlS : ℚ)
    (post : Brief → Py (Bool × String)) (result : Json) (journal : Journal) (surface : String) :
    ProposalRun :=
  match buildBrief uuids result with
  | .error e => ⟨journal, .error e⟩
  | .ok brief =>
    let proposed := journal ++ proposals clock ttlS brief.actions
    match slackPost post surface brief with
    | .error e => ⟨proposed, .error e⟩
    | .ok (posts, ts) =>
      ⟨proposed ++ posts ++ webPosts surface brief.actions, .ok
        { proposed := brief.actions.map SuggestedAction.id, slack := ts, web := brief.actions.length
          primary := brief.primaryAction.map SuggestedAction.id, confident := brief.confident }⟩

/-! ### Decisions -/

structure Decision where
  actionId : String
  decision : String
  approver : String
  surface : String
  executor : Option Executor
  now : ℚ

def Decision.call (d : Decision) : Call :=
  .decide d.actionId d.decision d.approver d.surface d.executor d.now

/-- The journal and the executor calls after decisions, one after another. -/
def decided (journal : Journal) (decisions : List Decision) : World :=
  session ⟨journal, []⟩ (decisions.map Decision.call)

def Executable (journal : Journal) (action : SuggestedAction) : Prop :=
  ∃ decisions, ∃ i ∈ (decided journal decisions).executions, i.action = action

def Approvable (journal : Journal) (action : SuggestedAction) : Prop :=
  ∃ decisions, Accepted (decided journal decisions).journal action.id .approved

/-- Of the actions at most one changes the system and can be executed, and the others that
can be approved only notify. -/
def OneMutation (journal : Journal) (actions : List SuggestedAction) : Prop :=
  ∃ chosen : Option String,
    (∀ a ∈ actions, a.effect = .mutate → Executable journal a → some a.id = chosen) ∧
    ∀ a ∈ actions, Approvable journal a → some a.id ≠ chosen → a.effect = .notify

def mutates (action : SuggestedAction) : Bool := action.effect = .mutate

/-- The actions that the events after the first journal propose. -/
def newProposals (journal later : Journal) : List SuggestedAction :=
  (later.drop journal.length).filterMap fun e => e.proposal?.map Prod.fst

/-! ### The proposals -/

/-- Proposals and posts leave an action open for a decision. -/
def Pending (status : Option Status) : Prop := status = some .proposed ∨ status = some .posted

omit [FloatRepr] [Hashlib] in
theorem pending_append {journal later : Journal} {id : String}
    (early : ∀ e ∈ later, e.kind = .proposed ∨ e.kind = .posted)
    (pending : Pending (statusOf journal id)) : Pending (statusOf (journal ++ later) id) := by
  induction later generalizing journal with
  | nil => simpa using pending
  | cons e rest ih =>
    rw [List.forall_mem_cons] at early
    have next : Pending (statusOf (journal ++ [e]) id) := by
      rw [statusOf_append_one]
      split
      · rcases early.1 with proposal | post
        · exact .inl (if_pos proposal)
        · obtain ⟨actionId, body⟩ := e
          cases body with
          | posted surface ref =>
            right
            rcases pending with status | status <;> rw [status] <;> rfl
          | _ => cases post
      · exact pending
    have after := ih early.2 next
    rwa [List.append_assoc] at after

omit [FloatRepr] [Hashlib] in
/-- An action that was proposed, with proposals and posts after it, is open. -/
theorem pending_of_proposed {journal later : Journal} {action : SuggestedAction}
    {expiresAt : Option ℚ} (early : ∀ e ∈ later, e.kind = .proposed ∨ e.kind = .posted)
    (proposed : (⟨action.id, .proposed action expiresAt⟩ : Event) ∈ later) :
    Pending (statusOf (journal ++ later) action.id) := by
  obtain ⟨before, after, rfl⟩ := List.append_of_mem proposed
  simp only [List.forall_mem_append, List.forall_mem_cons] at early
  have here : Pending (statusOf (journal ++ before ++ [⟨action.id, .proposed action expiresAt⟩])
      action.id) := by
    rw [statusOf_append_one, if_pos rfl]
    exact .inl (if_pos rfl)
  have rest := pending_append early.2.2 here
  simpa using rest

theorem approvable_of_pending {journal : Journal} {action : SuggestedAction}
    (pending : Pending (statusOf journal action.id)) : Approvable journal action := by
  obtain ⟨st, known⟩ : ∃ st, stateOf journal action.id = some st := by
    rcases pending with status | status
    all_goals
      obtain ⟨st, known, -⟩ := Option.map_eq_some_iff.mp status
      exact ⟨st, known⟩
  refine ⟨[⟨action.id, "approve", "", "web", none, 0⟩], ?_⟩
  obtain ⟨later, extended, -, -⟩ := executeApproved_appends
    (journal ++ [⟨action.id, .approved "" "web"⟩]) st.action ((none : Option Executor).getD (dryRunExecutor 0)) 0
  have ran := (handleDecision_approve known "" "web" none 0).1
  refine ⟨journal, ⟨action.id, .approved "" "web"⟩, later, ?_, rfl, rfl, ?_⟩
  · refine ran.trans (extended.trans ?_)
    rw [List.append_assoc, List.singleton_append]
  · rcases pending with status | status <;> simp [accepts, status, Event.kind, EventBody.kind, legal]

omit [FloatRepr] [Hashlib] in
theorem kinds_of_proposal (clock : ℕ → ℚ) (ttlS : ℚ) (actions : List SuggestedAction) :
    ∀ e ∈ proposals clock ttlS actions, e.kind = .proposed := by
  intro e member
  obtain ⟨⟨action, n⟩, -, rfl⟩ := List.mem_map.mp member
  rfl

omit [FloatRepr] [Hashlib] in
theorem proposed_of_mem {actions : List SuggestedAction} {action : SuggestedAction}
    (member : action ∈ actions) (clock : ℕ → ℚ) (ttlS : ℚ) :
    ∃ expiresAt, (⟨action.id, .proposed action expiresAt⟩ : Event) ∈ proposals clock ttlS actions := by
  obtain ⟨n, found⟩ := List.getElem?_of_mem member
  exact ⟨_, List.mem_map.mpr ⟨(action, n), List.mk_mem_zipIdx_iff_getElem?.mpr found, rfl⟩⟩

omit [FloatRepr] [Hashlib] in
theorem mutates_iff {action : SuggestedAction} : mutates action = true ↔ action.effect = .mutate :=
  decide_eq_true_iff

/-- With one mutation among pending actions of different ids it is the only one that can be
executed, and with two there is one too many that can be approved. -/
theorem oneMutation_iff {journal : Journal} {actions : List SuggestedAction}
    (distinct : (actions.map SuggestedAction.id).Nodup)
    (pending : ∀ a ∈ actions, Pending (statusOf journal a.id)) :
    OneMutation journal actions ↔ actions.countP mutates ≤ 1 := by
  have member {a : SuggestedAction} (given : a ∈ actions) (effect : a.effect = .mutate) :
      a ∈ actions.filter mutates := List.mem_filter.mpr ⟨given, mutates_iff.mpr effect⟩
  rw [List.countP_eq_length_filter]
  constructor
  · rintro ⟨chosen, -, others⟩
    have elected {a : SuggestedAction} (within : a ∈ actions.filter mutates) : some a.id = chosen := by
      obtain ⟨given, effect⟩ := List.mem_filter.mp within
      by_contra apart
      have notice := others a given (approvable_of_pending (pending a given)) apart
      rw [mutates_iff.mp effect] at notice
      cases notice
    have ids : ((actions.filter mutates).map SuggestedAction.id).Nodup :=
      distinct.sublist (List.filter_sublist.map SuggestedAction.id)
    match mutations : actions.filter mutates with
    | [] | [_] => simp
    | a :: b :: rest =>
      rw [mutations] at elected ids
      have first := elected (a := a) (by simp)
      have second := elected (a := b) (by simp)
      have same : a.id = b.id := Option.some.inj (first.trans second.symm)
      simp [same] at ids
  · intro few
    have single {a : SuggestedAction} (given : a ∈ actions) (effect : a.effect = .mutate) :
        some a.id = ((actions.filter mutates).head?).map SuggestedAction.id := by
      have within := member given effect
      obtain ⟨x, only⟩ := List.length_eq_one_iff.mp (Nat.le_antisymm few (List.length_pos_of_mem within))
      rw [only, List.mem_singleton] at within
      rw [only, within]
      rfl
    refine ⟨((actions.filter mutates).head?).map SuggestedAction.id, ?_, ?_⟩
    · intro a given effect _
      exact single given effect
    · intro a given _ apart
      cases effect : a.effect with
      | notify => rfl
      | mutate => exact absurd (single given effect) apart

/-! ### Counting mutations -/

omit [FloatRepr] [Hashlib] in
/-- All catalog entries but one have two mutations. -/
theorem catalogTable_mutations : ∀ entry ∈ catalogTable,
    entry.2.countP CatalogRow.mutates = if entry.1 = "disk" then 1 else 2 := by
  decide

theorem draftActions_ids {uuids : ℕ → String} (injective : Function.Injective uuids)
    {rows : List CatalogRow} {targetService : String} {citations : List String} {executor : Executor}
    {actions : List SuggestedAction}
    (drafted : draftActions uuids rows targetService citations executor = .ok actions) :
    (actions.map SuggestedAction.id).Nodup := by
  have ids : actions.map SuggestedAction.id = (rows.zipIdx.map Prod.snd).map uuids := by
    rw [List.map_map]
    refine map_draftActions _ _ drafted fun row n action suggested => ?_
    simp only [CatalogRow.suggest, bind_ok_iff, pure, Except.pure, Except.ok.injEq] at suggested
    obtain ⟨preview, -, rfl⟩ := suggested
    rfl
  rw [ids, List.zipIdx_map_snd]
  exact List.Nodup.map injective List.nodup_range'

theorem draftActions_mutations {uuids : ℕ → String} {rows : List CatalogRow} {targetService : String}
    {citations : List String} {executor : Executor} {actions : List SuggestedAction}
    (drafted : draftActions uuids rows targetService citations executor = .ok actions) :
    actions.countP mutates = rows.countP CatalogRow.mutates := by
  have effects : actions.map mutates = rows.map CatalogRow.mutates :=
    map_draftActions_row _ _ drafted fun _ _ _ => rfl
  have counts := congrArg (List.countP id) effects
  rwa [List.countP_map, List.countP_map] at counts

omit [FloatRepr] [Hashlib] in
/-- The primary action and the alternatives are the suggestions. -/
theorem elected_perm (actions : List SuggestedAction) :
    ((electPrimary actions).toList ++ actions.eraseP fun action => action.effect = .mutate).Perm
      actions := by
  induction actions with
  | nil => exact .refl _
  | cons a rest ih =>
    by_cases effect : a.effect = .mutate
    · simp [electPrimary, effect]
    · rw [electPrimary, List.find?_cons_of_neg (by simpa using effect),
        List.eraseP_cons_of_neg (by simpa using effect)]
      exact List.perm_middle.trans (ih.cons a)

theorem buildBrief_suggests {uuids : ℕ → String} {result : Json} {brief : Brief}
    (built : buildBrief uuids result = .ok brief) :
    ∃ diagnosis actions, diagnose result = .ok diagnosis ∧ diagnosis.suggest uuids = .ok actions ∧
      brief.actions.Perm actions := by
  simp only [buildBrief, bind_ok_iff, pure, Except.pure, Except.ok.injEq] at built
  obtain ⟨runId, -, diagnosis, read, actions, suggested, built⟩ := built
  refine ⟨diagnosis, actions, read, suggested, ?_⟩
  obtain ⟨_, -, _, -, _, -, _, -, _, -, _, -, _, -, _, -, rfl⟩ := built
  exact elected_perm actions

/-- A confident diagnosis that has a remedy for its fault has at most one that changes the
system. -/
def AtMostOneRemedy (result : Json) : Prop :=
  ∀ diagnosis found, diagnose result = .ok diagnosis → diagnosis.remedies = .ok found →
    found.countP CatalogRow.mutates ≤ 1

theorem suggest_cases {uuids : ℕ → String} {diagnosis : Diagnosis} {actions : List SuggestedAction}
    (suggested : diagnosis.suggest uuids = .ok actions) :
    (actions = [] ∧ diagnosis.remedies = .ok []) ∨ ∃ found target citations,
      diagnosis.remedies = .ok found ∧
        draftActions uuids (rankedRows found) target citations (dryRunExecutor 0) = .ok actions := by
  unfold Diagnosis.suggest at suggested
  split at suggested
  · obtain ⟨found, remedies, suggested⟩ := bind_ok_iff.mp suggested
    obtain ⟨target, -, suggested⟩ := bind_ok_iff.mp suggested
    obtain ⟨citations, -, drafted⟩ := bind_ok_iff.mp suggested
    exact .inr ⟨found, target, citations, remedies, drafted⟩
  · rename_i rootless
    have unsure : diagnosis.confident = false := by
      by_contra confident
      rw [Bool.not_eq_false] at confident
      rw [diagnosis.rooted confident] at rootless
      simp at rootless
    refine .inl ⟨(Except.ok.inj suggested).symm, ?_⟩
    rw [Diagnosis.remedies, unsure]
    rfl

/-- The suggestions have the mutations of the remedies. -/
theorem suggest_countP {uuids : ℕ → String} {diagnosis : Diagnosis} {actions : List SuggestedAction}
    (suggested : diagnosis.suggest uuids = .ok actions) :
    ∃ found, diagnosis.remedies = .ok found ∧
      actions.countP mutates = found.countP CatalogRow.mutates := by
  rcases suggest_cases suggested with ⟨rfl, remedies⟩ | ⟨found, target, citations, remedies, drafted⟩
  · exact ⟨[], remedies, rfl⟩
  · exact ⟨found, remedies, (draftActions_mutations drafted).trans (rankedRows_mutations found)⟩

theorem suggest_ids {uuids : ℕ → String} (injective : Function.Injective uuids)
    {diagnosis : Diagnosis} {actions : List SuggestedAction}
    (suggested : diagnosis.suggest uuids = .ok actions) :
    (actions.map SuggestedAction.id).Nodup := by
  rcases suggest_cases suggested with ⟨rfl, -⟩ | ⟨found, target, citations, -, drafted⟩
  · exact List.nodup_nil
  · exact draftActions_ids injective drafted

omit [FloatRepr] [Hashlib] in
theorem filterMap_proposals (clock : ℕ → ℚ) (ttlS : ℚ) (actions : List SuggestedAction) :
    ((proposals clock ttlS actions).filterMap fun e => e.proposal?.map Prod.fst) = actions := by
  rw [proposals, List.filterMap_map]
  have each : ((fun e : Event => e.proposal?.map Prod.fst) ∘ fun entry : SuggestedAction × ℕ =>
      ⟨entry.1.id, .proposed entry.1 (some (rnd (clock entry.2 + ttlS)))⟩) = some ∘ Prod.fst := rfl
  rw [each, List.filterMap_eq_map, List.zipIdx_map_fst]

/-- What a run appends: the proposals of the brief, and posts. -/
theorem propose_appends {uuids : ℕ → String} {result : Json} {brief : Brief}
    (built : buildBrief uuids result = .ok brief) (clock : ℕ → ℚ) (ttlS : ℚ)
    (post : Brief → Py (Bool × String)) (journal : Journal) (surface : String) :
    ∃ posts : List Event, (∀ e ∈ posts, e.kind = .posted) ∧
      (proposeFromResult uuids clock ttlS post result journal surface).journal =
        journal ++ (proposals clock ttlS brief.actions ++ posts) := by
  have web : ∀ e ∈ webPosts surface brief.actions, e.kind = .posted := by
    intro e member
    unfold webPosts at member
    split at member
    · obtain ⟨action, -, rfl⟩ := List.mem_map.mp member
      rfl
    · cases member
  simp only [proposeFromResult, built]
  split
  · exact ⟨[], by simp, by simp⟩
  · rename_i posts ts sent
    refine ⟨posts ++ webPosts surface brief.actions, ?_, by simp⟩
    rw [List.forall_mem_append]
    refine ⟨?_, web⟩
    unfold slackPost at sent
    split at sent
    · split at sent
      · obtain ⟨⟨ok, stamp⟩, -, sent⟩ := bind_ok_iff.mp sent
        cases ok with
        | true =>
          cases sent
          simp [Event.kind, EventBody.kind]
        | false =>
          cases sent
          simp
      · cases sent
        simp
    · cases sent
      simp

/-- What a run proposes is what its brief suggests, and all of it is open. -/
theorem proposed_open {uuids : ℕ → String} {result : Json} {brief : Brief}
    (built : buildBrief uuids result = .ok brief) (clock : ℕ → ℚ) (ttlS : ℚ)
    (post : Brief → Py (Bool × String)) (journal : Journal) (surface : String) :
    let later := (proposeFromResult uuids clock ttlS post result journal surface).journal
    newProposals journal later = brief.actions ∧
      ∀ a ∈ brief.actions, Pending (statusOf later a.id) := by
  intro later
  obtain ⟨posts, posted, appended⟩ := propose_appends built clock ttlS post journal surface
  have grown : later = journal ++ (proposals clock ttlS brief.actions ++ posts) := appended
  constructor
  · have silent : (posts.filterMap fun e => e.proposal?.map Prod.fst) = [] := by
      refine List.filterMap_eq_nil_iff.mpr fun e member => ?_
      rw [proposal?_eq_none.mpr (by rw [posted e member]; decide)]
      rfl
    rw [newProposals, grown, List.drop_left, List.filterMap_append, filterMap_proposals, silent,
      List.append_nil]
  · intro a member
    obtain ⟨expiresAt, proposed⟩ := proposed_of_mem member clock ttlS
    rw [grown]
    refine pending_of_proposed ?_ (List.mem_append_left _ proposed)
    rw [List.forall_mem_append]
    exact ⟨fun e inside => .inl (kinds_of_proposal clock ttlS brief.actions e inside),
      fun e inside => .inr (posted e inside)⟩

/-- The proposals of a document leave at most one mutation open exactly if its brief cannot
be built, or the catalog has at most one for its diagnosis. -/
theorem one_mutation_iff {uuids : ℕ → String} (injective : Function.Injective uuids)
    (clock : ℕ → ℚ) (ttlS : ℚ) (post : Brief → Py (Bool × String)) (result : Json)
    (journal : Journal) (surface : String) :
    let later := (proposeFromResult uuids clock ttlS post result journal surface).journal
    OneMutation later (newProposals journal later) ↔
      ¬ Returns (buildBrief uuids result) ∨ AtMostOneRemedy result := by
  intro later
  cases built : buildBrief uuids result with
  | error e =>
    have unchanged : later = journal := by
      simp only [later, proposeFromResult, built]
    have none_ : newProposals journal later = [] := by
      rw [unchanged, newProposals, List.drop_length]
      rfl
    rw [none_]
    refine iff_of_true ⟨none, by simp, by simp⟩ (.inl (not_returns_error e))
  | ok brief =>
    obtain ⟨diagnosis, actions, read, suggested, perm⟩ := buildBrief_suggests built
    obtain ⟨found, remedies, counts⟩ := suggest_countP suggested
    have ids := suggest_ids injective suggested
    obtain ⟨fresh, pending⟩ := proposed_open built clock ttlS post journal surface
    rw [fresh, oneMutation_iff ((perm.map _).nodup_iff.mpr ids) pending, perm.countP_eq, counts]
    constructor
    · intro few
      refine .inr fun diagnosis' found' read' remedies' => ?_
      obtain rfl := Except.ok.inj (read.symm.trans read')
      obtain rfl := Except.ok.inj (remedies.symm.trans remedies')
      exact few
    · rintro (raises | few)
      · exact absurd (returns_ok brief) raises
      · exact few diagnosis found read remedies

end

section Samples
attribute [local instance] fractionRepr pinnedHashlib

def tallies (n : ℕ) : String := String.ofList (List.replicate n 'a')

theorem tallies_injective : Function.Injective tallies := by
  intro m n same
  have lengths := congrArg (fun text : String => text.toList.length) same
  simpa [tallies] using lengths

/-- The result of a run that is sure of its diagnosis. -/
def checkoutResult (faultType : String) : Json :=
  .dict [("run_id", .str "demo1"), ("root_cause_service", .str "checkout"),
    ("ranked_services", .list [.str "checkout"]),
    ("synthesis", .dict [("fault_type", .str faultType)]),
    ("verdicts", .list [.dict [("candidate_service", .str "checkout"), ("supported", .bool true),
      ("evidence", .list [.str "cpu 0.27->18.68 at onset"]),
      ("observed_signatures", .dict [("resource", .bool true)])]])]

theorem one_mutation_disk :
    let later := (proposeFromResult tallies (fun _ => 0) 3600 (fun _ => .ok (true, "dry-run"))
      (checkoutResult "disk") [] "both").journal
    OneMutation later (newProposals [] later) := by
  refine (one_mutation_iff tallies_injective _ _ _ _ _ _).mpr (.inr ?_)
  intro diagnosis found read remedies
  have known : diagnose (checkoutResult "disk") = .ok _ := rfl
  obtain rfl := Except.ok.inj (known.symm.trans read)
  obtain rfl := Except.ok.inj remedies
  decide

/-- A diagnosed cpu fault leaves a restart and a scaling open. -/
theorem two_mutations_proposed : ¬ ∀ (uuids : ℕ → String) (clock : ℕ → ℚ) (ttlS : ℚ)
    (post : Brief → Py (Bool × String)) (result : Json) (journal : Journal) (surface : String),
    Function.Injective uuids →
      let later := (proposeFromResult uuids clock ttlS post result journal surface).journal
      OneMutation later (newProposals journal later) := by
  intro single
  obtain ⟨brief, built⟩ : Returns (buildBrief tallies (checkoutResult "cpu")) := ⟨_, rfl⟩
  obtain ⟨diagnosis, actions, read, suggested, perm⟩ := buildBrief_suggests built
  obtain ⟨found, remedies, counts⟩ := suggest_countP suggested
  have ids := suggest_ids tallies_injective suggested
  obtain ⟨fresh, pending⟩ := proposed_open built (fun _ => 0) 3600
    (fun _ => .ok (true, "dry-run")) [] "both"
  have one : OneMutation _ (newProposals [] _) := single tallies (fun _ => 0) 3600
    (fun _ => .ok (true, "dry-run")) (checkoutResult "cpu") [] "both" tallies_injective
  rw [fresh, oneMutation_iff ((perm.map _).nodup_iff.mpr ids) pending, perm.countP_eq, counts] at one
  have known : diagnose (checkoutResult "cpu") = .ok _ := rfl
  obtain rfl := Except.ok.inj (known.symm.trans read)
  obtain rfl := Except.ok.inj remedies
  revert one
  decide

end Samples

end Sentinel.Actions
