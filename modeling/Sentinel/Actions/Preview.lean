import Sentinel.Actions.Binding
import Sentinel.Actions.Catalog
import Sentinel.Actions.GateProofs

/-! The preview that was approved and the operation that is rendered at execution. The
hash of an approval binds kind, target and parameters; a ticket and a page are rendered
from the description too, which it does not bind. -/
namespace Sentinel.Actions
open Python

/-- An executor whose `render` is `_concrete_op`. -/
def Renders (executor : Executor) : Prop := ∀ action, executor.render action = .ok (concreteOp action)

/-- Of actions with the same content, the kinds that change the system render alike, and
the others exactly with the same description. -/
theorem concreteOp_eq_iff {a b : SuggestedAction} (same : SameContent b a) :
    concreteOp b = concreteOp a ↔ a.kind.effect = .mutate ∨ b.description = a.description := by
  obtain ⟨kinds, targets, params⟩ := same
  have counts : replicas b = replicas a := by rw [replicas, replicas, params]
  simp only [concreteOp, kinds, targets, counts]
  cases a.kind with
  | restart | scale | removeImpairment | revertChange => simp [ActionKind.effect]
  | openTicket | pageOncall =>
    simp only [ActionKind.effect, String.append_right_inj, reduceCtorEq, false_or]
    exact Iff.rfl

section
variable [FloatRepr] [Hashlib]

theorem suggest_previewed {row : CatalogRow} {id targetService : String} {citations : List String}
    {executor : Executor} {action : SuggestedAction} (renders : Renders executor)
    (suggested : row.suggest id targetService citations executor = .ok action) :
    action.preview = concreteOp action := by
  simp only [CatalogRow.suggest, bind_ok_iff, pure, Except.pure, Except.ok.injEq] at suggested
  obtain ⟨preview, rendered, rfl⟩ := suggested
  obtain rfl := Except.ok.inj ((renders _).symm.trans rendered)
  rfl

/-- Every suggested action carries the operation that it renders to. -/
theorem suggestActions_previewed {uuids : ℕ → String} {targetService : String}
    {faultType signature : Option String} {citations : List String} {confident : Bool}
    {executor : Executor} {actions : List SuggestedAction} (renders : Renders executor)
    (suggested : suggestActions uuids targetService faultType signature citations confident executor =
      .ok actions) : ∀ action ∈ actions, action.preview = concreteOp action := by
  rw [suggestActions, bind_ok_iff] at suggested
  obtain ⟨found, -, mapped⟩ := suggested
  intro action member
  obtain ⟨⟨row, n⟩, -, drafted⟩ := (mem_of_mapM mapped action).mp member
  exact suggest_previewed renders drafted

/-- The action that the gate lets through has the content of the proposed one. -/
theorem admitted_content (collisionFree : CollisionFree) {a b : SuggestedAction}
    (hashed : a.paramsHash = a.computeHash) {journal : Journal} {st : ApprovalState}
    {executor : Executor} {now : ℚ} {invocation : Invocation}
    (known : stateOf journal b.id = some st) (proposed : st.action = a)
    (admits : (executeApproved journal b executor now).invocation = some invocation) :
    SameContent b a := by
  obtain ⟨st', -, current, admitted, -⟩ := executeApproved_invocation admits
  obtain rfl := Option.some.inj (known.symm.trans current)
  subst proposed
  apply computeHash_binds collisionFree
  rw [admitted.matching, approvedHash_of_hashed st hashed]

/-- What is let through renders to the approved preview exactly if it changes the system
or has the description that was approved. -/
theorem previewed_rendered_iff (collisionFree : CollisionFree) {uuids : ℕ → String}
    {targetService : String} {faultType signature : Option String} {citations : List String}
    {confident : Bool} {executor : Executor} (renders : Renders executor)
    {actions : List SuggestedAction}
    (suggested : suggestActions uuids targetService faultType signature citations confident executor =
      .ok actions) {a b : SuggestedAction} (member : a ∈ actions) (same : b.id = a.id)
    {journal : Journal} {st : ApprovalState} (known : stateOf journal a.id = some st)
    (proposed : st.action = a) {now : ℚ} {invocation : Invocation}
    (admits : (executeApproved journal b executor now).invocation = some invocation) :
    executor.render b = .ok a.preview ↔ a.kind.effect = .mutate ∨ b.description = a.description := by
  have hashed := suggestActions_hashed suggested a member
  have content := admitted_content collisionFree hashed (same ▸ known) proposed admits
  rw [renders b, suggestActions_previewed renders suggested a member, Except.ok.injEq]
  exact concreteOp_eq_iff content

end

/-- The hashed text of a parameterless action on the orders service. -/
def ordersPayload (kind : String) : List Char :=
  "\x7b\"kind\": \"".toList ++ kind.toList ++
    "\", \"params\": \x7b\x7d, \"target_service\": \"orders\"\x7d".toList

/-- A digest that is SHA-256 on a ticket and a page and keeps all other texts apart. -/
@[reducible] def noticeHashlib : Hashlib where
  sha256 text :=
    if text = ordersPayload "open_ticket" then
      "04bc5fce2f4ecfe4919b81a6eb7324d1b1a02a858ed809f9ccd70996118a0b9b"
    else if text = ordersPayload "page_oncall" then
      "89e412be4c2984579af47b4ee4a44cee0dd209fa9f1e2a5a09604bd11b45a0e9"
    else String.ofList ('#' :: text)

theorem noticeHashlib_collisionFree : @CollisionFree noticeHashlib := by
  intro a b same
  have chars := congrArg String.toList same
  simp only [Hashlib.sha256] at chars
  split_ifs at chars with ticketA ticketB pageB pageA ticketB pageB ticketB pageB
  · exact ticketA.trans ticketB.symm
  · exact absurd chars (by decide)
  · simp at chars
  · exact absurd chars (by decide)
  · exact pageA.trans pageB.symm
  · simp at chars
  · simp at chars
  · simp at chars
  · simpa using chars

section Samples
attribute [local instance] fractionRepr noticeHashlib

/-- The ticket that a low confidence suggests. -/
def ordersTicket : SuggestedAction :=
  { id := "a0", kind := .openTicket, effect := .notify, targetService := "orders"
    description := "Open an incident ticket for orders.", risk := .low
    preview := "open incident ticket for orders: Open an incident ticket for orders."
    : SuggestedAction }.withHash

theorem ordersTicket_suggested : ∃ actions,
    suggestActions (fun n => s!"a{n}") "orders" none none [] false (dryRunExecutor 0) = .ok actions ∧
      ordersTicket ∈ actions :=
  ⟨_, rfl, List.mem_cons_self⟩

def ticketDescribed (description : String) : SuggestedAction := { ordersTicket with description }

theorem dryRun_renders : Renders (dryRunExecutor 0) := fun _ => rfl

/-- A ticket with another description is let through in place of the approved one. -/
theorem ordersTicket_admits (description : String) :
    let known : ApprovalState := ⟨ordersTicket, .approved, some "dana", some "web", none, none⟩
    stateOf (approvedJournal ordersTicket) ordersTicket.id = some known ∧
      ∃ invocation, (executeApproved (approvedJournal ordersTicket) (ticketDescribed description)
        (dryRunExecutor 0) 0).invocation = some invocation := by
  intro known
  have current : stateOf (approvedJournal ordersTicket) ordersTicket.id = some known := by
    simp [approvedJournal, stateOf, fold, applyEvent, transition, known]
  have own : stateOf (approvedJournal ordersTicket) (ticketDescribed description).id = some known :=
    current
  have admitted : Admitted known (ticketDescribed description) 0 :=
    ⟨rfl, by simp [known], (approvedHash_of_hashed known rfl).symm⟩
  refine ⟨current, ?_⟩
  rw [executeApproved_start own admitted]
  exact ⟨_, rfl⟩

theorem approved_ticket_rendered :
    (dryRunExecutor 0).render ordersTicket = .ok ordersTicket.preview := by
  obtain ⟨actions, suggested, member⟩ := ordersTicket_suggested
  obtain ⟨known, invocation, admits⟩ := ordersTicket_admits ordersTicket.description
  exact (previewed_rendered_iff noticeHashlib_collisionFree dryRun_renders suggested member rfl known
    rfl admits).mpr (.inr rfl)

/-- The description of an approved ticket is changed, and the changed one is rendered. -/
theorem changed_ticket_rendered : ¬ ∀ (uuids : ℕ → String) (targetService : String)
    (faultType signature : Option String) (citations : List String) (confident : Bool)
    (executor : Executor) (actions : List SuggestedAction) (a b : SuggestedAction)
    (journal : Journal) (st : ApprovalState) (now : ℚ) (invocation : Invocation),
    Renders executor →
    suggestActions uuids targetService faultType signature citations confident executor =
      .ok actions → a ∈ actions → b.id = a.id → stateOf journal a.id = some st → st.action = a →
    (executeApproved journal b executor now).invocation = some invocation →
      executor.render b = .ok a.preview := by
  intro kept
  obtain ⟨actions, suggested, member⟩ := ordersTicket_suggested
  obtain ⟨known, invocation, admits⟩ := ordersTicket_admits "Close every incident."
  have rendered := kept _ _ _ _ _ _ _ actions ordersTicket (ticketDescribed "Close every incident.")
    _ _ _ invocation dryRun_renders suggested member rfl known rfl admits
  exact absurd (Except.ok.inj rendered) (by decide)

end Samples

end Sentinel.Actions
