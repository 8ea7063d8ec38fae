import Sentinel.Actions.JournalFile

/-! The fold over the journal's file is the fold over the events that were appended. A file
that is cut short folds to the state after some of its events, and loses none that was
written whole, or does not fold at all. -/
namespace Sentinel.Actions
open Python Tools Tools.Validated Fixtures

/-- The state as it is read back. -/
def ApprovalState.folded (st : ApprovalState) : FoldedState where
  action := st.action
  status := st.status
  approver := textOrNull st.approver
  surface := textOrNull st.surface
  expiresAt := st.expiresAt
  outcome := (st.outcome.map fun result => Json.dict result.data).getD .null

/-- What the executor reported of its target is JSON in which no key is given twice. -/
def EventBody.Keyed : EventBody → Prop
  | .executeResult result => result.before.keyed = true ∧ result.after.keyed = true
  | _ => True

/-- The file after the events are appended, each with its time stamp. -/
def appended [FloatRepr] (file : JournalFile) (entries : List (ℚ × Event)) : JournalFile :=
  entries.foldl (fun file entry => file.append (entry.2.record entry.1)) file

/-! ### The records -/

theorem keyed_toJson (params : Params) : (Json.dict params.toJson).keyed = true := by
  have distinct : (params.toJson.map Prod.fst).Nodup := by
    have keys : params.toJson.map Prod.fst = params.items.map Prod.fst := Dict.keys_mapValues _ _
    rw [keys]
    exact params.unique
  have values : entriesKeyed params.toJson = true := by
    rw [entriesKeyed_iff]
    intro entry member
    obtain ⟨⟨key, value⟩, -, rfl⟩ := List.mem_map.mp member
    cases value <;> rfl
  rw [Json.keyed, values, Bool.and_true]
  exact decide_eq_true distinct

theorem keyed_texts (items : List String) : (texts items).keyed = true := by
  have values : itemsKeyed (items.map .str) = true := by
    induction items with
    | nil => rfl
    | cons s rest ih => exact ih
  exact values

theorem keyed_modelDump (action : SuggestedAction) : action.modelDump.keyed = true := by
  rw [SuggestedAction.modelDump, Json.keyed]
  simp only [entriesKeyed, keyed_toJson, keyed_texts]
  rfl

theorem record_record (ts : ℚ) {e : Event} (keyed : e.body.Keyed) : Record (e.record ts) := by
  refine ⟨⟨_, _, rfl⟩, ?_⟩
  obtain ⟨actionId, body⟩ := e
  cases body with
  | proposed action expiresAt =>
    have expiry : (Json.ofOption expiresAt).keyed = true := by cases expiresAt <;> rfl
    simp only [Event.record, EventBody.data, Json.keyed, entriesKeyed, keyed_modelDump, expiry]
    rfl
  | executeResult result =>
    simp only [Event.record, EventBody.data, ResultRecord.data, Json.keyed, entriesKeyed, keyed.1, keyed.2]
    rfl
  | _ => rfl

/-! ### The action -/

theorem ActionKind.validate_text (kind : ActionKind) : ActionKind.validate (.str kind.text) = .ok kind := by
  cases kind <;> rfl

theorem Effect.validate_text (effect : Effect) : Effect.validate (.str effect.text) = .ok effect := by
  cases effect <;> rfl

theorem Risk.validate_text (risk : Risk) : Risk.validate (.str risk.text) = .ok risk := by
  cases risk <;> rfl

theorem validateStrings_texts (items : List String) : validateList validateStr (texts items) = .ok items :=
  validateStrings_ok.mpr rfl

/-- The event does to a state that is read what its record does. -/
theorem follow_record (st : ApprovalState) (ts : ℚ) (actionId : String) (body : EventBody) :
    st.folded.follow (.str body.kind.text) (Event.record ts ⟨actionId, body⟩) =
      (transition st body).folded := by
  obtain ⟨action, status, approver, surface, expiresAt, outcome⟩ := st
  cases body <;> cases status <;> rfl

section
variable [LaxScalars]

theorem validateBool_bool (b : Bool) : validateBool (.bool b) = .ok b := by
  rw [validateBool, LaxScalars.parse_bool]

theorem ParamValue.validate_toJson (value : ParamValue) : ParamValue.validate value.toJson = .ok value := by
  cases value with
  | str s => rfl
  | int n =>
    rw [ParamValue.toJson, ParamValue.validate, validateInt, LaxNumbers.parse_int]
    · rfl
    · exact fun _ same => by cases same

theorem validateParams_toJson (params : Params) : validateParams (.dict params.toJson) = .ok params := by
  have entries : ∀ pairs : List (String × ParamValue),
      validateParamEntries (pairs.map fun pair => (pair.1, pair.2.toJson)) = .ok pairs := by
    intro pairs
    induction pairs with
    | nil => rfl
    | cons pair rest ih =>
      rw [List.map_cons, validateParamEntries, ParamValue.validate_toJson, ih]
      rfl
  have read : validateParamEntries params.toJson = .ok params.items := entries params.items
  rw [validateParams, read]
  exact congrArg _ (Dict.ext (Dict.items_foldl_set params.items params.unique))

theorem validateOptionalFloat_dump (x : Option ℚ) : validateOptionalFloat (.ofOption x) = .ok x := by
  cases x with
  | none => rfl
  | some x =>
    rw [Json.ofOption, validateOptionalFloat, validateFloat_float]
    · rfl
    · exact fun same => by cases same

/-- An action is read back as it was. -/
theorem SuggestedAction.validate_modelDump (action : SuggestedAction) :
    SuggestedAction.validate action.modelDump = .ok action := by
  refine map_ok.mpr ⟨(action.id, action.kind, action.effect, action.targetService, action.params,
    action.description, action.risk, action.reversible, action.preview, action.citations,
    action.paramsHash), ?_, rfl⟩
  simp only [both_ok]
  refine ⟨required_ok.mpr ⟨_, rfl, rfl⟩, required_ok.mpr ⟨_, rfl, action.kind.validate_text⟩,
    required_ok.mpr ⟨_, rfl, action.effect.validate_text⟩, required_ok.mpr ⟨_, rfl, rfl⟩,
    defaulted_ok.mpr (.inr ⟨_, rfl, validateParams_toJson action.params⟩),
    defaulted_ok.mpr (.inr ⟨_, rfl, rfl⟩), defaulted_ok.mpr (.inr ⟨_, rfl, action.risk.validate_text⟩),
    defaulted_ok.mpr (.inr ⟨_, rfl, validateBool_bool _⟩), defaulted_ok.mpr (.inr ⟨_, rfl, rfl⟩),
    defaulted_ok.mpr (.inr ⟨_, rfl, validateStrings_texts _⟩), defaulted_ok.mpr (.inr ⟨_, rfl, rfl⟩)⟩

end

/-! ### The fold -/

theorem applyEvent_of_ne (states : States) (actionId : String) {body : EventBody}
    (kind : body.kind ≠ .proposed) :
    applyEvent states ⟨actionId, body⟩ =
      (states.get? actionId).elim states fun st => states.set actionId (transition st body) := by
  cases body with
  | proposed => exact absurd rfl kind
  | _ => cases found : states.get? actionId <;> simp [applyEvent, found]

section
variable [LaxScalars]

theorem foldRecord_of_ne (states : FoldedStates) (ts : ℚ) (actionId : String) {body : EventBody}
    (kind : body.kind ≠ .proposed) :
    foldRecord states (Event.record ts ⟨actionId, body⟩) =
      .ok ((states.get? actionId).elim states fun st =>
        states.set actionId (st.follow (.str body.kind.text) (Event.record ts ⟨actionId, body⟩))) := by
  have owner : (Event.record ts ⟨actionId, body⟩).item "action_id" = .ok (.str actionId) := rfl
  have named : (Event.record ts ⟨actionId, body⟩).item "kind" = .ok (.str body.kind.text) := rfl
  have other : (Json.str body.kind.text).pyEq (.str "proposed") = false := by
    cases body <;> first | exact absurd rfl kind | rfl
  rw [foldRecord, owner, named]
  cases found : states.get? actionId <;>
    simp [other, found, bind, Except.bind, pure, Except.pure]

/-- The record of an event does to the states that are read what the event does. -/
theorem foldRecord_record (states : States) (ts : ℚ) (e : Event) :
    foldRecord (states.mapValues ApprovalState.folded) (e.record ts) =
      .ok ((applyEvent states e).mapValues ApprovalState.folded) := by
  obtain ⟨actionId, body⟩ := e
  by_cases kind : body.kind = .proposed
  · cases body with
    | proposed action expiresAt =>
      have read : foldRecord (states.mapValues ApprovalState.folded)
          (Event.record ts ⟨actionId, .proposed action expiresAt⟩) =
          (do
            let action ← validated (SuggestedAction.validate action.modelDump)
            let expiresAt ← validated (validateOptionalFloat (.ofOption expiresAt))
            pure ((states.mapValues ApprovalState.folded).set actionId { action, expiresAt })) := rfl
      rw [read, SuggestedAction.validate_modelDump, validateOptionalFloat_dump]
      exact congrArg Except.ok (Dict.mapValues_set ApprovalState.folded states actionId
        { action, status := .proposed, expiresAt }).symm
    | _ => cases kind
  · rw [foldRecord_of_ne _ ts actionId kind, applyEvent_of_ne states actionId kind, Dict.get?_mapValues]
    cases states.get? actionId with
    | none => rfl
    | some st =>
      rw [Option.map_some, Option.elim_some, Option.elim_some, follow_record, Dict.mapValues_set]

/-- The fold over the records of events is the fold over the events. -/
theorem foldlM_records (states : States) (entries : List (ℚ × Event)) :
    (entries.map fun entry => entry.2.record entry.1).foldlM foldRecord
        (states.mapValues ApprovalState.folded) =
      .ok (((entries.map Prod.snd).foldl applyEvent states).mapValues ApprovalState.folded) := by
  induction entries generalizing states with
  | nil => rfl
  | cons entry entries ih =>
    rw [List.map_cons, List.foldlM_cons, foldRecord_record]
    exact ih (applyEvent states entry.2)

variable [FloatRepr]

omit [LaxScalars] in
theorem appended_eq (file : JournalFile) (entries : List (ℚ × Event)) (some_ : entries ≠ []) :
    appended file entries =
      some (file.getD [] ++ logText (entries.map fun entry => entry.2.record entry.1)) := by
  induction entries generalizing file with
  | nil => contradiction
  | cons entry entries ih =>
    cases entries with
    | nil => simp [appended, JournalFile.append, logText]
    | cons next entries =>
      refine (ih (file.append (entry.2.record entry.1)) (List.cons_ne_nil _ _)).trans ?_
      simp [JournalFile.append, logText]

variable [FloatReader]

/-- Records that are read fold to the states of their events. -/
theorem fold_of_reads {text : List Char} {entries : List (ℚ × Event)}
    (reads : readRecords text = .ok (entries.map fun entry => entry.2.record entry.1)) :
    JournalFile.fold (some text) =
      .ok ((fold (entries.map Prod.snd)).mapValues ApprovalState.folded) := by
  rw [JournalFile.fold, JournalFile.events, reads]
  exact foldlM_records .empty entries

/-- The journal folds to the states of the events that were appended. Cut short, it folds to
the states of the first of them, each among these that was written whole, or not at all. -/
theorem journal_file_folds (entries : List (ℚ × Event)) (keyed : ∀ entry ∈ entries, entry.2.body.Keyed) :
    (appended none entries).fold =
        .ok ((fold (entries.map Prod.snd)).mapValues ApprovalState.folded) ∧
      ∀ text ∈ appended none entries, ∀ n,
        ¬ Returns (JournalFile.fold (some (text.take n))) ∨
          ∃ k, JournalFile.fold (some (text.take n)) =
              .ok ((fold ((entries.take k).map Prod.snd)).mapValues ApprovalState.folded) ∧
            ∀ j ≤ entries.length, ∀ whole ∈ appended none (entries.take j), whole.length ≤ n → j ≤ k := by
  have records : ∀ v ∈ entries.map fun entry => entry.2.record entry.1, Record v := by
    intro v member
    obtain ⟨entry, inEntries, rfl⟩ := List.mem_map.mp member
    exact record_record entry.1 (keyed entry inEntries)
  by_cases none : entries = []
  · subst none
    exact ⟨rfl, by rintro _ ⟨⟩⟩
  have file : appended .none entries = some (logText (entries.map fun entry => entry.2.record entry.1)) := by
    rw [appended_eq .none entries none]
    rfl
  rw [file]
  refine ⟨fold_of_reads (readRecords_logText records), ?_⟩
  rintro _ ⟨⟩ n
  rcases readRecords_take records n with unread | ⟨k, reads, whole⟩
  · refine .inl ?_
    rintro ⟨states, returned⟩
    obtain ⟨read, reads, -⟩ := bind_ok_iff.mp returned
    exact unread ⟨read, reads⟩
  · rw [← List.map_take] at reads
    refine .inr ⟨k, fold_of_reads reads, fun j within text written fits => ?_⟩
    refine whole j (by simpa using within) ?_
    by_cases first : entries.take j = []
    · rw [first] at written
      cases written
    · rw [appended_eq .none _ first] at written
      obtain rfl := Option.some.inj written
      rw [← List.map_take]
      exact fits

end

/-! ### A journal that is cut -/

@[reducible] def plainScalars : LaxScalars where
  toLaxNumbers := plainNumbers
  parseBool
    | .bool b => .ok b
    | _ => .error "Input should be a valid boolean"
  parse_bool _ := rfl

def ordersRestart : SuggestedAction where
  id := "a1"
  kind := .restart
  effect := .mutate
  targetService := "orders"

/-- An action that is proposed and denied. -/
def deniedOrders : List (ℚ × Event) :=
  [(10, ⟨"a1", .proposed ordersRestart (some 70)⟩), (20, ⟨"a1", .denied "ana" ""⟩)]

attribute [local instance] fractionRepr fractionReader plainScalars in
theorem denied_orders_fold : ∃ states, (appended none deniedOrders).fold = .ok states ∧
    (states.get? "a1").map FoldedState.status = some .denied := by
  have keyed : ∀ entry ∈ deniedOrders, entry.2.body.Keyed := by
    simp [deniedOrders, EventBody.Keyed]
  refine ⟨_, (journal_file_folds deniedOrders keyed).1, ?_⟩
  rw [Dict.get?_mapValues]
  rfl

end Sentinel.Actions
