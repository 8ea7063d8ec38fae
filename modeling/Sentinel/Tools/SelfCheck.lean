import Sentinel.Agent.GateTotality
import Sentinel.Tools.Store

/-! The self-check of a draft report, and where it and the report gate differ: only the
gate looks at the kind, and only the gate lets a report without a culprit pass where
there is no change to blame. -/
namespace Sentinel.Tools
open Python Agent

structure ReportCheck where
  ok : Bool
  issues : List String := []

def evidenceIssue : String := "evidence is empty; attach the supporting signals"

/-- `report_self_check`. -/
def reportSelfCheck (params : RootCauseReport) (store : Store) : Py ReportCheck := do
  let rc := params.rootCause
  let serviceIssue :=
    if rc.kind = "service" ∧ given rc.service = none then
      ["root_cause kind=service requires a service"] else []
  let edgeIssue :=
    if rc.kind = "edge" ∧ ¬ (given rc.caller ≠ none ∧ given rc.callee ≠ none) then
      ["root_cause kind=edge requires both caller and callee"] else []
  let known ← knownChanges (some store)
  let culpritIssue :=
    match given params.culpritChangeId with
    | none => ["culprit_change_id is empty"]
    | some culprit =>
      if culprit ∈ known then []
      else ["culprit_change_id " ++ culprit ++ " is not a known change"]
  let bothIssue :=
    match given params.culpritChangeId with
    | none => []
    | some culprit =>
      if culprit ∈ params.ruledOutChangeIds then
        ["culprit_change_id also appears in ruled_out_change_ids"] else []
  let evidence := if params.evidence = [] then [evidenceIssue] else []
  let issues := serviceIssue ++ edgeIssue ++ culpritIssue ++ bothIssue ++ evidence
  pure { ok := issues.isEmpty, issues }

/-- The self-check lists no issue but missing evidence. -/
def SelfCheckPasses (report : RootCauseReport) (store : Store) : Prop :=
  ∃ check, reportSelfCheck report store = .ok check ∧ ∀ issue ∈ check.issues, issue = evidenceIssue

/-- A service fault that names its service, and an edge fault that names both ends. -/
def Placed (rc : RootCause) : Prop :=
  (rc.kind = "service" → given rc.service ≠ none) ∧
    (rc.kind = "edge" → given rc.caller ≠ none ∧ given rc.callee ≠ none)

def KnownKind (rc : RootCause) : Prop := rc.kind = "service" ∨ rc.kind = "edge"

/-- The culprit is one of the changes and is not ruled out as well. -/
def Blames (report : RootCauseReport) (known : List String) : Prop :=
  ∃ culprit, given report.culpritChangeId = some culprit ∧ culprit ∈ known ∧
    culprit ∉ report.ruledOutChangeIds

theorem only_issue_iff {c : Prop} [Decidable c] {issue other : String} (different : issue ≠ other) :
    (∀ i ∈ (if c then [issue] else []), i = other) ↔ ¬ c := by
  split
  · rename_i holds
    simp [different, holds]
  · rename_i fails
    simp [fails]

theorem unknown_ne_evidence (culprit : String) :
    "culprit_change_id " ++ culprit ++ " is not a known change" ≠ evidenceIssue := by
  intro same
  have chars := congrArg String.toList same
  rw [String.toList_append, String.toList_append] at chars
  have first : 'c' = 'e' := List.cons.inj chars |>.1
  exact absurd first (by decide)

theorem given_ne_none {text : Option String} : given text ≠ none ↔ (optionalStr text).truthy = true := by
  cases text with
  | none => simp [given, optionalStr, Json.truthy]
  | some s => simp [given, optionalStr, Json.truthy]

section
variable {report : RootCauseReport} {store : Store} {known : List String}

theorem selfCheckPasses_iff (changes : knownChanges (some store) = .ok known) :
    SelfCheckPasses report store ↔ Placed report.rootCause ∧ Blames report known := by
  have evidence : ∀ issue ∈ (if report.evidence = [] then [evidenceIssue] else []),
      issue = evidenceIssue := by
    intro issue member
    split at member
    · exact List.mem_singleton.mp member
    · cases member
  simp only [SelfCheckPasses, reportSelfCheck, changes, bind, Except.bind, pure, Except.pure,
    Except.ok.injEq, exists_eq_left', List.forall_mem_append]
  rw [only_issue_iff (by decide), only_issue_iff (by decide), Placed, Blames]
  cases given report.culpritChangeId with
  | none => simp [evidenceIssue]
  | some culprit =>
    have unknown : (∀ i ∈ (if culprit ∈ known then [] else
        ["culprit_change_id " ++ culprit ++ " is not a known change"]), i = evidenceIssue) ↔
        culprit ∈ known := by
      rw [← ite_not, only_issue_iff (unknown_ne_evidence culprit), not_not]
    simp only [unknown]
    rw [only_issue_iff (by decide)]
    simp only [Option.some.injEq, exists_eq_left']
    tauto

theorem located_iff {v : Json} {rc : RootCause} (reads : RootCauseReads v rc) :
    located v = true ↔ KnownKind rc ∧ Placed rc := by
  have kinds : ∀ text, isText (field v "kind") text = true ↔ rc.kind = text := by
    intro text
    rw [isText_iff, reads.kind, Json.str.injEq]
  simp only [located, Bool.or_eq_true, Bool.and_eq_true, kinds, reads.service, reads.caller,
    reads.callee, ← given_ne_none, KnownKind, Placed]
  constructor
  · rintro (⟨kind, service⟩ | ⟨⟨kind, caller⟩, callee⟩)
    · exact ⟨.inl kind, fun _ => service, fun edge => absurd (kind.symm.trans edge) (by decide)⟩
    · exact ⟨.inr kind, fun service => absurd (kind.symm.trans service) (by decide),
        fun _ => ⟨caller, callee⟩⟩
  · rintro ⟨kind | kind, service, edge⟩
    · exact .inl ⟨kind, service kind⟩
    · exact .inr ⟨⟨kind, (edge kind).1⟩, (edge kind).2⟩

theorem any_isText_iff {ids : List String} {id : String} :
    ids.any (isText (.str id)) = true ↔ id ∈ ids := by
  simp [isText_iff]

theorem isIn_strings {ids : List String} {id : String} :
    (Json.str id).isIn (strings ids) = .ok false ↔ id ∉ ids := by
  have each : ∀ other, (Json.str id).pyEq (.str other) = (id == other) := fun _ => rfl
  simp only [strings, Json.isIn, List.any_map, Except.ok.injEq, List.any_eq_false,
    Function.comp_apply, each, beq_iff_eq]
  constructor
  · intro distinct member
    exact distinct id member rfl
  · rintro absent other member rfl
    exact absent member

/-- No culprit, where there is no change either. -/
def Spotless (report : RootCauseReport) (known : List String) : Prop :=
  given report.culpritChangeId = none ∧ known = []

variable [FloatRepr]

theorem gatePasses_iff (changes : knownChanges (some store) = .ok known) :
    reportIssues report.modelDump (some store) = .ok [] ↔
      (KnownKind report.rootCause ∧ Placed report.rootCause) ∧
        (Blames report known ∨ Spotless report known) := by
  have reads := modelDump_reads report
  have faultless : reportIssues report.modelDump (some store) = .ok [] ↔
      Faultless report.modelDump known :=
    reportIssues_nil_iff changes rfl
  have culprit : (if (optionalStr report.culpritChangeId).truthy = true then
      known.any (isText (optionalStr report.culpritChangeId)) = true ∧
        (optionalStr report.culpritChangeId).isIn (strings report.ruledOutChangeIds) = .ok false
      else known = []) ↔ Blames report known ∨ Spotless report known := by
    split
    · rename_i truthy
      obtain ⟨id, named⟩ := Option.ne_none_iff_exists'.mp (given_ne_none.mpr truthy)
      have same : report.culpritChangeId = some id := (Option.filter_eq_some_iff.mp named).1
      rw [same, optionalStr, any_isText_iff, isIn_strings]
      simp [Blames, Spotless, named]
    · rename_i falsy
      have missing : given report.culpritChangeId = none := by
        by_contra named
        exact falsy (given_ne_none.mp named)
      simp [Blames, Spotless, missing]
  rw [faultless, ← located_iff reads.rootCause, ← culprit, ← reads.culprit, ← reads.ruledOut]
  constructor
  · rintro ⟨location, blamed⟩
    exact ⟨location, blamed⟩
  · rintro ⟨location, blamed⟩
    exact ⟨location, blamed⟩

/-- The draft that the self-check alone passes, with a kind the gate refuses, and the draft
that the gate alone accepts, for an incident without changes. -/
def Drift (report : RootCauseReport) (known : List String) : Prop :=
  (¬ KnownKind report.rootCause ∧ Blames report known) ∨
    (KnownKind report.rootCause ∧ Placed report.rootCause ∧ Spotless report known)

omit [FloatRepr] in
theorem placed_of_unknownKind {rc : RootCause} (unknown : ¬ KnownKind rc) : Placed rc :=
  ⟨fun service => absurd (.inl service) unknown, fun edge => absurd (.inr edge) unknown⟩

/-- The self-check and the gate agree on all drafts but these. -/
theorem self_check_agrees_iff (report : RootCauseReport) (store : Store) :
    (SelfCheckPasses report store ↔ reportIssues report.modelDump (some store) = .ok []) ↔
      ∀ known, knownChanges (some store) = .ok known → ¬ Drift report known := by
  cases changes : knownChanges (some store) with
  | error e =>
    have unchecked : ¬ SelfCheckPasses report store := by
      rintro ⟨check, returned, -⟩
      simp [reportSelfCheck, changes, bind, Except.bind] at returned
    have denied : reportIssues report.modelDump (some store) ≠ .ok [] := by
      intro returned
      simp only [reportIssues, RootCauseReport.modelDump, get_dict, changes, bind, Except.bind] at returned
      split at returned <;> cases returned
    simp [unchecked, denied]
  | ok known =>
    rw [selfCheckPasses_iff changes, gatePasses_iff changes]
    have exclusive : Blames report known → ¬ Spotless report known := by
      rintro ⟨culprit, named, -⟩ ⟨missing, -⟩
      exact Option.some_ne_none _ (named.symm.trans missing)
    simp only [Except.ok.injEq, forall_eq', Drift]
    by_cases kind : KnownKind report.rootCause
    · by_cases blames : Blames report known
      · simp [kind, blames, exclusive blames]
      · simp [kind, blames]
    · simp [kind, placed_of_unknownKind kind]

end

section Sample

attribute [local instance] fractionRepr

/-- A fault of payment that no change explains. -/
def unexplained : RootCauseReport where
  rootCause := { kind := "service", type := "crash", service := some "payment" }
  evidence := ["payment server spans error"]

/-- Without changes the gate accepts the report and the self-check calls it faulty. -/
theorem accepted_report_faulted : ¬ ∀ (report : RootCauseReport) (store : Store),
    SelfCheckPasses report store ↔ reportIssues report.modelDump (some store) = .ok [] := by
  intro agree
  have changes : knownChanges (some ⟨.ok []⟩) = .ok [] := rfl
  have accepted : reportIssues unexplained.modelDump (some ⟨.ok []⟩) = .ok [] := by
    rw [gatePasses_iff changes]
    exact ⟨⟨.inl rfl, by simp [unexplained, given], by simp [unexplained]⟩, .inr ⟨rfl, rfl⟩⟩
  obtain ⟨-, culprit, named, -⟩ := (selfCheckPasses_iff changes).mp ((agree _ _).mpr accepted)
  exact Option.some_ne_none _ named.symm

end Sample

end Sentinel.Tools
