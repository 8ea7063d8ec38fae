import Sentinel.Agent.Hooks
import Sentinel.Tools.Models

/-! What the report gates read of a final report. A validated report holds the
same values for them as the input it came from, so what they accept of the input
they accept of the report. -/
namespace Sentinel.Agent
open Python Tools

/-- `v.get(key)` of a dict. -/
def field (v : Json) (key : String) : Json := (v.lookup key).getD .null

theorem get_dict (entries : List (String × Json)) (key : String) :
    (Json.dict entries).get key = .ok (field (.dict entries) key) := rfl

/-- The change ids that the report rules out, as the gates read them. -/
def ruledOutField (v : Json) : Json := (field v "ruled_out_change_ids").orEmptyList

theorem isText_iff {v : Json} {text : String} : isText v text = true ↔ v = .str text := by
  unfold isText
  cases v <;> simp [Json.pyEq, Json.number]

theorem strings_orEmptyList (items : List String) : (strings items).orEmptyList = strings items := by
  cases items <;> rfl

/-- What is read of a root cause. -/
structure RootCauseReads (v : Json) (rc : RootCause) : Prop where
  kind : field v "kind" = .str rc.kind
  service : field v "service" = optionalStr rc.service
  caller : field v "caller" = optionalStr rc.caller
  callee : field v "callee" = optionalStr rc.callee
  isDict : ∃ entries, v = .dict entries
  truthy : v.truthy = true

/-- What the gates read of a report. -/
structure ReportReads (v : Json) (report : RootCauseReport) : Prop where
  isDict : ∃ entries, v = .dict entries
  rootCause : RootCauseReads (field v "root_cause") report.rootCause
  culprit : field v "culprit_change_id" = optionalStr report.culpritChangeId
  ruledOut : ruledOutField v = strings report.ruledOutChangeIds

theorem defaulted_optional {key : String} {v : Json} {s : Option String}
    (read : defaulted key validateOptionalStr none v = .ok s) : field v key = optionalStr s := by
  unfold field
  rcases defaulted_ok.mp read with ⟨absent, rfl⟩ | ⟨value, present, valid⟩
  · rw [absent]
    rfl
  · rw [present]
    exact validateOptionalStr_ok.mp valid

theorem validate_rootCause_reads {v : Json} {rc : RootCause}
    (valid : RootCause.validate v = .ok rc) : RootCauseReads v rc := by
  cases v with
  | dict entries =>
    simp only [RootCause.validate, Json.isDict, if_true, Validated.map_ok, Prod.exists,
      Validated.both_ok] at valid
    obtain ⟨_, _, _, _, _, _, ⟨kind, _, service, caller, callee, _⟩, rfl⟩ := valid
    obtain ⟨value, present, text⟩ := required_ok.mp kind
    obtain ⟨rfl, -⟩ := validateText_ok.mp text
    refine ⟨?_, defaulted_optional service, defaulted_optional caller, defaulted_optional callee,
      ⟨entries, rfl⟩, ?_⟩
    · simp only [field, present, Option.getD_some]
    · cases entries with
      | nil => cases present
      | cons => rfl
  | _ => cases valid

theorem validate_reads [LaxInt] {v : Json} {report : RootCauseReport}
    (valid : RootCauseReport.validate v = .ok report) : ReportReads v report := by
  cases v with
  | dict entries =>
    simp only [RootCauseReport.validate, Json.isDict, if_true, Validated.map_ok, Prod.exists,
      Validated.both_ok] at valid
    obtain ⟨_, _, _, _, _, ⟨rootCause, culprit, ruledOut, _⟩, rfl⟩ := valid
    obtain ⟨value, present, rc⟩ := required_ok.mp rootCause
    refine ⟨⟨entries, rfl⟩, ?_, defaulted_optional culprit, ?_⟩
    · simp only [field, present, Option.getD_some]
      exact validate_rootCause_reads rc
    · unfold ruledOutField field
      rcases defaulted_ok.mp ruledOut with ⟨absent, rfl⟩ | ⟨value, listed, items⟩
      · rw [absent]
        rfl
      · rw [listed, validateStrings_ok.mp items]
        exact strings_orEmptyList _
  | _ => cases valid

theorem modelDump_reads (report : RootCauseReport) :
    ReportReads report.modelDump report where
  isDict := ⟨_, rfl⟩
  rootCause := ⟨rfl, rfl, rfl, rfl, ⟨_, rfl⟩, rfl⟩
  culprit := rfl
  ruledOut := strings_orEmptyList _

section
variable [FloatRepr]

/-- The gate's issues depend on what it reads only. -/
theorem ReportReads.reportIssues_eq {v w : Json} {report : RootCauseReport}
    (reads : ReportReads v report) (reads' : ReportReads w report) (store : Option Store) :
    reportIssues v store = reportIssues w store := by
  have one : ∀ {v}, ReportReads v report → reportIssues v store =
      reportIssues report.modelDump store := by
    intro v reads
    obtain ⟨⟨entries, rfl⟩, ⟨kind, service, caller, callee, ⟨rcEntries, rc⟩, truthy⟩, culprit,
      ruledOut⟩ := reads
    have dumped := modelDump_reads report
    rw [rc] at kind service caller callee truthy
    simp only [field] at service caller callee
    simp only [ruledOutField] at ruledOut
    have ruledOut' := dumped.ruledOut
    simp only [ruledOutField] at ruledOut'
    simp only [reportIssues, RootCauseReport.modelDump, get_dict, bind, Except.bind, rc,
      Json.orEmptyDict, truthy, if_true, kind, service, caller, callee, culprit, ruledOut]
    simp only [RootCauseReport.modelDump] at ruledOut'
    rw [ruledOut']
    rfl
  rw [one reads, one reads']

theorem reportGate_none {call : ToolCall} {ctx : RunContext}
    (report : call.name = "report_root_cause")
    (passed : ∃ result, reportGate.preToolUse call ctx = .ok result ∧
      ∀ decision, result = some decision → decision.action ≠ .deny) :
    reportIssues call.input ctx.store = .ok [] := by
  obtain ⟨result, answer, passes⟩ := passed
  simp only [reportGate, report, if_true] at answer
  split at answer
  · cases answer
  · assumption
  · cases answer
    exact absurd rfl (passes _ rfl)

omit [FloatRepr] in
/-- A report that passes the completeness gate names every known change. -/
theorem decoyCompletenessGate_none {call : ToolCall} {ctx : RunContext} {known : List String}
    {report : RootCauseReport} (name : call.name = "report_root_cause")
    (passed : ∃ result, decoyCompletenessGate.preToolUse call ctx = .ok result ∧
      ∀ decision, result = some decision → decision.action ≠ .deny)
    (reads : ReportReads call.input report) (changes : knownChanges ctx.store = .ok known) :
    ∀ id ∈ known, report.culpritChangeId = some id ∨ id ∈ report.ruledOutChangeIds := by
  obtain ⟨result, answer, passes⟩ := passed
  obtain ⟨⟨entries, input⟩, -, culprit, ruledOut⟩ := reads
  have listed : (strings report.ruledOutChangeIds).toSet =
      .ok (report.ruledOutChangeIds.map Json.str) := by
    have plain : (report.ruledOutChangeIds.map Json.str).find? (fun item => !item.hashable) =
        none := by simp [List.find?_eq_none, Json.hashable]
    simp only [strings, Json.toSet, plain]
  have hashable : (optionalStr report.culpritChangeId).hashable = true := by
    cases report.culpritChangeId <;> rfl
  rw [input] at culprit ruledOut
  simp only [ruledOutField] at ruledOut
  simp only [decoyCompletenessGate, name, ne_eq, not_true_eq_false, decide_false, Bool.false_or,
    changes, input, get_dict, bind, Except.bind, culprit, ruledOut, listed, hashable, Bool.not_true,
    Bool.false_eq_true, if_false] at answer
  intro id member
  split at answer
  · -- without a store nothing is known
    rename_i absent
    rw [Option.isNone_iff_eq_none.mp absent] at changes
    cases changes
    cases member
  · simp only [pure, Except.pure] at answer
    split at answer
    · rename_i complete
      have none_missing := List.isEmpty_iff.mp complete
      by_contra missing
      rw [not_or] at missing
      have kept : id ∈ (known.filter fun id => !isText (optionalStr report.culpritChangeId) id &&
          !((report.ruledOutChangeIds.map Json.str).any fun r => isText r id)) := by
        refine List.mem_filter.mpr ⟨member, ?_⟩
        simp only [Bool.and_eq_true, Bool.not_eq_true', List.any_eq_false]
        constructor
        · by_contra named
          rw [Bool.not_eq_false, isText_iff] at named
          cases found : report.culpritChangeId with
          | none => simp [found, optionalStr] at named
          | some c =>
            simp only [found, optionalStr, Json.str.injEq] at named
            exact missing.1 (by rw [found, named])
        · rintro r listedItem
          obtain ⟨s, ruled, rfl⟩ := List.mem_map.mp listedItem
          simp only [isText_iff, Json.str.injEq]
          rintro rfl
          exact missing.2 ruled
      rw [← List.mem_insertionSort (· ≤ ·), none_missing] at kept
      cases kept
    · cases answer
      exact absurd rfl (passes _ rfl)

end

end Sentinel.Agent
