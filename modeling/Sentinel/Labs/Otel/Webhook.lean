import Mathlib.Algebra.Order.BigOperators.Group.List
import Sentinel.Labs.Otel.AlertGates
import Sentinel.Python.Iteration

/-! Alerts that come live. The rules are compiled for Prometheus, and what Alertmanager sends
of them is mapped to the alerts that the evaluator gives offline. What Prometheus makes of a
rule's labels is a parameter, and so is how the standard library reads a time. -/
namespace Sentinel.Labs.Otel
open Python Fixtures Tools

/-! ### Compiled rules -/

def Severity.text : Severity → String
  | .warning => "warning"
  | .critical => "critical"

def Comparison.text : Comparison → String
  | .greater => ">"
  | .greaterEqual => ">="
  | .less => "<"
  | .lessEqual => "<="

/-- `str(x)` of a float. -/
def floatText [FloatRepr] : FloatValue → String
  | .finite x => String.ofList (FloatRepr.repr x)
  | .infinite negative => if negative then "-inf" else "inf"
  | .nan => "nan"

structure PrometheusRule where
  alert : String
  expr : String
  holdsFor : String
  labels : List (String × String)
  annotations : List (String × String)

/-- `_prometheus_annotations`. -/
def prometheusAnnotations (templates : List (String × String)) : List (String × String) :=
  templates.map fun (key, text) =>
    (key, String.ofList (replaceAll "\x7b\x7bstarts_at\x7d\x7d".toList "onset".toList
      (replaceAll "\x7b\x7bvalue\x7d\x7d".toList "\x7b\x7b $value \x7d\x7d".toList text.toList)))

/-- One rule of `compile_prometheus_rules`. -/
def compileRule [FloatRepr] (rule : AlertRule) : PrometheusRule where
  alert := rule.alertname
  expr := s!"({rule.expr}) {Comparison.text rule.comparison} {floatText rule.threshold}"
  holdsFor := s!"{rule.forSeconds}s"
  labels := assign "severity" (Severity.text rule.severity) rule.labels.items
  annotations := prometheusAnnotations rule.annotationTemplates.items

/-! ### The payload -/

/-- `datetime.fromisoformat(text)`, in microseconds. -/
class IsoTime where
  read : List Char → Py ℤ

/-- The fraction of a second and the offset after it. -/
def splitOffset (frac : List Char) : List Char × List Char :=
  match ['+', '-'].find? (· ∈ frac) with
  | some marker => (frac.takeWhile (· ≠ marker), frac.dropWhile (· ≠ marker))
  | none => (frac, [])

/-- The text that `_parse_rfc3339` has read: microseconds and a numeric offset. -/
def isoText (text : List Char) : List Char :=
  let t := strip text
  let t := if t.getLast? = some 'Z' then t.dropLast ++ "+00:00".toList else t
  if '.' ∈ t then
    let (frac, offset) := splitOffset ((t.dropWhile (· ≠ '.')).drop 1)
    t.takeWhile (· ≠ '.') ++ '.' :: ((frac.take 6).rightpad 6 '0' ++ offset)
  else t

def parseRfc3339 [IsoTime] (text : Json) : Py ℤ :=
  match text with
  | .str text => IsoTime.read (isoText text.toList)
  | v => .error ⟨"AttributeError", s!"'{v.typeName}' object has no attribute 'strip'", false⟩

/-- `_coerce_float`. -/
def coerceFloat [FloatText] (value : Json) : Py FloatValue :=
  match value.asFloat with
  | .error e => if e.type = "TypeError" ∨ e.type = "ValueError" then .ok (.finite 0) else .error e
  | read => read

def invalidAlert (message : String) : Exn := ⟨"ValidationError", message, false⟩

/-- A value of a field declared as `dict[str, str]`. -/
def textEntries (entries : List (String × Json)) : Py (List (String × String)) :=
  entries.mapM fun entry =>
    match entry.2 with
    | .str text => .ok (entry.1, text)
    | _ => .error (invalidAlert "Input should be a valid string")

def severityOf : Json → Py Severity
  | .str "warning" => .ok .warning
  | .str "critical" => .ok .critical
  | _ => .error (invalidAlert "Input should be 'warning' or 'critical'")

def symptomKeys : List String := ["tier", "signal"]

/-- `max(0, round((start - earliest).total_seconds()))`. -/
def secondsAfter (earliest start : ℤ) : ℤ := max 0 (roundEven (rnd ((start - earliest : ℤ) / 10 ^ 6)))

/-- A `DerivedAlert` of a payload. Its value may be any float. -/
structure LiveAlert where
  alertname : String
  severity : Severity
  startsAtSecond : ℤ
  labels : List (String × String)
  annotations : List (String × String)
  value : FloatValue
  expr : String
  fingerprint : String
  named : alertname ≠ "" ∧ expr ≠ "" ∧ fingerprint ≠ ""
  nonneg : 0 ≤ startsAtSecond

section
variable [StrRepr] [Sha256] [FloatText] [IsoTime] (rules : List AlertRule)

/-- `expr_by_name.get(alertname, …)`: the last rule of a name counts. -/
def exprFor (alertname : String) : String :=
  ((rules.reverse.find? fun rule => rule.alertname = alertname).map AlertRule.expr).getD
    s!"live:{alertname}"

/-- The alert that the fields make, if they are valid. -/
def builtAlert (alertname : String) (severity : Severity) (startsAtSecond : ℤ)
    (labels annotations : List (String × String)) (value : FloatValue) (expr : String) : Py LiveAlert :=
  if named : alertname ≠ "" ∧ expr ≠ "" ∧ 0 ≤ startsAtSecond then
    .ok {
      alertname, severity, startsAtSecond, labels, annotations, value, expr
      fingerprint := fingerprint alertname labels
      named := ⟨named.1, named.2.1, digest_ne_empty _⟩
      nonneg := named.2.2 }
  else .error (invalidAlert "String should have at least 1 character")

/-- One firing alert of the payload. -/
def mapAlert (earliest : ℤ) (raw : Json) (start : ℤ) : Py LiveAlert := do
  let labelsIn ← (← raw.getElse "labels" (.dict [])).pairs
  let annotations ← (← raw.getElse "annotations" (.dict [])).pairs
  let value ← coerceFloat ((annotations.lookup "value").getD .null)
  match (labelsIn.lookup "alertname").getD (.str "") with
  | .str alertname =>
    let severity ← severityOf ((labelsIn.lookup "severity").getD (.str ""))
    let symptomLabels ← textEntries (labelsIn.filter fun label => label.1 ∈ symptomKeys)
    let annotations ← textEntries annotations
    let alert ← builtAlert alertname severity (secondsAfter earliest start) symptomLabels
      annotations value (exprFor rules alertname)
    assertSymptomLevel alert.alertname alert.labels
    pure alert
  | name => throw (if name.hashable then
      ⟨"TypeError", s!"unsupported operand type(s) for +: '{name.typeName}' and 'str'", false⟩
    else name.unhashable)

/-- The alerts of a payload that are not resolved. -/
def firingOf (payload : Json) : Py (List Json) := do
  let alerts ← (← payload.getElse "alerts" (.list [])).elements
  let firing ← alerts.mapM fun a => do
    pure (a, (← a.getElse "status" (.str "firing")).pyEq (.str "firing"))
  pure ((firing.filter Prod.snd).map Prod.fst)

def alertmanagerPayloadToAlerts (payload : Json) : Py (List LiveAlert) := do
  let firing ← firingOf payload
  let starts ← firing.mapM fun a => do parseRfc3339 (← a.item "startsAt")
  match starts.min? with
  | none => pure []
  | some earliest => (firing.zip starts).mapM fun (raw, start) => mapAlert rules earliest raw start

end

/-! ### The text of a fingerprint -/

theorem length_intercalate (parts : List String) : (String.intercalate "," parts).length =
    (parts.map String.length).sum + (parts.length - 1) := by
  induction parts with
  | nil => rfl
  | cons part rest ih =>
    cases rest with
    | nil => simp
    | cons next rest =>
      rw [String.intercalate_cons_cons, String.length_append, String.length_append, ih]
      simp only [List.map_cons, List.sum_cons, List.length_cons]
      have comma : ",".length = 1 := rfl
      omega

/-- The length that the labels take in a fingerprint's text. -/
def labelLength (label : String × String) : ℕ := label.1.length + 1 + label.2.length

theorem length_canonical (name : String) {labels : List (String × String)}
    (unique : (labels.map Prod.fst).Nodup) : (canonical name labels).length =
      name.length + 1 + ((labels.map labelLength).sum + (labels.length - 1)) := by
  have perm := (sortedBy_perm id (labels.map Prod.fst)).map
    fun k => (k ++ "=" ++ (labels.lookup k).getD "").length
  have lengths : (labels.map Prod.fst).map (fun k => (k ++ "=" ++ (labels.lookup k).getD "").length) =
      labels.map labelLength := by
    rw [List.map_map]
    refine List.map_congr_left fun label member => ?_
    have found : labels.lookup label.1 = some label.2 := lookup_of_mem unique member
    simp only [Function.comp_apply, found, Option.getD_some, String.length_append, labelLength]
    rfl
  rw [lengths] at perm
  rw [canonical, String.length_append, String.length_append, length_intercalate, List.map_map,
    List.length_map, (sortedBy_perm id (labels.map Prod.fst)).length_eq, List.length_map]
  have sums := perm.sum_eq
  simp only [Function.comp_def] at sums ⊢
  rw [sums]
  rfl

/-- Dropping labels changes the text unless there are none to drop. -/
theorem canonical_filter_iff (name : String) {labels : List (String × String)}
    (unique : (labels.map Prod.fst).Nodup) (keep : String → Bool) :
    canonical name (labels.filter fun label => keep label.1) = canonical name labels ↔
      ∀ label ∈ labels, keep label.1 = true := by
  constructor
  · intro same label member
    by_contra dropped
    have lengths := congrArg String.length same
    have sub : (labels.filter fun label => keep label.1).Sublist labels := List.filter_sublist
    have split := (List.filter_append_perm (fun label => keep label.1) labels).map labelLength
    have inRest : label ∈ labels.filter fun label => !keep label.1 :=
      List.mem_filter.mpr ⟨member, by simpa using dropped⟩
    have part := List.le_sum_of_mem (List.mem_map_of_mem (f := labelLength) inRest)
    have total := split.sum_eq
    rw [List.map_append, List.sum_append] at total
    rw [length_canonical name (unique.sublist (sub.map Prod.fst)), length_canonical name unique] at lengths
    have shorter := sub.length_le
    have positive : 0 < labelLength label := by
      rw [labelLength]
      omega
    omega
  · intro kept
    rw [List.filter_eq_self.mpr kept]

/-! ### Live and offline -/

/-- No template, and a label that is set. -/
def PlainText (text : String) : Prop := text ≠ "" ∧ ¬ "\x7b\x7b".toList <:+: text.toList

/-- The labels that Prometheus sends of a firing alert: those of its rule, those that the
series and the server bring, and the alert's name. A label without a text is dropped, and the
templates in the rule's labels are expanded. -/
class Prometheus where
  sentLabels : PrometheusRule → List (String × String) → List (String × String)
  distinct : ∀ rule brought, ((sentLabels rule brought).map Prod.fst).Nodup
  alertname : ∀ rule brought, (sentLabels rule brought).lookup "alertname" = some rule.alert
  own : ∀ rule brought k v, k ≠ "alertname" → rule.labels.lookup k = some v → PlainText v →
    (sentLabels rule brought).lookup k = some v
  others : ∀ rule brought k, k ≠ "alertname" → rule.labels.lookup k = none → brought.lookup k = none →
    (sentLabels rule brought).lookup k = none

def textDict (texts : List (String × String)) : Json := .dict (texts.map fun text => (text.1, .str text.2))

/-- An alert of a payload that Prometheus fired for a rule. Neither the series nor the server
brings labels under the symptom keys. -/
structure FiredFor [FloatRepr] [Prometheus] [IsoTime] (rule : AlertRule) (raw : Json) : Prop where
  labels : ∃ brought, raw.lookup "labels" = some (textDict (Prometheus.sentLabels (compileRule rule) brought)) ∧
    ∀ k ∈ symptomKeys, brought.lookup k = none
  annotations : ∃ texts, raw.lookup "annotations" = some (textDict texts)
  started : ∃ text start, raw.lookup "startsAt" = some (.str text) ∧
    IsoTime.read (isoText text.toList) = .ok start

/-- The labels that the mapping keeps. -/
def AlertRule.symptomLabels (rule : AlertRule) : List (String × String) :=
  rule.labels.items.filter fun label => label.1 ∈ symptomKeys

theorem textEntries_texts (texts : List (String × String)) :
    textEntries (texts.map fun text => (text.1, .str text.2)) = .ok texts :=
  mapM_ok_iff.mpr (List.forall₂_map_left_iff.mpr (List.forall₂_same.mpr fun _ _ => rfl))

theorem lookup_map_str (texts : List (String × String)) (k : String) :
    (texts.map fun text => (text.1, Json.str text.2)).lookup k = (texts.lookup k).map Json.str := by
  induction texts with
  | nil => rfl
  | cons text rest ih =>
    rw [List.map_cons, List.lookup_cons, List.lookup_cons, ih]
    cases k == text.1 <;> rfl

theorem lookup_filter {α : Type} (keep : String → Bool) (entries : List (String × α)) (k : String) :
    (entries.filter fun entry => keep entry.1).lookup k = if keep k then entries.lookup k else none := by
  induction entries with
  | nil => simp
  | cons entry rest ih =>
    obtain ⟨j, v⟩ := entry
    by_cases same : k = j
    · subst same
      by_cases kept : keep k = true
      · simp [kept]
      · simp [kept, ih]
    · by_cases kept : keep j = true
      · simp [kept, List.lookup_cons, beq_false_of_ne same, ih]
      · simp [kept, List.lookup_cons, beq_false_of_ne same, ih]

theorem getElse_of_lookup {v w default : Json} {key : String} (held : v.lookup key = some w) :
    v.getElse key default = .ok w := by
  cases v with
  | dict fields =>
    change fields.lookup key = _ at held
    rw [Json.getElse, held]
    rfl
  | _ => cases held

theorem severityOf_text (severity : Severity) : severityOf (.str (Severity.text severity)) = .ok severity := by
  cases severity <;> rfl

theorem plain_severity (severity : Severity) : PlainText (Severity.text severity) := by
  cases severity <;> exact ⟨by decide, by decide⟩

/-- A name and labels under the symptom keys are allowed by what the labels are, in any order. -/
theorem assertSymptomLevel_congr [StrRepr] {name : String} {labels labels' : List (String × String)}
    (symptoms : ∀ label ∈ labels, label.1 ∈ symptomKeys) (symptoms' : ∀ label ∈ labels', label.1 ∈ symptomKeys)
    (same : ∀ k, labels.lookup k = labels'.lookup k) :
    assertSymptomLevel name labels = assertSymptomLevel name labels' := by
  have allowed : ∀ k ∈ symptomKeys, k ∈ allowedLabelKeys := by decide
  have none : (labels.find? fun label => label.1 ∉ allowedLabelKeys) = none :=
    List.find?_eq_none.mpr fun label member => by simpa using allowed _ (symptoms label member)
  have none' : (labels'.find? fun label => label.1 ∉ allowedLabelKeys) = .none :=
    List.find?_eq_none.mpr fun label member => by simpa using allowed _ (symptoms' label member)
  rw [assertSymptomLevel, assertSymptomLevel, none, none']
  simp only [same]

theorem coerceFloat_text [FloatText] (texts : List (String × String)) :
    Returns (coerceFloat (((texts.map fun text => (text.1, Json.str text.2)).lookup "value").getD .null)) := by
  rw [lookup_map_str]
  cases texts.lookup "value" with
  | none => exact ⟨_, rfl⟩
  | some text =>
    rw [Option.map_some, Option.getD_some, coerceFloat, Json.asFloat]
    cases FloatText.parse text with
    | none => exact ⟨_, rfl⟩
    | some v => exact ⟨v, rfl⟩

/-- Mapping calls that check something of their own first. -/
theorem mapM_checked {α β γ : Type} {R : β → γ → Prop} {f : α → Py γ} {g : β → Py Unit} {as : List α}
    {bs : List β} (each : List.Forall₂ (fun a b => ∃ c, R b c ∧ f a = (g b).map fun _ => c) as bs) :
    (∃ cs, as.mapM f = .ok cs ∧ List.Forall₂ R bs cs ∧ ∀ b ∈ bs, Returns (g b)) ∨
      ∃ b ∈ bs, ∃ e, g b = .error e ∧ as.mapM f = .error e := by
  induction each with
  | nil => exact .inl ⟨[], rfl, .nil, by simp⟩
  | @cons a b as bs first _ ih =>
    obtain ⟨c, related, called⟩ := first
    rw [List.mapM_cons, called]
    cases checked : g b with
    | error e => exact .inr ⟨b, List.mem_cons_self, e, checked, rfl⟩
    | ok _ =>
      rcases ih with ⟨cs, mapped, later, all⟩ | ⟨b', member, e, raised, mapped⟩
      · refine .inl ⟨c :: cs, by rw [mapped]; rfl, .cons related later, ?_⟩
        exact List.forall_mem_cons.mpr ⟨⟨_, checked⟩, all⟩
      · exact .inr ⟨b', List.mem_cons_of_mem b member, e, raised, by rw [mapped]; rfl⟩

theorem exists_left_of_forall₂ {α β : Type} {R : α → β → Prop} {as : List α} {bs : List β}
    (related : List.Forall₂ R as bs) : ∀ b ∈ bs, ∃ a ∈ as, R a b := by
  induction related with
  | nil => simp
  | @cons a b as bs first _ ih =>
    rw [List.forall_mem_cons]
    refine ⟨⟨a, List.mem_cons_self, first⟩, fun b' member => ?_⟩
    obtain ⟨a', inside, later⟩ := ih b' member
    exact ⟨a', List.mem_cons_of_mem a inside, later⟩

theorem forall₂_zip {α β γ : Type} {R : α → β → γ → Prop} {as : List α} {bs : List β} {cs : List γ}
    (related : List.Forall₂ (fun a c => ∀ b, R a b c) as cs) (same : as.length = bs.length) :
    List.Forall₂ (fun pair c => R pair.1 pair.2 c) (as.zip bs) cs := by
  induction related generalizing bs with
  | nil => exact .nil
  | cons first _ ih =>
    cases bs with
    | nil => simp at same
    | cons b bs => exact .cons (first b) (ih (by simpa using same))

theorem exprFor_ne_empty (rules : List AlertRule) (alertname : String) : exprFor rules alertname ≠ "" := by
  rw [exprFor]
  cases rules.reverse.find? fun rule => rule.alertname = alertname with
  | some rule => exact rule.named.2
  | none =>
    intro empty
    have chars := congrArg String.toList empty
    simp [toString] at chars

theorem started_of_fired [FloatRepr] [Prometheus] [IsoTime] {rule : AlertRule} {raw : Json} (fired : FiredFor rule raw) :
    Returns (raw.item "startsAt" >>= parseRfc3339) := by
  obtain ⟨text, start, held, read⟩ := fired.started
  have item : raw.item "startsAt" = .ok (.str text) := by
    cases raw with
    | dict fields =>
      change fields.lookup "startsAt" = _ at held
      rw [Json.item, held]
    | _ => cases held
  exact ⟨start, by rw [item]; exact read⟩

section
variable [FloatRepr] [Prometheus] {rule : AlertRule}

/-- What is kept of the labels that are sent is what the rule has under the symptom keys. -/
theorem symptoms_of_fired {brought : List (String × String)} (bare : ∀ k ∈ symptomKeys, brought.lookup k = none)
    (plain : ∀ label ∈ rule.labels.items, PlainText label.2) (k : String) :
    ((Prometheus.sentLabels (compileRule rule) brought).filter fun label => label.1 ∈ symptomKeys).lookup k =
      rule.symptomLabels.lookup k := by
  rw [AlertRule.symptomLabels, lookup_filter (fun j => decide (j ∈ symptomKeys)),
    lookup_filter (fun j => decide (j ∈ symptomKeys))]
  by_cases symptom : k ∈ symptomKeys
  · have apart : k ≠ "alertname" ∧ k ≠ "severity" := by
      have each : ∀ k ∈ symptomKeys, k ≠ "alertname" ∧ k ≠ "severity" := by decide
      exact each k symptom
    have compiled : (compileRule rule).labels.lookup k = rule.labels.items.lookup k := by
      rw [compileRule, lookup_assign, if_neg apart.2]
    simp only [symptom, decide_true, if_true]
    cases held : rule.labels.items.lookup k with
    | none => exact Prometheus.others _ brought k apart.1 (compiled.trans held) (bare k symptom)
    | some v =>
      exact Prometheus.own _ brought k v apart.1 (compiled.trans held) (plain _ (mem_keys_of_lookup held))
  · simp [symptom]

end

section
variable [StrRepr] [Sha256] [FloatText] (rules : List AlertRule)

/-- What is mapped of an alert whose labels and annotations are texts. -/
theorem mapAlert_texts (earliest start : ℤ) {raw : Json} {sent texts : List (String × String)}
    {alertname : String} {severity : Severity} (held : raw.lookup "labels" = some (textDict sent))
    (noted : raw.lookup "annotations" = some (textDict texts))
    (name : sent.lookup "alertname" = some alertname)
    (severe : sent.lookup "severity" = some (Severity.text severity)) (named : alertname ≠ "") :
    ∃ alert : LiveAlert, (alert.alertname = alertname ∧
        alert.fingerprint = fingerprint alertname (sent.filter fun label => label.1 ∈ symptomKeys)) ∧
      mapAlert rules earliest raw start =
        (assertSymptomLevel alertname (sent.filter fun label => label.1 ∈ symptomKeys)).map fun _ => alert := by
  obtain ⟨value, coerced⟩ := coerceFloat_text texts
  have read : textEntries ((sent.map fun label => (label.1, Json.str label.2)).filter
      fun label => label.1 ∈ symptomKeys) = .ok (sent.filter fun label => label.1 ∈ symptomKeys) := by
    rw [List.filter_map]
    exact textEntries_texts _
  obtain ⟨alert, built, isName, isLabels, print⟩ : ∃ alert, builtAlert alertname severity
      (secondsAfter earliest start) (sent.filter fun label => label.1 ∈ symptomKeys) texts value
        (exprFor rules alertname) = .ok alert ∧ alert.alertname = alertname ∧
      alert.labels = (sent.filter fun label => label.1 ∈ symptomKeys) ∧
      alert.fingerprint = fingerprint alertname (sent.filter fun label => label.1 ∈ symptomKeys) :=
    ⟨_, dif_pos ⟨named, exprFor_ne_empty rules alertname, le_max_left _ _⟩, rfl, rfl, rfl⟩
  refine ⟨alert, ⟨isName, print⟩, ?_⟩
  rw [mapAlert, getElse_of_lookup held, getElse_of_lookup noted]
  simp only [textDict, Json.pairs, bind, Except.bind, coerced]
  rw [lookup_map_str, lookup_map_str, name, severe]
  simp only [Option.map_some, Option.getD_some, severityOf_text, read, textEntries_texts, built, isName,
    isLabels]
  cases assertSymptomLevel alertname (sent.filter fun label => label.1 ∈ symptomKeys) <;> rfl

variable [FloatRepr] [Prometheus] [IsoTime]

/-- An alert that was fired for a rule is mapped unless its name or labels are not allowed. -/
theorem mapAlert_fired {rule : AlertRule} {raw : Json} (fired : FiredFor rule raw)
    (plain : ∀ label ∈ rule.labels.items, PlainText label.2) (earliest start : ℤ) :
    ∃ alert : LiveAlert, (alert.alertname = rule.alertname ∧
        alert.fingerprint = fingerprint rule.alertname rule.symptomLabels) ∧
      mapAlert rules earliest raw start =
        (assertSymptomLevel rule.alertname rule.symptomLabels).map fun _ => alert := by
  obtain ⟨brought, held, bare⟩ := fired.labels
  obtain ⟨texts, noted⟩ := fired.annotations
  have severe : (Prometheus.sentLabels (compileRule rule) brought).lookup "severity" =
      some (Severity.text rule.severity) :=
    Prometheus.own _ brought _ _ (by decide) (by rw [compileRule, lookup_assign, if_pos rfl])
      (plain_severity rule.severity)
  have same := symptoms_of_fired bare plain
  obtain ⟨alert, ⟨isName, print⟩, mapped⟩ := mapAlert_texts rules earliest start held
    noted (Prometheus.alertname _ brought) severe rule.named.1
  refine ⟨alert, ⟨isName, print.trans ?_⟩, mapped.trans ?_⟩
  · exact congrArg digest (canonical_congr ((Prometheus.distinct _ brought).sublist (List.filter_sublist.map _))
      (rule.labels.unique.sublist (List.filter_sublist.map _)) ⟨rfl, same⟩)
  · exact congrArg _ (assertSymptomLevel_congr
      (fun label member => by simpa using (List.mem_filter.mp member).2)
      (fun label member => by simpa using (List.mem_filter.mp member).2) same)

/-- A payload of alerts that were fired for rules is mapped exactly where all their names and
labels are allowed, one alert for each. It has the fingerprint that its rule has offline
exactly where the rule has no other labels than the symptom keys. -/
theorem webhook_fingerprints {payload : Json} {firing : List Json} {fired : List AlertRule}
    (sent : firingOf payload = .ok firing)
    (each : List.Forall₂ (fun rule raw => FiredFor rule raw) fired firing)
    (plain : ∀ rule ∈ fired, ∀ label ∈ rule.labels.items, PlainText label.2)
    (collisionFree : ∀ rule ∈ fired, ({canonical rule.alertname rule.symptomLabels,
      canonical rule.alertname rule.labels.items} : Set String).InjOn digest) :
    (∃ alerts, alertmanagerPayloadToAlerts rules payload = .ok alerts ∧
        List.Forall₂ (fun rule alert => alert.alertname = rule.alertname ∧
          (alert.fingerprint = fingerprint rule.alertname rule.labels.items ↔
            ∀ label ∈ rule.labels.items, label.1 ∈ symptomKeys)) fired alerts ∧
        ∀ rule ∈ fired, Returns (assertSymptomLevel rule.alertname rule.symptomLabels)) ∨
      ∃ rule ∈ fired, ∃ e, assertSymptomLevel rule.alertname rule.symptomLabels = .error e ∧
        alertmanagerPayloadToAlerts rules payload = .error e := by
  obtain ⟨starts, read⟩ : Returns (firing.mapM fun a => do parseRfc3339 (← a.item "startsAt")) := by
    refine mapM_returns_iff.mpr fun raw member => ?_
    obtain ⟨rule, -, isFired⟩ := exists_left_of_forall₂ each raw member
    exact started_of_fired isFired
  have lengths : firing.length = starts.length := (mapM_ok_iff.mp read).length_eq
  have mapping : alertmanagerPayloadToAlerts rules payload =
      match starts.min? with
      | none => pure []
      | some earliest => (firing.zip starts).mapM fun (raw, start) => mapAlert rules earliest raw start := by
    rw [alertmanagerPayloadToAlerts, sent]
    simp only [bind, Except.bind] at read ⊢
    rw [read]
  rw [mapping]
  cases least : starts.min? with
  | none =>
    rw [List.min?_eq_none_iff] at least
    rw [least, List.length_nil, List.length_eq_zero_iff] at lengths
    subst lengths
    cases each
    exact .inl ⟨[], rfl, .nil, by simp⟩
  | some earliest =>
    have checked := (List.forall₂_and_left fired firing).mpr
      ⟨fun rule member => And.intro (plain rule member) (collisionFree rule member), each⟩
    have related : List.Forall₂ (fun raw rule => ∀ start, ∃ alert : LiveAlert,
        (alert.alertname = rule.alertname ∧
          (alert.fingerprint = fingerprint rule.alertname rule.labels.items ↔
            ∀ label ∈ rule.labels.items, label.1 ∈ symptomKeys)) ∧
        mapAlert rules earliest raw start =
          (assertSymptomLevel rule.alertname rule.symptomLabels).map fun _ => alert) firing fired := by
      refine List.Forall₂.flip (checked.imp ?_)
      rintro rule raw ⟨⟨plain, collisionFree⟩, isFired⟩ start
      obtain ⟨alert, ⟨isName, print⟩, mapped⟩ := mapAlert_fired rules isFired plain earliest start
      refine ⟨alert, ⟨isName, ?_⟩, mapped⟩
      have texts := canonical_filter_iff rule.alertname rule.labels.unique fun key => decide (key ∈ symptomKeys)
      simp only [decide_eq_true_eq] at texts
      rw [← texts, print, fingerprint, fingerprint]
      exact ⟨fun same => collisionFree (Set.mem_insert _ _) (Set.mem_insert_of_mem _ rfl) same,
        fun same => congrArg digest same⟩
    exact mapM_checked ((forall₂_zip related lengths).imp fun _ _ made => made)

end

section Sample
attribute [local instance] sampleFloats fractionRepr fractionReader quoted

/-- `fromisoformat` on one text. -/
@[reducible] def newYear : IsoTime where
  read text := if text = "2026-01-01T00:00:00+00:00".toList then .ok 0
    else .error ⟨"ValueError", "Invalid isoformat string", false⟩

theorem get?_foldr_set (labels : List (String × String)) (k : String) :
    (labels.foldr (fun label d => d.set label.1 label.2) (Dict.empty : Dict String String)).get? k =
      labels.lookup k := by
  induction labels with
  | nil => rfl
  | cons label rest ih =>
    obtain ⟨j, v⟩ := label
    rw [List.foldr_cons, Dict.get?_set, ih, List.lookup_cons]
    by_cases same : k = j
    · simp [same]
    · simp [same, beq_false_of_ne same]

/-- A server that sets a rule's labels as they are. -/
@[reducible] def plainPrometheus : Prometheus where
  sentLabels rule brought := (((rule.labels ++ brought).foldr (fun label d => d.set label.1 label.2)
    Dict.empty).set "alertname" rule.alert).items
  distinct _ _ := Dict.unique _
  alertname rule brought := (Dict.get?_set _ _ _ _).trans (if_pos rfl)
  own rule brought k v other held _ := by
    refine (Dict.get?_set _ _ _ _).trans ((if_neg other).trans ?_)
    rw [get?_foldr_set, List.lookup_append, held]
    rfl
  others rule brought k other unset bare := by
    refine (Dict.get?_set _ _ _ _).trans ((if_neg other).trans ?_)
    rw [get?_foldr_set, List.lookup_append, unset, bare]
    rfl

/-- SHA-256 on the two texts that are hashed for the rules. -/
@[reducible] def teamDigest : Sha256 where
  hexdigest data :=
    if data = encodeUtf8 "CheckoutFailureRate|signal=degradation,tier=user_facing".toList then
      "3cc8fac1930b9c6bd3f5787eff25e3c3eecf1d3fb94e0ee960922c4ec90a394f".toList
    else "546bafba3a263c6fd823f01844f5faf2736be29ff82ac2ac55c62c92133265c7".toList
  hexdigest_length data := by split_ifs <;> decide

attribute [local instance] newYear plainPrometheus teamDigest

def teamLabels : Dict String String :=
  ⟨[("tier", "user_facing"), ("signal", "degradation"), ("team", "web")], by decide⟩

def sentAlert (rule : AlertRule) : Json :=
  .dict [("status", .str "firing"), ("startsAt", .str "2026-01-01T00:00:00Z"),
    ("labels", textDict (Prometheus.sentLabels (compileRule rule) [("instance", "demo")])),
    ("annotations", textDict [("value", "1")])]

theorem sentAlert_fired (rule : AlertRule) : FiredFor rule (sentAlert rule) :=
  ⟨⟨_, rfl, by decide⟩, ⟨_, rfl⟩, ⟨_, 0, rfl, rfl⟩⟩

def checkoutPayload : Json :=
  .dict [("alerts", .list [sentAlert (checkoutRule edgeLabels), sentAlert (checkoutRule teamLabels)])]

/-- The alert of a rule with a label for its team has another fingerprint than offline. -/
theorem checkout_fingerprint : ∃ edge team,
    alertmanagerPayloadToAlerts [checkoutRule edgeLabels] checkoutPayload = .ok [edge, team] ∧
      edge.fingerprint = fingerprint "CheckoutFailureRate" edgeLabels.items ∧
      team.fingerprint ≠ fingerprint "CheckoutFailureRate" teamLabels.items := by
  have sent : firingOf checkoutPayload =
      .ok [sentAlert (checkoutRule edgeLabels), sentAlert (checkoutRule teamLabels)] := rfl
  have plain : ∀ rule ∈ [checkoutRule edgeLabels, checkoutRule teamLabels],
      ∀ label ∈ rule.labels.items, PlainText label.2 := by
    simp only [List.forall_mem_cons, List.not_mem_nil, false_imp_iff, implies_true, and_true]
    refine ⟨?_, ?_⟩ <;> simp only [checkoutRule, edgeLabels, teamLabels, List.forall_mem_cons,
      List.not_mem_nil, false_imp_iff, implies_true, and_true, PlainText] <;> decide
  have collisionFree : ∀ rule ∈ [checkoutRule edgeLabels, checkoutRule teamLabels],
      ({canonical rule.alertname rule.symptomLabels,
        canonical rule.alertname rule.labels.items} : Set String).InjOn digest := by
    simp only [List.forall_mem_cons, List.not_mem_nil, false_imp_iff, implies_true, and_true]
    constructor
    · rintro _ (rfl | rfl) _ (rfl | rfl) _ <;> rfl
    · rintro _ (rfl | rfl) _ (rfl | rfl) same
      · rfl
      · exact absurd same (by decide +kernel)
      · exact absurd same (by decide +kernel)
      · rfl
  have mapped := webhook_fingerprints [checkoutRule edgeLabels] sent
    (.cons (sentAlert_fired _) (.cons (sentAlert_fired _) .nil)) plain collisionFree
  have allowed : ∀ rule ∈ [checkoutRule edgeLabels, checkoutRule teamLabels],
      Returns (assertSymptomLevel rule.alertname rule.symptomLabels) := by
    decide +kernel
  obtain ⟨alerts, returned, related, -⟩ | ⟨rule, member, e, raised, -⟩ := mapped
  · cases related with
    | cons edge later =>
      cases later with
      | cons team none =>
        cases none
        refine ⟨_, _, returned, edge.2.mpr (by decide), fun same => ?_⟩
        exact absurd (team.2.mp same ("team", "web") (by decide)) (by decide)
  · have returned := allowed rule member
    rw [raised] at returned
    exact absurd returned (not_returns_error e)

end Sample

end Sentinel.Labs.Otel
