import Sentinel.Labs.Otel.DerivedAlerts
import Sentinel.Python.JsonPrefix
import Sentinel.Python.JsonReaderProofs
import Sentinel.Python.Replace
import Sentinel.Tools.Attribution

/-! The gates that keep alerts at the level of symptoms: a list of names and labels, what no
annotation may mention, and the window. The rules are checked when they are loaded, the
alerts that they give when a fixture is validated. -/
namespace Sentinel.Labs.Otel
open Python Fixtures Tools

def allowedAlertnames : List String :=
  ["UserFacingDegradation", "CheckoutFailureRate", "FrontendHighErrorRate", "FrontendHighLatency",
    "CheckoutHighLatency"]

def allowedLabelKeys : List String := ["tier", "signal", "severity"]

def allowedLabelValues : List (String × List String) :=
  [("tier", ["user_facing"]),
    ("signal", ["degradation", "error_rate", "checkout_error_rate", "latency_p95",
      "checkout_latency_p95"])]

def forbiddenAnnotationSubstrings : List String :=
  ["labels.", "$labels", "\x7b\x7blabels", "service"]

/-- `token in text`. -/
def mentions (text token : String) : Bool := decide (token.toList <:+: text.toList)

def allowlistError (message : String) : Exn := ⟨"AllowlistError", message, false⟩

section Gates
variable [StrRepr]

/-- `assert_alert_is_symptom_level`, for an alert's name and labels. -/
def assertSymptomLevel (alertname : String) (labels : List (String × String)) : Py Unit := do
  if alertname ∉ allowedAlertnames then
    throw (allowlistError s!"alertname {StrRepr.repr alertname} is not in the symptom allow-list")
  else
    match labels.find? fun label => label.1 ∉ allowedLabelKeys with
    | some (key, _) =>
      throw (allowlistError s!"label key {StrRepr.repr key} is not in ALLOWED_LABEL_KEYS")
    | none =>
      match allowedLabelValues.find? fun allowed =>
          (labels.lookup allowed.1).any fun v => v ∉ allowed.2 with
      | some (key, _) => throw (allowlistError
          ("label " ++ StrRepr.repr key ++ " has value " ++
            StrRepr.repr ((labels.lookup key).getD "") ++ " which is not in the allowed set"))
      | none => pure ()

/-- The first annotation, and token, that a rule may not have. -/
def unsafeTemplate (templates : List (String × String)) : Option ((String × String) × String) :=
  (templates.flatMap fun template => forbiddenAnnotationSubstrings.map fun token =>
    (template, token)).find? fun pair => mentions pair.1.2 pair.2

def assertRuleTemplatesSafe (rule : AlertRule) : Py Unit :=
  match unsafeTemplate rule.annotationTemplates.items with
  | some (template, token) => .error (allowlistError
      (s!"annotation template {StrRepr.repr template.1} contains forbidden substring " ++
        StrRepr.repr token))
  | none => .ok ()

/-- The errors of one alert for its name and labels. -/
def symptomErrors (alert : DerivedAlert) : List String :=
  match assertSymptomLevel alert.alertname alert.labels with
  | .ok _ => []
  | .error e => [s!"alert {alert.alertname} is not symptom-level: {e.message}"]

/-- The errors of one alert. -/
def alertErrors (windowEnd : ℤ) (alert : DerivedAlert) : List String :=
  symptomErrors alert ++
  (if alert.annotations.any fun entry =>
      forbiddenAnnotationSubstrings.any fun token => mentions entry.2 token then
    [s!"alert {alert.alertname} annotation interpolates a forbidden token"] else []) ++
  if 0 ≤ alert.startsAtSecond ∧ alert.startsAtSecond ≤ windowEnd then []
  else [s!"alert {alert.alertname} starts_at_second outside window"]

/-- `_validate_alerts`. -/
def validateAlerts (alerts : List DerivedAlert) (windowEnd : ℤ) : List String :=
  if alerts.isEmpty then ["public manifest has no alerts"] else alerts.flatMap (alertErrors windowEnd)

end Gates

/-! ### What an annotation is rendered to -/

/-- A number's text opens with a sign or a digit. -/
theorem scanNumber_opens {text literal rest : List Char} {isFloat : Bool}
    (scanned : scanNumber text = some (literal, isFloat, rest)) :
    ∃ first more, text = first :: more ∧ (first = '-' ∨ first.isDigit = true) := by
  by_cases plain : ∀ c ∈ text.head?, c ≠ '-'
  · rw [scanNumber_plain plain] at scanned
    obtain ⟨c, more, -, rfl, digit, -⟩ := scanUnsigned_takes scanned
    exact ⟨c, more ++ rest, rfl, .inr digit⟩
  · push Not at plain
    obtain ⟨c, opens, rfl⟩ := plain
    obtain ⟨more, rfl⟩ := List.head?_eq_some_iff.mp opens
    exact ⟨'-', more, rfl, .inl rfl⟩

theorem forbidden_chars : ∀ token ∈ forbiddenAnnotationSubstrings,
    (∀ c ∈ token.toList, c ≠ '-' ∧ c.isDigit = false) ∧ token.toList.head?.any (!isToken ·) = true := by
  have checked : (forbiddenAnnotationSubstrings.all fun token =>
      (token.toList.all fun c => c != '-' && !c.isDigit) &&
        token.toList.head?.any (!isToken ·)) = true := by decide +kernel
  intro token member
  have both := List.all_eq_true.mp checked token member
  rw [Bool.and_eq_true, List.all_eq_true] at both
  refine ⟨fun c inside => ?_, both.2⟩
  simpa using both.1 c inside

/-- A number opens with nothing that a forbidden text holds, and holds nothing that one
opens with. -/
theorem fresh_of_number {text : List Char} {token : String}
    (opens : ∃ first more, text = first :: more ∧ (first = '-' ∨ first.isDigit = true))
    (tokens : ∀ c ∈ text, isToken c = true) (forbidden : token ∈ forbiddenAnnotationSubstrings) :
    Fresh text token.toList := by
  obtain ⟨chars, begins⟩ := forbidden_chars token forbidden
  constructor
  · obtain ⟨first, more, rfl, sign⟩ := opens
    refine ⟨first, more, rfl, fun member => ?_⟩
    obtain ⟨notMinus, notDigit⟩ := chars first member
    rcases sign with rfl | digit
    · exact notMinus rfl
    · exact absurd digit (by rw [notDigit]; exact Bool.false_ne_true)
  · rw [Option.any_eq_true] at begins
    obtain ⟨first, isHead, outside⟩ := begins
    obtain ⟨rest, same⟩ := List.head?_eq_some_iff.mp isHead
    refine ⟨first, rest, same, fun member => ?_⟩
    rw [tokens first member] at outside
    cases outside

theorem fresh_int (n : ℤ) {token : String} (forbidden : token ∈ forbiddenAnnotationSubstrings) :
    Fresh (intRepr n) token.toList := by
  have ends : Ends [] := by simp [Ends]
  have scanned := scanNumber_intRepr n ends
  rw [List.append_nil] at scanned
  exact fresh_of_number (scanNumber_opens scanned) (intRepr_token n) forbidden

section
variable [FloatRepr] [FloatReader]

theorem fresh_float (value : ℚ) {token : String} (forbidden : token ∈ forbiddenAnnotationSubstrings) :
    Fresh (FloatRepr.repr value) token.toList := by
  have scanned := FloatReader.scan_repr value [] (by simp [Ends])
  rw [List.append_nil] at scanned
  exact fresh_of_number (scanNumber_opens scanned) (FloatRepr.repr_token value) forbidden

/-- What is rendered mentions only what its template mentions. -/
theorem mentions_render {templates : List (String × String)} {value : ℚ} {startsAtSecond : ℤ}
    {entry : String × String} (member : entry ∈ render templates value startsAtSecond)
    {token : String} (forbidden : token ∈ forbiddenAnnotationSubstrings)
    (found : mentions entry.2 token = true) :
    ∃ template ∈ templates, mentions template.2 token = true := by
  obtain ⟨template, inside, rfl⟩ := List.mem_map.mp member
  refine ⟨template, inside, ?_⟩
  rw [mentions, decide_eq_true_eq] at found ⊢
  rw [String.toList_ofList] at found
  exact (fresh_float value forbidden).replaceFrom ((fresh_int startsAtSecond forbidden).replaceFrom found)

end

/-! ### Where an alert starts -/

theorem startsAt_le {windowStart runStart : ℚ} {recorded : ℕ} (nonneg : 0 ≤ windowStart)
    (bounded : windowStart + recorded ≤ 2 ^ 50)
    (within : runStart ≤ rnd (windowStart + recorded)) : startsAt windowStart runStart ≤ recorded := by
  have window : 0 ≤ windowStart + (recorded : ℚ) := by positivity
  have ends := rnd_le_mul window
  rw [startsAt, max_le_iff]
  refine ⟨Int.natCast_nonneg recorded, ?_⟩
  rcases le_or_gt runStart windowStart with before | after
  · have early : rnd (runStart - windowStart) ≤ (0 : ℤ) := by
      simpa using rnd_nonpos (sub_nonpos.mpr before)
    exact (roundEven_le early).trans (Int.natCast_nonneg recorded)
  · have apart := rnd_le_mul (sub_nonneg.mpr after.le)
    have rounded := roundEven_le_add_half (rnd (runStart - windowStart))
    have below : (roundEven (rnd (runStart - windowStart)) : ℚ) < recorded + 1 := by
      norm_num at ends apart bounded ⊢
      nlinarith
    have below' : roundEven (rnd (runStart - windowStart)) < (recorded : ℤ) + 1 := by exact_mod_cast below
    omega

/-! ### The gates of a recording -/

theorem safe_of_returns [StrRepr] {rule : AlertRule} (safe : Returns (assertRuleTemplatesSafe rule))
    {template : String × String} (member : template ∈ rule.annotationTemplates.items) {token : String}
    (forbidden : token ∈ forbiddenAnnotationSubstrings) : mentions template.2 token = false := by
  rw [assertRuleTemplatesSafe] at safe
  split at safe
  · exact absurd safe (not_returns_error _)
  · rename_i none
    rw [unsafeTemplate, List.find?_eq_none] at none
    refine Bool.eq_false_iff.mpr (none (template, token) ?_)
    exact List.mem_flatMap.mpr ⟨template, member, List.mem_map_of_mem forbidden⟩

/-- Of an alert in the window whose annotations mention nothing forbidden, only the name and
the labels can be wrong. -/
theorem alertErrors_of_gated [StrRepr] {recorded : ℤ} {alert : DerivedAlert}
    (clean : ∀ entry ∈ alert.annotations, ∀ token ∈ forbiddenAnnotationSubstrings, mentions entry.2 token = false)
    (started : 0 ≤ alert.startsAtSecond ∧ alert.startsAtSecond ≤ recorded) :
    alertErrors recorded alert = symptomErrors alert := by
  have none : (alert.annotations.any fun entry =>
      forbiddenAnnotationSubstrings.any fun token => mentions entry.2 token) = false := by
    rw [Bool.eq_false_iff]
    intro found
    obtain ⟨entry, rendered, found⟩ := List.any_eq_true.mp found
    obtain ⟨token, forbidden, found⟩ := List.any_eq_true.mp found
    rw [clean entry rendered token forbidden] at found
    cases found
  rw [alertErrors, none, if_pos started]
  exact (List.append_nil _).trans (List.append_nil _)

theorem symptomErrors_eq_nil [StrRepr] {alert : DerivedAlert} :
    symptomErrors alert = [] ↔ Returns (assertSymptomLevel alert.alertname alert.labels) := by
  rw [symptomErrors]
  cases assertSymptomLevel alert.alertname alert.labels with
  | ok _ => simp [returns_ok]
  | error e => simp [not_returns_error]

section
variable [Sha256] [FloatRepr] [FloatText] {prometheus : PrometheusRangeClient}
  {rules : List AlertRule} {windowStart windowEnd : ℚ} {alerts : List DerivedAlert}

theorem fires_of_derived (derived : deriveAlerts prometheus rules windowStart windowEnd = .ok alerts) :
    alerts ≠ [] ∧ ∀ alert ∈ alerts, ∃ rule ∈ rules,
      rule.Fires prometheus windowStart windowEnd alert := by
  obtain ⟨fired, evaluated, rest⟩ := bind_ok_iff.mp derived
  split_ifs at rest with empty
  cases rest
  constructor
  · intro none
    obtain ⟨alert, more, same⟩ := List.exists_cons_of_ne_nil (by simpa using empty : fired ≠ [])
    have member : alert ∈ sortedBy alertOrder fired := by simp [same]
    have unseen : alert.fingerprint ∉ ([] : List String) := List.not_mem_nil
    obtain ⟨kept, inside, -⟩ := keepFirst_covers member unseen
    rw [none] at inside
    cases inside
  · intro alert kept
    exact (mem_firings evaluated alert).mp (mem_sortedBy.mp (mem_keepFirst kept).1)

/-- The alert starts where a sample of the rule's first series stands. -/
theorem starts_of_fires {rule : AlertRule} {alert : DerivedAlert}
    (fires : rule.Fires prometheus windowStart windowEnd alert) :
    ∃ series rest, prometheus rule.expr windowStart windowEnd step = .ok (series :: rest) ∧
      ∃ point ∈ series, alert.startsAtSecond = startsAt windowStart point.timestamp := by
  obtain ⟨result, answered, fired⟩ := fires
  cases result with
  | nil => cases fired
  | cons series rest =>
    obtain ⟨a, j, p, -, at_a, starts, -⟩ :=
      (firstContinuousBreach_spec rule windowStart series).1 alert fired
    exact ⟨series, rest, answered, p, mem_sortedBy.mp (List.mem_of_getElem? at_a), starts⟩

variable [FloatReader] [StrRepr]

/-- Alerts of a recorded window, whose rules were loaded, never fail the gates for their
annotations or their start: the errors are those of names and labels that are not allowed. -/
theorem derived_alerts_pass {recorded : ℕ} (nonneg : 0 ≤ windowStart)
    (bounded : windowStart + recorded ≤ 2 ^ 50)
    (loaded : ∀ rule ∈ rules, Returns (assertRuleTemplatesSafe rule))
    (inWindow : ∀ rule ∈ rules, ∀ series rest,
      prometheus rule.expr windowStart (rnd (windowStart + recorded)) step = .ok (series :: rest) →
        ∀ point ∈ series, point.timestamp ≤ rnd (windowStart + recorded))
    (derived : deriveAlerts prometheus rules windowStart (rnd (windowStart + recorded)) = .ok alerts) :
    (∀ alert ∈ alerts,
      (∀ entry ∈ alert.annotations, ∀ token ∈ forbiddenAnnotationSubstrings,
        mentions entry.2 token = false) ∧
      0 ≤ alert.startsAtSecond ∧ alert.startsAtSecond ≤ recorded) ∧
    validateAlerts alerts recorded = alerts.flatMap symptomErrors ∧
    (validateAlerts alerts recorded = [] ↔
      ∀ alert ∈ alerts, Returns (assertSymptomLevel alert.alertname alert.labels)) := by
  obtain ⟨some_, fires⟩ := fires_of_derived derived
  have gated : ∀ alert ∈ alerts,
      (∀ entry ∈ alert.annotations, ∀ token ∈ forbiddenAnnotationSubstrings,
        mentions entry.2 token = false) ∧
      0 ≤ alert.startsAtSecond ∧ alert.startsAtSecond ≤ recorded := by
    intro alert member
    obtain ⟨rule, inside, fired⟩ := fires alert member
    constructor
    · obtain ⟨runStart, value, rfl⟩ := fired.alert_eq
      intro entry rendered token forbidden
      rw [Bool.eq_false_iff]
      intro found
      obtain ⟨template, held, found⟩ := mentions_render rendered forbidden found
      rw [safe_of_returns (loaded rule inside) held forbidden] at found
      cases found
    · obtain ⟨series, rest, answered, point, sampled, starts⟩ := starts_of_fires fired
      rw [starts]
      exact ⟨le_max_left _ _,
        startsAt_le nonneg bounded (inWindow rule inside _ _ answered point sampled)⟩
  have errors : validateAlerts alerts recorded = alerts.flatMap symptomErrors := by
    rw [validateAlerts, if_neg (by simpa using some_)]
    exact List.flatMap_congr fun alert member =>
      alertErrors_of_gated (gated alert member).1 (gated alert member).2
  refine ⟨gated, errors, ?_⟩
  rw [errors, List.flatMap_eq_nil_iff]
  exact forall₂_congr fun alert _ => symptomErrors_eq_nil

end

section Sample
attribute [local instance] sampleFloats collisionDigest fractionRepr fractionReader quoted

/-- A rule with allowed labels. -/
def edgeLabels : Dict String String := ⟨[("tier", "user_facing"), ("signal", "degradation")], by decide⟩

theorem one_alert_passes : ∃ alerts,
    deriveAlerts oneSample [checkoutRule edgeLabels] 1000 (rnd (1000 + (900 : ℕ))) = .ok alerts ∧
      validateAlerts alerts (900 : ℕ) = alerts.flatMap symptomErrors := by
  have ends : rnd (1000 + (900 : ℕ)) = 1900 := by
    have exact_ := rnd_intCast (n := 1900) (by decide)
    norm_num at exact_ ⊢
    exact exact_
  have fires := checkoutRule_fires edgeLabels
  rw [← ends] at fires
  obtain ⟨fired, evaluated⟩ : Returns (firings oneSample [checkoutRule edgeLabels] 1000
      (rnd (1000 + (900 : ℕ)))) := firings_returns_iff.mpr fun _ _ => returns_ok _
  have inFired := (mem_firings evaluated _).mpr ⟨_, List.mem_cons_self, fires⟩
  have derived := deriveAlerts_eq evaluated (List.ne_nil_of_mem inFired)
  refine ⟨_, derived, (derived_alerts_pass (by norm_num) (by norm_num) ?_ ?_ derived).2.1⟩
  · intro rule member
    rw [List.mem_singleton] at member
    rw [member]
    exact returns_ok ()
  · rintro rule - series rest answered point sampled
    cases answered
    rw [List.mem_singleton] at sampled
    rw [sampled, ends]
    norm_num

end Sample

end Sentinel.Labs.Otel
