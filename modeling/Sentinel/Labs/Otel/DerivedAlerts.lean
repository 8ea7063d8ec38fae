import Mathlib.Data.Prod.Lex
import Sentinel.Labs.Otel.Alerting
import Sentinel.Python.Counter

/-! The alerts that a recorded window gives: one for each name and label map among the
rules that fire. The rules are told apart by a digest of a text of the two. -/
namespace Sentinel.Labs.Otel
open Python Fixtures Sequences

/-- `prometheus.query_range(query, start=start, end=end, step=step)`. -/
abbrev PrometheusRangeClient := String → ℚ → ℚ → String → Py (List (List Sample))

def step : String := "15s"

def noAlertFired : Exn :=
  ⟨"NoAlertFired", "no symptom rule fired over the recorded window", false⟩

def Severity.rank : Severity → ℕ
  | .critical => 0
  | .warning => 1

def alertOrder (a : DerivedAlert) : ℕ ×ₗ ℤ ×ₗ String :=
  toLex (Severity.rank a.severity, toLex (a.startsAtSecond, a.alertname))

/-- The same name and the same mapping of labels. -/
def SameIdentity (name name' : String) (labels labels' : List (String × String)) : Prop :=
  name = name' ∧ ∀ k, labels.lookup k = labels'.lookup k

/-- The text depends on the mapping only, not on the order of its items. -/
theorem canonical_congr {name name' : String} {labels labels' : List (String × String)}
    (unique : (labels.map Prod.fst).Nodup) (unique' : (labels'.map Prod.fst).Nodup)
    (same : SameIdentity name name' labels labels') :
    canonical name labels = canonical name' labels' := by
  have member {items : List (String × String)} (distinct : (items.map Prod.fst).Nodup) (k : String) :
      k ∈ items.map Prod.fst ↔ ∃ v, items.lookup k = some v := by
    rw [List.mem_map]
    exact ⟨fun ⟨⟨_, v⟩, inItems, at_k⟩ => ⟨v, lookup_of_mem distinct (at_k ▸ inItems)⟩,
      fun ⟨v, found⟩ => ⟨(k, v), mem_keys_of_lookup found, rfl⟩⟩
  have keys : (labels.map Prod.fst).Perm (labels'.map Prod.fst) := by
    rw [List.perm_ext_iff_of_nodup unique unique']
    intro k
    rw [member unique, member unique', same.2 k]
  have sorted : sortedBy id (labels.map Prod.fst) = sortedBy id (labels'.map Prod.fst) :=
    sortedBy_congr keys (fun _ _ => rfl) Function.injective_id
  rw [canonical, canonical, same.1, sorted]
  simp only [same.2]

section Derive
variable [Sha256] [FloatRepr] [FloatText] (prometheus : PrometheusRangeClient)
  (rules : List AlertRule) (windowStart windowEnd : ℚ)

/-- The alerts of the rules that fire, in rule order. -/
def firings : Py (List DerivedAlert) := do
  let found ← rules.mapM fun rule => do
    let result ← prometheus rule.expr windowStart windowEnd step
    pure (firstContinuousBreach result rule windowStart)
  pure (found.filterMap id)

def deriveAlerts : Py (List DerivedAlert) := do
  let fired ← firings prometheus rules windowStart windowEnd
  if fired.isEmpty then .error noAlertFired
  else .ok (keepFirst DerivedAlert.fingerprint [] (sortedBy alertOrder fired))

/-- The rule fires on what the backend answers. -/
def AlertRule.Fires (rule : AlertRule) (alert : DerivedAlert) : Prop :=
  ∃ result, prometheus rule.expr windowStart windowEnd step = .ok result ∧
    firstContinuousBreach result rule windowStart = some alert

/-- The texts of the rules that fire. -/
def hashedTexts : Set String :=
  {text | ∃ rule ∈ rules, ∃ alert, rule.Fires prometheus windowStart windowEnd alert ∧
    canonical rule.alertname rule.labels.items = text}

variable {prometheus rules windowStart windowEnd}

theorem firstBreach_alert {rule : AlertRule} {run : Option (ℚ × ℚ)} {points : List Sample}
    {alert : DerivedAlert} (fired : rule.firstBreach windowStart run points = some alert) :
    ∃ runStart value, alert = rule.alert windowStart runStart value := by
  induction points generalizing run with
  | nil => cases fired
  | cons point rest ih =>
    rw [AlertRule.firstBreach] at fired
    split at fired
    · exact ih fired
    · dsimp only at fired
      split_ifs at fired
      · exact ⟨_, _, (Option.some.inj fired).symm⟩
      · exact ih fired
      · exact ih fired

theorem AlertRule.Fires.alert_eq {rule : AlertRule} {alert : DerivedAlert}
    (fires : rule.Fires prometheus windowStart windowEnd alert) :
    ∃ runStart value, alert = rule.alert windowStart runStart value := by
  obtain ⟨result, -, fired⟩ := fires
  unfold firstContinuousBreach at fired
  split at fired
  · cases fired
  · exact firstBreach_alert fired

theorem mem_firings {fired : List DerivedAlert}
    (evaluated : firings prometheus rules windowStart windowEnd = .ok fired) (a : DerivedAlert) :
    a ∈ fired ↔ ∃ rule ∈ rules, rule.Fires prometheus windowStart windowEnd a := by
  obtain ⟨found, mapped, collected⟩ := bind_ok_iff.mp evaluated
  cases collected
  rw [List.mem_filterMap]
  simp only [id, exists_eq_right, mem_of_mapM mapped, bind_ok_iff, pure, Except.pure,
    Except.ok.injEq, AlertRule.Fires]

theorem firings_returns_iff : Returns (firings prometheus rules windowStart windowEnd) ↔
    ∀ rule ∈ rules, Returns (prometheus rule.expr windowStart windowEnd step) := by
  have each (rule : AlertRule) : Returns (do
      let result ← prometheus rule.expr windowStart windowEnd step
      pure (firstContinuousBreach result rule windowStart)) ↔
      Returns (prometheus rule.expr windowStart windowEnd step) := by
    simp [Returns, bind_ok_iff, pure, Except.pure]
  simp only [← each, ← mapM_returns_iff]
  simp [Returns, firings, bind_ok_iff, pure, Except.pure]

theorem deriveAlerts_eq {fired : List DerivedAlert}
    (evaluated : firings prometheus rules windowStart windowEnd = .ok fired) (some_ : fired ≠ []) :
    deriveAlerts prometheus rules windowStart windowEnd =
      .ok (keepFirst DerivedAlert.fingerprint [] (sortedBy alertOrder fired)) := by
  rw [deriveAlerts, evaluated]
  exact if_neg (by simpa using some_)

theorem AlertRule.Fires.fingerprint_eq {rule : AlertRule} {alert : DerivedAlert}
    (fires : rule.Fires prometheus windowStart windowEnd alert) :
    alert.alertname = rule.alertname ∧ alert.labels = rule.labels.items ∧
      alert.fingerprint = digest (canonical rule.alertname rule.labels.items) := by
  obtain ⟨runStart, value, rfl⟩ := fires.alert_eq
  exact ⟨rfl, rfl, rfl⟩

/-- Alerts that stand for one alert share a fingerprint. -/
theorem fingerprint_of_sameIdentity {fired : List DerivedAlert}
    (evaluated : firings prometheus rules windowStart windowEnd = .ok fired) {a b : DerivedAlert}
    (inA : a ∈ fired) (inB : b ∈ fired)
    (same : SameIdentity a.alertname b.alertname a.labels b.labels) :
    a.fingerprint = b.fingerprint := by
  obtain ⟨r, -, firesR⟩ := (mem_firings evaluated a).mp inA
  obtain ⟨s, -, firesS⟩ := (mem_firings evaluated b).mp inB
  obtain ⟨nameA, labelsA, printA⟩ := firesR.fingerprint_eq
  obtain ⟨nameB, labelsB, printB⟩ := firesS.fingerprint_eq
  rw [nameA, nameB, labelsA, labelsB] at same
  rw [printA, printB, canonical_congr r.labels.unique s.labels.unique same]

/-- One alert comes before another: by severity, start and name, then in rule order. -/
def Before (fired : List DerivedAlert) (a b : DerivedAlert) : Prop :=
  alertOrder a < alertOrder b ∨ alertOrder a = alertOrder b ∧ [a, b].Sublist fired

/-- One alert for each name and label map among those that fired, the first of them. -/
structure Deduplicated (fired out : List DerivedAlert) : Prop where
  drawn : ∀ b ∈ out, b ∈ fired
  covers : ∀ a ∈ fired, ∃ b ∈ out, SameIdentity a.alertname b.alertname a.labels b.labels
  distinct : out.Pairwise fun a b => ¬ SameIdentity a.alertname b.alertname a.labels b.labels
  least : ∀ b ∈ out, ∀ a ∈ fired, SameIdentity a.alertname b.alertname a.labels b.labels →
    a = b ∨ Before fired b a
  sorted : out.Pairwise (Before fired)

/-- What is covered and has one fingerprint is one alert. -/
theorem Deduplicated.same {fired : List DerivedAlert}
    (evaluated : firings prometheus rules windowStart windowEnd = .ok fired)
    (deduplicated : Deduplicated fired
      (keepFirst DerivedAlert.fingerprint [] (sortedBy alertOrder fired))) {a b : DerivedAlert}
    (inA : a ∈ fired) (inB : b ∈ fired) (print : a.fingerprint = b.fingerprint) :
    SameIdentity a.alertname b.alertname a.labels b.labels := by
  obtain ⟨c, outC, sameC⟩ := deduplicated.covers a inA
  obtain ⟨d, outD, sameD⟩ := deduplicated.covers b inB
  have printC := fingerprint_of_sameIdentity evaluated inA (deduplicated.drawn c outC) sameC
  have printD := fingerprint_of_sameIdentity evaluated inB (deduplicated.drawn d outD) sameD
  have one : c = d := List.inj_on_of_nodup_map (keepFirst_nodup _ _ _) outC outD
    (printC.symm.trans (print.trans printD))
  subst one
  exact ⟨sameC.1.trans sameD.1.symm, fun k => (sameC.2 k).trans (sameD.2 k).symm⟩

/-- Where a fingerprint stands for one alert only, the collapse keeps the first of each. -/
theorem keepFirst_deduplicated {fired : List DerivedAlert}
    (evaluated : firings prometheus rules windowStart windowEnd = .ok fired)
    (faithful : ∀ a ∈ fired, ∀ b ∈ fired, a.fingerprint = b.fingerprint →
      SameIdentity a.alertname b.alertname a.labels b.labels) :
    Deduplicated fired (keepFirst DerivedAlert.fingerprint [] (sortedBy alertOrder fired)) where
  drawn b kept := mem_sortedBy.mp (mem_keepFirst kept).1
  covers a member := by
    have unseen : a.fingerprint ∉ ([] : List String) := List.not_mem_nil
    have inSorted : a ∈ sortedBy alertOrder fired := mem_sortedBy.mpr member
    obtain ⟨b, kept, print⟩ := keepFirst_covers inSorted unseen
    exact ⟨b, kept, faithful a member b (mem_sortedBy.mp (mem_keepFirst kept).1) print.symm⟩
  distinct := by
    have prints := List.pairwise_map.mp
      (keepFirst_nodup DerivedAlert.fingerprint [] (sortedBy alertOrder fired))
    refine prints.imp_of_mem fun {a b} outA outB differ same => differ ?_
    exact fingerprint_of_sameIdentity evaluated (mem_sortedBy.mp (mem_keepFirst outA).1)
      (mem_sortedBy.mp (mem_keepFirst outB).1) same
  least b kept a member same := by
    have print := fingerprint_of_sameIdentity evaluated member
      (mem_sortedBy.mp (mem_keepFirst kept).1) same
    have inSorted : a ∈ sortedBy alertOrder fired := mem_sortedBy.mpr member
    exact (keepFirst_first kept inSorted print).imp id sublist_of_sortedBy
  sorted := List.pairwise_iff_forall_sublist.mpr fun {a b} before => by
    have inOrder : [a, b].Sublist (sortedBy alertOrder fired) :=
      before.trans (keepFirst_sublist _ _ _)
    exact sublist_of_sortedBy inOrder

/-- The alerts are told apart exactly where no two rules that fire have one text. -/
theorem deriveAlerts_iff (prometheus : PrometheusRangeClient) (rules : List AlertRule)
    (windowStart windowEnd : ℚ)
    (collisionFree : (hashedTexts prometheus rules windowStart windowEnd).InjOn digest) :
    (∀ fired, firings prometheus rules windowStart windowEnd = .ok fired → fired ≠ [] →
        ∃ out, deriveAlerts prometheus rules windowStart windowEnd = .ok out ∧
          Deduplicated fired out) ↔
      ((∀ rule ∈ rules, Returns (prometheus rule.expr windowStart windowEnd step)) →
        ∀ r ∈ rules, ∀ s ∈ rules, ∀ a b, r.Fires prometheus windowStart windowEnd a →
          s.Fires prometheus windowStart windowEnd b →
          canonical r.alertname r.labels.items = canonical s.alertname s.labels.items →
          SameIdentity r.alertname s.alertname r.labels.items s.labels.items) := by
  constructor
  · intro deduplicates answered r inR s inS a b firesA firesB text
    obtain ⟨fired, evaluated⟩ := firings_returns_iff.mpr answered
    have inA := (mem_firings evaluated a).mpr ⟨r, inR, firesA⟩
    have inB := (mem_firings evaluated b).mpr ⟨s, inS, firesB⟩
    obtain ⟨out, derived, deduplicated⟩ := deduplicates fired evaluated (List.ne_nil_of_mem inA)
    cases (deriveAlerts_eq evaluated (List.ne_nil_of_mem inA)).symm.trans derived
    obtain ⟨nameA, labelsA, printA⟩ := firesA.fingerprint_eq
    obtain ⟨nameB, labelsB, printB⟩ := firesB.fingerprint_eq
    have same := deduplicated.same evaluated inA inB (by rw [printA, printB, text])
    rwa [nameA, nameB, labelsA, labelsB] at same
  · intro apart fired evaluated some_
    have answered := firings_returns_iff.mp ⟨fired, evaluated⟩
    refine ⟨_, deriveAlerts_eq evaluated some_, keepFirst_deduplicated evaluated ?_⟩
    intro a inA b inB print
    obtain ⟨r, inR, firesA⟩ := (mem_firings evaluated a).mp inA
    obtain ⟨s, inS, firesB⟩ := (mem_firings evaluated b).mp inB
    obtain ⟨nameA, labelsA, printA⟩ := firesA.fingerprint_eq
    obtain ⟨nameB, labelsB, printB⟩ := firesB.fingerprint_eq
    have text := collisionFree ⟨r, inR, a, firesA, rfl⟩ ⟨s, inS, b, firesB, rfl⟩
      (printA.symm.trans (print.trans printB))
    rw [nameA, nameB, labelsA, labelsB]
    exact apart answered r inR s inS a b firesA firesB text

end Derive

section Collision

/-- SHA-256 on the text hashed for the two rules. -/
@[reducible] def collisionDigest : Sha256 where
  hexdigest _ := "ca1d0d4d4b04a3a4588b842138fa063f9cc1419172a8d4cb24a270787f43b2a8".toList
  hexdigest_length _ := by decide

attribute [local instance] sampleFloats collisionDigest fractionRepr

def checkoutRule (labels : Dict String String) : AlertRule where
  alertname := "CheckoutFailureRate"
  expr := "up"
  threshold := .finite 0
  comparison := .greater
  forSeconds := 0
  severity := .critical
  labels := labels

/-- One rule has two labels, the other one whose value reads like both. -/
def checkoutRules : List AlertRule :=
  [checkoutRule ⟨[("signal", "a"), ("tier", "b")], by decide⟩,
    checkoutRule ⟨[("signal", "a,tier=b")], by decide⟩]

def oneSample : PrometheusRangeClient := fun _ _ _ _ => .ok [[⟨1015, "1"⟩]]

theorem checkoutRule_fires (labels : Dict String String) :
    (checkoutRule labels).Fires oneSample 1000 1900
      ((checkoutRule labels).alert 1000 1015 1) := by
  have reads : Sample.reading ⟨1015, "1"⟩ = some 1 := rfl
  have breached : compare 1 .greater (.finite 0) := rfl
  refine ⟨_, rfl, ?_⟩
  simp [firstContinuousBreach, sortedBy, AlertRule.firstBreach, reads, checkoutRule, breached, rnd]

theorem checkoutRules_text : ∀ rule ∈ checkoutRules,
    canonical rule.alertname rule.labels.items = "CheckoutFailureRate|signal=a,tier=b" := by
  decide

theorem deriveAlerts_iff_checkout :
    (∀ fired, firings oneSample checkoutRules 1000 1900 = .ok fired → fired ≠ [] →
        ∃ out, deriveAlerts oneSample checkoutRules 1000 1900 = .ok out ∧
          Deduplicated fired out) ↔
      ((∀ rule ∈ checkoutRules, Returns (oneSample rule.expr 1000 1900 step)) →
        ∀ r ∈ checkoutRules, ∀ s ∈ checkoutRules, ∀ a b, r.Fires oneSample 1000 1900 a →
          s.Fires oneSample 1000 1900 b →
          canonical r.alertname r.labels.items = canonical s.alertname s.labels.items →
          SameIdentity r.alertname s.alertname r.labels.items s.labels.items) := by
  refine deriveAlerts_iff oneSample checkoutRules 1000 1900 ?_
  rintro _ ⟨r, inR, _, _, rfl⟩ _ ⟨s, inS, _, _, rfl⟩ _
  exact (checkoutRules_text r inR).trans (checkoutRules_text s inS).symm

/-- One of the two alerts is lost. -/
theorem deriveAlerts_collides :
    ¬ ∀ fired, firings oneSample checkoutRules 1000 1900 = .ok fired → fired ≠ [] →
      ∃ out, deriveAlerts oneSample checkoutRules 1000 1900 = .ok out ∧ Deduplicated fired out := by
  intro deduplicates
  obtain ⟨fired, evaluated⟩ : Returns (firings oneSample checkoutRules 1000 1900) :=
    firings_returns_iff.mpr fun _ _ => returns_ok _
  have inA := (mem_firings evaluated _).mpr ⟨_, List.mem_cons_self, checkoutRule_fires _⟩
  have inB := (mem_firings evaluated _).mpr
    ⟨_, List.mem_cons_of_mem _ List.mem_cons_self, checkoutRule_fires _⟩
  obtain ⟨out, derived, deduplicated⟩ := deduplicates fired evaluated (List.ne_nil_of_mem inA)
  cases (deriveAlerts_eq evaluated (List.ne_nil_of_mem inA)).symm.trans derived
  have same := deduplicated.same evaluated inA inB rfl
  exact absurd (same.2 "tier") (by decide)

end Collision

end Sentinel.Labs.Otel
