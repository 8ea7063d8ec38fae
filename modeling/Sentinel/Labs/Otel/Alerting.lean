import Sentinel.Fixtures.Scenarios
import Sentinel.Python.FloatText
import Sentinel.Python.JsonProofs
import Sentinel.Python.Ordering
import Sentinel.Python.Rounding
import Sentinel.Python.Struct
import Sentinel.Sequences.Runs

/-! The offline evaluation of alert rules over a recorded window. A range result is the
samples of each series, a sample its time and the text of its value; SHA-256 is a
parameter. -/
namespace Sentinel.Labs.Otel
open Python Fixtures Sequences

structure Sample where
  timestamp : ℚ
  value : String

inductive Comparison where
  | greater | greaterEqual | less | lessEqual
  deriving DecidableEq, Repr

structure AlertRule where
  alertname : String
  expr : String
  threshold : FloatValue
  comparison : Comparison
  forSeconds : ℕ
  severity : Severity
  labels : Dict String String := Dict.empty
  annotationTemplates : Dict String String := Dict.empty
  named : alertname ≠ "" ∧ expr ≠ "" := by decide

def stepSeconds : ℚ := 15

/-- `sha256(data).hexdigest()`. -/
class Sha256 where
  hexdigest : List UInt8 → List Char
  hexdigest_length : ∀ data, (hexdigest data).length = 64

def compare (value : ℚ) (comparison : Comparison) (threshold : FloatValue) : Bool :=
  match comparison with
  | .greater => threshold.lt (.finite value)
  | .greaterEqual => threshold.le (.finite value)
  | .less => (FloatValue.finite value).lt threshold
  | .lessEqual => (FloatValue.finite value).le threshold

def render [FloatRepr] (templates : List (String × String)) (value : ℚ) (startsAtSecond : ℤ) :
    List (String × String) :=
  templates.map fun (key, tmpl) =>
    (key, String.ofList (replaceAll "\x7b\x7bstarts_at\x7d\x7d".toList (intRepr startsAtSecond)
      (replaceAll "\x7b\x7bvalue\x7d\x7d".toList (FloatRepr.repr value) tmpl.toList)))

/-- The text that a fingerprint is taken of. -/
def canonical (alertname : String) (labels : List (String × String)) : String :=
  alertname ++ "|" ++ String.intercalate ","
    ((sortedBy id (labels.map Prod.fst)).map fun k => k ++ "=" ++ (labels.lookup k).getD "")

/-- `max(0, round(run_start_ts - window_start_epoch_seconds))`. -/
def startsAt (windowStart runStart : ℚ) : ℤ := max 0 (roundEven (rnd (runStart - windowStart)))

section Breach
variable [FloatText]

/-- The value of a sample that can be read and is finite. -/
def Sample.reading (point : Sample) : Option ℚ :=
  match FloatText.parse point.value with
  | some (.finite value) => some value
  | _ => none

/-- Breaching finite samples at consecutive steps, for the time the rule asks for. -/
def AlertRule.monitor (rule : AlertRule) : Monitor Sample where
  good p := p.reading.any fun value => compare value rule.comparison rule.threshold
  linked p q := q.timestamp = p.timestamp + stepSeconds
  lasts p q := rule.forSeconds ≤ rnd (q.timestamp - p.timestamp)

theorem monitor_cumulative (rule : AlertRule) (series : List Sample) :
    rule.monitor.Cumulative (sortedBy Sample.timestamp series) := by
  intro i j k lower upper a at_a b at_b c at_c lasts
  have sorted := sortedBy_pairwise Sample.timestamp series
  have first := le_of_getElem? sorted lower at_a at_b
  have second := le_of_getElem? sorted upper at_b at_c
  simp only [AlertRule.monitor, decide_eq_true_eq] at lasts ⊢
  exact lasts.trans (rnd_mono (by linarith) (by linarith))

end Breach

section Evaluation
variable [Sha256]

def digest (text : String) : String :=
  String.ofList ((Sha256.hexdigest (encodeUtf8 text.toList)).take 16)

def fingerprint (alertname : String) (labels : List (String × String)) : String :=
  digest (canonical alertname labels)

theorem digest_ne_empty (text : String) : digest text ≠ "" := by
  intro empty
  have chars := congrArg (fun s : String => s.toList.length) empty
  simp [digest, Sha256.hexdigest_length] at chars

variable [FloatRepr]

/-- The alert of a rule that fires on a run from `runStart` on. -/
def AlertRule.alert (rule : AlertRule) (windowStart runStart value : ℚ) : DerivedAlert where
  alertname := rule.alertname
  severity := rule.severity
  startsAtSecond := startsAt windowStart runStart
  labels := rule.labels.items
  annotations := render rule.annotationTemplates.items value (startsAt windowStart runStart)
  value := value
  expr := rule.expr
  fingerprint := fingerprint rule.alertname rule.labels.items
  named := ⟨rule.named.1, rule.named.2, digest_ne_empty _⟩
  nonneg := le_max_left 0 _

variable [FloatText]

/-- The loop over the points in order, in a run that started at a time with a value. -/
def AlertRule.firstBreach (rule : AlertRule) (windowStart : ℚ) :
    Option (ℚ × ℚ) → List Sample → Option DerivedAlert
  | _, [] => none
  | run, point :: rest =>
    match point.reading with
    | none => rule.firstBreach windowStart none rest
    | some value =>
      if compare value rule.comparison rule.threshold then
        let start := run.getD (point.timestamp, value)
        if rule.forSeconds ≤ rnd (point.timestamp - start.1) then
          some (rule.alert windowStart start.1 start.2)
        else rule.firstBreach windowStart (some start) rest
      else rule.firstBreach windowStart none rest

def firstContinuousBreach (result : List (List Sample)) (rule : AlertRule) (windowStart : ℚ) :
    Option DerivedAlert :=
  match result with
  | [] => none
  | firstSeries :: _ => rule.firstBreach windowStart none (sortedBy Sample.timestamp firstSeries)

/-- The loop is the scan that does not ask for consecutive steps. -/
theorem firstBreach_eq_scan (rule : AlertRule) (windowStart : ℚ) (start : Option Sample)
    (points : List Sample) :
    rule.firstBreach windowStart (start.map fun p => (p.timestamp, p.reading.getD 0)) points =
      (rule.monitor.unlinked.scan start points).map fun p =>
        rule.alert windowStart p.timestamp (p.reading.getD 0) := by
  induction points generalizing start with
  | nil => rfl
  | cons point rest ih =>
    rw [AlertRule.firstBreach, Monitor.scan]
    cases read : point.reading with
    | none => simpa [Monitor.unlinked, AlertRule.monitor, read] using ih none
    | some value =>
      by_cases breached : compare value rule.comparison rule.threshold
      · have origin : (start.map fun p => (p.timestamp, p.reading.getD 0)).getD
            (point.timestamp, value) =
            ((start.getD point).timestamp, (start.getD point).reading.getD 0) := by
          cases start <;> simp [read]
        have good : rule.monitor.unlinked.good point := by
          simpa [Monitor.unlinked, AlertRule.monitor, read] using breached
        simp only [if_pos good, if_pos breached, origin]
        by_cases lasts : rule.forSeconds ≤ rnd (point.timestamp - (start.getD point).timestamp)
        · have since : rule.monitor.unlinked.lasts (start.getD point) point := by
            simpa [Monitor.unlinked, AlertRule.monitor] using lasts
          rw [if_pos lasts, if_pos since, Option.map_some]
        · have since : ¬ rule.monitor.unlinked.lasts (start.getD point) point := by
            simpa [Monitor.unlinked, AlertRule.monitor] using lasts
          rw [if_neg lasts, if_neg since]
          exact ih (some (start.getD point))
      · simpa [Monitor.unlinked, AlertRule.monitor, read, breached] using ih none

/-- The rule fires on the run that is found when missing steps do not count. -/
theorem firstContinuousBreach_spec (rule : AlertRule) (windowStart : ℚ) (series : List Sample) :
    (∀ alert ∈ firstContinuousBreach [series] rule windowStart, ∃ a j p,
      rule.monitor.unlinked.Found (sortedBy Sample.timestamp series) a j ∧
      (sortedBy Sample.timestamp series)[a]? = some p ∧
      alert.startsAtSecond = startsAt windowStart p.timestamp ∧ p.reading = some alert.value) ∧
    (firstContinuousBreach [series] rule windowStart = none →
      ∀ i j, ¬ rule.monitor.unlinked.Lasting (sortedBy Sample.timestamp series) i j) := by
  have loop := firstBreach_eq_scan rule windowStart none (sortedBy Sample.timestamp series)
  rw [Option.map_none] at loop
  obtain ⟨fires, idle⟩ := Monitor.scan_spec (m := rule.monitor.unlinked) (fun _ _ => trivial)
    (monitor_cumulative rule series)
  rw [firstContinuousBreach, loop]
  refine ⟨fun alert fired => ?_, fun none_ => idle (Option.map_eq_none_iff.mp none_)⟩
  obtain ⟨p, scanned, rfl⟩ := Option.mem_map.mp fired
  obtain ⟨a, j, found, at_a⟩ := fires p scanned
  obtain ⟨q, at_a', good⟩ := found.inside a le_rfl found.ordered
  cases at_a.symm.trans at_a'
  obtain ⟨value, read, -⟩ := (Option.any_eq_true _ _).mp good
  exact ⟨a, j, p, found, at_a, rfl, by rw [AlertRule.alert, read]; rfl⟩

/-- An alert stands for a breach over consecutive steps, from where its run starts. -/
structure BreachAlerted (rule : AlertRule) (windowStart : ℚ) (points : List Sample)
    (out : Option DerivedAlert) : Prop where
  fires : out.isSome ↔ ∃ i j, rule.monitor.Lasting points i j
  origin : ∀ alert ∈ out, ∀ p, rule.monitor.Origin points p →
    alert.startsAtSecond = startsAt windowStart p.timestamp ∧ p.reading = some alert.value

/-- A breach is alerted as it is unless a step is missing in the run that fires, and then
by chance only: where the run meant starts with the same value at the same second. -/
theorem firstContinuousBreach_iff (rule : AlertRule) (windowStart : ℚ) (series : List Sample) :
    BreachAlerted rule windowStart (sortedBy Sample.timestamp series)
        (firstContinuousBreach [series] rule windowStart) ↔
      ∀ a j p, rule.monitor.unlinked.Found (sortedBy Sample.timestamp series) a j →
        (sortedBy Sample.timestamp series)[a]? = some p →
        rule.monitor.Run (sortedBy Sample.timestamp series) a j ∨
          ∃ q, rule.monitor.Origin (sortedBy Sample.timestamp series) q ∧
            startsAt windowStart q.timestamp = startsAt windowStart p.timestamp ∧
            q.reading = p.reading := by
  obtain ⟨fires, idle⟩ := firstContinuousBreach_spec rule windowStart series
  have cumulative := monitor_cumulative rule series
  generalize sortedBy Sample.timestamp series = points at *
  generalize firstContinuousBreach [series] rule windowStart = out at *
  constructor
  · intro alerted a j p found at_a
    cases out with
    | none => exact absurd found.toLasting (idle rfl a j)
    | some alert =>
      obtain ⟨i, k, lasting⟩ := alerted.fires.mp rfl
      obtain ⟨b, l, strict⟩ := lasting.exists_found cumulative
      obtain ⟨q, at_b, _⟩ := strict.inside b le_rfl strict.ordered
      have origin : rule.monitor.Origin points q :=
        (Monitor.origin_iff cumulative).mpr ⟨b, l, strict, at_b⟩
      obtain ⟨a', j', p', found', at_a', starts, value⟩ := fires alert rfl
      obtain ⟨rfl, rfl⟩ := found.unique found'
      cases at_a.symm.trans at_a'
      obtain ⟨starts', value'⟩ := alerted.origin alert rfl q origin
      exact .inr ⟨q, origin, starts'.symm.trans starts, value'.trans value.symm⟩
  · intro unbroken
    have meant : ∀ alert ∈ out, ∃ q, rule.monitor.Origin points q ∧
        alert.startsAtSecond = startsAt windowStart q.timestamp ∧ q.reading = some alert.value := by
      intro alert fired
      obtain ⟨a, j, p, found, at_a, starts, value⟩ := fires alert fired
      rcases unbroken a j p found at_a with run | ⟨q, origin, same, reads⟩
      · exact ⟨p, (Monitor.origin_iff cumulative).mpr ⟨a, j, found.linked run, at_a⟩, starts, value⟩
      · exact ⟨q, origin, starts.trans same.symm, reads.trans value⟩
    refine ⟨⟨fun fired => ?_, fun ⟨i, j, lasting⟩ => ?_⟩, fun alert fired p origin => ?_⟩
    · obtain ⟨alert, rfl⟩ := Option.isSome_iff_exists.mp fired
      obtain ⟨q, ⟨i, j, _, _, earliest, _⟩, _⟩ := meant alert rfl
      exact ⟨i, j, earliest.toLasting⟩
    · cases out with
      | none => exact absurd lasting.unlinked (idle rfl i j)
      | some alert => rfl
    · obtain ⟨q, origin', starts, value⟩ := meant alert fired
      cases Monitor.origin_unique cumulative origin origin'
      exact ⟨starts, value⟩

end Evaluation

section Sparse

/-- `float` on the texts of two samples. -/
@[reducible] def sampleFloats : FloatText where
  parse text := if text = "1" then some (.finite 1) else none

/-- SHA-256 on the text hashed for an unlabelled degradation. -/
@[reducible] def degradationDigest : Sha256 where
  hexdigest _ := "fe7f73933e8c7ad416c2c66786a29464055f459778000373948a56e8d8c61614".toList
  hexdigest_length _ := by decide

attribute [local instance] sampleFloats degradationDigest fractionRepr

def degradationRule : AlertRule where
  alertname := "UserFacingDegradation"
  expr := "up"
  threshold := .finite 0
  comparison := .greater
  forSeconds := 60
  severity := .critical

/-- Of five steps only the first and the last have a sample. -/
def sparseSeries : List Sample := [⟨1015, "1"⟩, ⟨1075, "1"⟩]

theorem sortedBy_sparseSeries : sortedBy Sample.timestamp sparseSeries = sparseSeries :=
  rfl

theorem firstContinuousBreach_sparse :
    ¬ BreachAlerted degradationRule 1000 (sortedBy Sample.timestamp sparseSeries)
      (firstContinuousBreach [sparseSeries] degradationRule 1000) := by
  intro alerted
  have apart : rnd 60 = 60 := by simpa using rnd_intCast (n := 60) (by decide)
  have fired : (firstContinuousBreach [sparseSeries] degradationRule 1000).isSome := by
    rw [firstContinuousBreach, sortedBy_sparseSeries, sparseSeries]
    have reads : Sample.reading ⟨1015, "1"⟩ = some 1 ∧ Sample.reading ⟨1075, "1"⟩ = some 1 :=
      ⟨rfl, rfl⟩
    have breached : compare 1 .greater (.finite 0) := rfl
    have zero : rnd 0 = 0 := by simp [rnd]
    norm_num [AlertRule.firstBreach, reads, zero, apart, breached, degradationRule]
  obtain ⟨i, j, lasting⟩ := alerted.fires.mp fired
  rw [sortedBy_sparseSeries] at lasting
  have bound : j < 2 := lasting.lt_length
  have ordered := lasting.ordered
  rcases eq_or_lt_of_le ordered with rfl | less
  · obtain ⟨a, at_i, b, at_i', lasts⟩ := lasting.lasting
    cases at_i.symm.trans at_i'
    norm_num [AlertRule.monitor, degradationRule, rnd] at lasts
  · obtain ⟨rfl, rfl⟩ : i = 0 ∧ j = 1 := by omega
    have step := lasting.chained 0 le_rfl (by decide) _ rfl _ rfl
    simp only [AlertRule.monitor, stepSeconds] at step
    norm_num at step

end Sparse

end Sentinel.Labs.Otel
