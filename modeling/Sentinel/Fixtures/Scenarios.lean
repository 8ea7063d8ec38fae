import Sentinel.Fixtures.Schemas
import Sentinel.Tools.Models

/-! The manifest of a public fixture, the private truth beside it, and the definition of
the scenario that both are recorded from. -/
namespace Sentinel.Fixtures
open Python Tools

structure TimeWindow where
  start : ℤ
  stop : ℤ
  nonneg : 0 ≤ start := by decide
  follows : start < stop := by decide

inductive Severity where
  | warning | critical
  deriving DecidableEq, Repr

structure DerivedAlert where
  alertname : String
  severity : Severity
  startsAtSecond : ℤ
  labels : List (String × String) := []
  annotations : List (String × String) := []
  value : ℚ
  expr : String
  fingerprint : String
  named : alertname ≠ "" ∧ expr ≠ "" ∧ fingerprint ≠ "" := by decide
  nonneg : 0 ≤ startsAtSecond := by decide

structure PublicManifest where
  scenarioId : String
  source : String
  timeUnit : String
  window : TimeWindow
  symptom : String
  availableSignals : List String
  notes : List String := []
  alerts : List DerivedAlert
  named : scenarioId ≠ "" ∧ source ≠ "" ∧ timeUnit ≠ "" ∧ symptom ≠ "" := by decide
  signals : availableSignals ≠ [] := by decide
  firing : alerts ≠ []

structure InjectionMetadata where
  rawFlagKey : String
  variant : String
  enabledAtSecond : ℤ
  named : rawFlagKey ≠ "" ∧ variant ≠ "" := by decide
  nonneg : 0 ≤ enabledAtSecond := by decide

structure PrivateTruth where
  scenarioId : String
  injection : InjectionMetadata
  rootCause : RootCause
  culpritChangeId : String
  expectedEvidence : List String
  decoyChangeIds : List String
  acceptedServices : Option (List String) := none
  named : scenarioId ≠ "" ∧ culpritChangeId ≠ "" := by decide
  evidenced : expectedEvidence ≠ [] := by decide
  decoyed : decoyChangeIds ≠ [] := by decide

structure ScenarioTiming where
  warmupSeconds : ℤ
  injectionAtSeconds : ℤ
  recordingSeconds : ℤ
  nonneg : 0 ≤ warmupSeconds ∧ 0 ≤ injectionAtSeconds := by decide
  inside : injectionAtSeconds < recordingSeconds := by decide

structure ScenarioPublicConfig where
  symptom : String
  sanitizedChange : ChangeEvent
  decoyChanges : List ChangeEvent
  named : symptom ≠ "" := by decide
  decoyed : decoyChanges ≠ []

/-- What recording a scenario reads of its definition. -/
structure ScenarioDefinition where
  id : String
  rawFlagKey : String
  variant : String
  timing : ScenarioTiming
  publicConfig : ScenarioPublicConfig
  rootCause : RootCause
  named : id ≠ "" ∧ rawFlagKey ≠ "" ∧ variant ≠ "" := by decide

end Sentinel.Fixtures
