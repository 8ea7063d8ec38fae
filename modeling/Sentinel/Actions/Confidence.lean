import Sentinel.Actions.Propose

/-! The confidence gate of the brief. A verdict that supports the root cause is enough for
a remedy, whatever its confidence and whatever other verdicts say. -/
namespace Sentinel.Actions
open Python

/-- `_CONF_THRESHOLD`, which nothing reads. -/
def confThreshold : ℚ := rnd (34 / 100)

def verdictsOf (result : Json) : Py (List Json) := getOr result "verdicts" (.list []) >>= iterate

def About (root verdict : Json) : Prop := mentions verdict root = .ok true

def Supports (verdict : Json) : Prop := ∃ v, verdict.get "supported" = .ok v ∧ v.truthy = true

def Refutes (verdict : Json) : Prop := verdict.get "supported" = .ok (.bool false)

def Confident (verdict : Json) : Prop :=
  ∃ v x, verdict.get "confidence" = .ok v ∧ v.number = some x ∧ confThreshold ≤ x

/-- Some verdict about the root cause supports it with confidence, and none refutes it. -/
def Uncontested (root : Json) (verdicts : List Json) : Prop :=
  (∃ v ∈ verdicts, About root v ∧ Supports v ∧ Confident v) ∧
    ∀ v ∈ verdicts, About root v → ¬ Refutes v

/-- The root cause is the top-ranked service, or nothing is ranked. -/
def leads (services : List Json) (root : Json) : Bool := services.head?.all fun first => first.pyEq root

structure Gate (diagnosis : Diagnosis) (verdicts : List Json) : Prop where
  rooted : diagnosis.root.truthy = true
  leading : leads diagnosis.services diagnosis.root = true
  uncontested : Uncontested diagnosis.root verdicts

section
variable [FloatRepr] [Hashlib]

/-- The brief of the document offers a mutation through the gate only. -/
def Gated (uuids : ℕ → String) (result : Json) : Prop :=
  ∀ brief diagnosis verdicts, buildBrief uuids result = .ok brief →
    diagnose result = .ok diagnosis → verdictsOf result = .ok verdicts →
      (∀ primary, brief.primaryAction = some primary → primary.effect = .mutate →
        Gate diagnosis verdicts) ∧
      (¬ Gate diagnosis verdicts → ∀ a ∈ brief.actions, a.effect = .notify)

/-- The brief's own test fails, the catalog has no entry, or the verdicts are as the gate
asks. -/
def Harmless (result : Json) : Prop :=
  ∀ diagnosis verdicts faultType, diagnose result = .ok diagnosis → verdictsOf result = .ok verdicts →
    faultText diagnosis.faultType = .ok faultType →
      diagnosis.root.truthy = false ∨ leads diagnosis.services diagnosis.root = false ∨
      supportedRoot diagnosis.root verdicts = .ok false ∨
      catalogKey faultType diagnosis.signature = .ok [] ∨
      Uncontested diagnosis.root verdicts

omit [FloatRepr] [Hashlib] in
theorem diagnose_confident {result : Json} {diagnosis : Diagnosis}
    (read : diagnose result = .ok diagnosis) :
    ∃ verdicts supported, verdictsOf result = .ok verdicts ∧
      supportedRoot diagnosis.root verdicts = .ok supported ∧
      diagnosis.confident =
        (diagnosis.root.truthy && supported && leads diagnosis.services diagnosis.root) := by
  simp only [diagnose, bind_ok_iff, pure, Except.pure] at read
  obtain ⟨synthesis, -, named, -, rooted, -, faultType, -, listed, given, ranked, -, ranked', -,
    services, -, services', -, verdicts, iterated, found, -, supported, support, read⟩ := read
  split at read
  all_goals
    simp only [bind_ok_iff, Except.ok.injEq] at read
    obtain ⟨cited, -, signature, -, rfl⟩ := read
    refine ⟨verdicts, supported, bind_ok_iff.mpr ⟨listed, given, iterated⟩, support, ?_⟩
    cases services' <;> rfl

omit [FloatRepr] [Hashlib] in
theorem catalogKey_none {signature : Option String} {found : List CatalogRow}
    (looked : catalogKey none signature = .ok found) :
    found = [] ∨ ∃ token, catalogTable.lookup token = some found := by
  obtain rfl := Except.ok.inj looked
  cases hint : signature.bind fun name => signatureFallback.lookup name with
  | none => exact .inl rfl
  | some key =>
    cases entry : catalogTable.lookup key with
    | none => exact .inl (by simp [entry])
    | some rows => exact .inr ⟨key, by simp [entry]⟩

omit [FloatRepr] [Hashlib] in
/-- What is looked up is nothing or an entry of the catalog. -/
theorem catalogKey_cases {faultType signature : Option String} {found : List CatalogRow}
    (looked : catalogKey faultType signature = .ok found) :
    found = [] ∨ ∃ token, catalogTable.lookup token = some found := by
  cases faultType with
  | none => exact catalogKey_none looked
  | some faultType =>
    simp only [catalogKey] at looked
    split at looked
    · exact catalogKey_none looked
    · obtain ⟨word, -, searched⟩ := bind_ok_iff.mp looked
      simp only [pure_bind] at searched
      split at searched
      · rename_i rows matched
        obtain ⟨token, -, entry⟩ := List.exists_of_findSome?_eq_some matched
        obtain rfl := Except.ok.inj searched
        exact .inr ⟨_, entry⟩
      · exact catalogKey_none searched

omit [FloatRepr] [Hashlib] in
/-- What the catalog finds has a mutation. -/
theorem catalogKey_mutations {faultType signature : Option String} {found : List CatalogRow}
    (looked : catalogKey faultType signature = .ok found) (filled : found ≠ []) :
    0 < found.countP CatalogRow.mutates := by
  rcases catalogKey_cases looked with empty | ⟨token, entry⟩
  · exact absurd empty filled
  · rw [catalogTable_mutations _ (mem_keys_of_lookup entry)]
    split <;> decide

omit [FloatRepr] [Hashlib] in
theorem remedies_confident {diagnosis : Diagnosis} (confident : diagnosis.confident = true) :
    diagnosis.remedies = faultText diagnosis.faultType >>= fun faultType =>
      catalogKey faultType diagnosis.signature := by
  rw [Diagnosis.remedies, if_pos confident]

omit [FloatRepr] [Hashlib] in
theorem remedies_unsure {diagnosis : Diagnosis} (unsure : diagnosis.confident = false) :
    diagnosis.remedies = .ok [] := by
  rw [Diagnosis.remedies, if_neg (by simp [unsure])]

/-- A brief has a mutation exactly if the diagnosis has remedies. -/
theorem notifies_iff {uuids : ℕ → String} {result : Json} {brief : Brief} {diagnosis : Diagnosis}
    (built : buildBrief uuids result = .ok brief) (read : diagnose result = .ok diagnosis) :
    (∀ a ∈ brief.actions, a.effect = .notify) ↔ diagnosis.remedies = .ok [] := by
  obtain ⟨diagnosis', actions, read', suggested, perm⟩ := buildBrief_suggests built
  obtain rfl := Except.ok.inj (read.symm.trans read')
  obtain ⟨found, remedies, counts⟩ := suggest_countP suggested
  have quiet : (∀ a ∈ brief.actions, a.effect = .notify) ↔ found.countP CatalogRow.mutates = 0 := by
    rw [← counts, ← perm.countP_eq, List.countP_eq_zero]
    refine forall₂_congr fun a _ => ?_
    cases effect : a.effect <;> simp [mutates, effect]
  rw [quiet, remedies, Except.ok.injEq]
  constructor
  · intro none_
    by_contra filled
    cases sure : diagnosis.confident with
    | false =>
      rw [remedies_unsure sure] at remedies
      exact filled (Except.ok.inj remedies).symm
    | true =>
      rw [remedies_confident sure] at remedies
      obtain ⟨faultType, -, looked⟩ := bind_ok_iff.mp remedies
      have positive := catalogKey_mutations looked filled
      omega
  · rintro rfl
    rfl

theorem harmless_of_gated {uuids : ℕ → String} {result : Json}
    (returns : Returns (buildBrief uuids result)) (gated : Gated uuids result) : Harmless result := by
  obtain ⟨brief, built⟩ := returns
  intro diagnosis verdicts faultType read listed fault
  obtain ⟨verdicts', supported, listed', support, sure⟩ := diagnose_confident read
  obtain rfl := Except.ok.inj (listed.symm.trans listed')
  by_contra harm
  simp only [not_or, Bool.not_eq_false] at harm
  obtain ⟨rooted, leading, supporting, entry, contested⟩ := harm
  have backed : supported = true := by
    cases supported with
    | true => rfl
    | false => exact absurd support supporting
  have quiet := (gated brief diagnosis verdicts built read listed).2 fun gate =>
    contested gate.uncontested
  rw [notifies_iff built read, remedies_confident (by simp [sure, rooted, backed, leading]),
    fault] at quiet
  exact entry quiet

/-- With the gate shut, a harmless document is offered notifications only. -/
theorem notifies_of_harmless {uuids : ℕ → String} {result : Json} (harmless : Harmless result)
    {brief : Brief} {diagnosis : Diagnosis} {verdicts : List Json}
    (built : buildBrief uuids result = .ok brief) (read : diagnose result = .ok diagnosis)
    (listed : verdictsOf result = .ok verdicts) (shut : ¬ Gate diagnosis verdicts) :
    ∀ a ∈ brief.actions, a.effect = .notify := by
  rw [notifies_iff built read]
  obtain ⟨verdicts', supported, listed', support, sure⟩ := diagnose_confident read
  obtain rfl := Except.ok.inj (listed.symm.trans listed')
  cases confident : diagnosis.confident with
  | false => exact remedies_unsure confident
  | true =>
    obtain ⟨diagnosis', actions, read', suggested, -⟩ := buildBrief_suggests built
    obtain rfl := Except.ok.inj (read.symm.trans read')
    obtain ⟨found, remedies, -⟩ := suggest_countP suggested
    rw [remedies_confident confident] at remedies ⊢
    obtain ⟨faultType, fault, looked⟩ := bind_ok_iff.mp remedies
    rw [confident, eq_comm, Bool.and_eq_true, Bool.and_eq_true] at sure
    obtain ⟨⟨rooted, rfl⟩, leading⟩ := sure
    rw [fault]
    rcases harmless diagnosis verdicts faultType read listed fault with
      rootless | behind | unbacked | empty | uncontested
    · simp [rooted] at rootless
    · simp [leading] at behind
    · simp [support] at unbacked
    · exact empty
    · exact absurd ⟨rooted, leading, uncontested⟩ shut

/-- A brief that is built keeps to the gate exactly on the harmless documents. -/
theorem brief_gated_iff (uuids : ℕ → String) {result : Json} (returns : Returns (buildBrief uuids result)) :
    Gated uuids result ↔ Harmless result := by
  refine ⟨harmless_of_gated returns, ?_⟩
  intro harmless brief diagnosis verdicts built read listed
  have quiet := notifies_of_harmless harmless built read listed
  refine ⟨fun primary elected mutate => ?_, quiet⟩
  by_contra shut
  have notify := quiet shut primary (by simp [Brief.actions, elected])
  rw [mutate] at notify
  cases notify

end

section Samples
attribute [local instance] fractionRepr pinnedHashlib

/-- One worker is sure of a disk fault at checkout. -/
def certainResult : Json :=
  .dict [("run_id", .str "demo1"), ("root_cause_service", .str "checkout"),
    ("ranked_services", .list [.str "checkout", .str "payment"]),
    ("synthesis", .dict [("fault_type", .str "disk")]),
    ("verdicts", .list [
      .dict [("candidate_service", .str "payment"), ("supported", .bool false), ("confidence", .int 1)],
      .dict [("candidate_service", .str "checkout"), ("supported", .bool true), ("confidence", .int 1)]])]

theorem certain_gated : Gated tallies certainResult := by
  refine (brief_gated_iff tallies ⟨_, rfl⟩).mpr fun diagnosis verdicts faultType read listed _ => ?_
  obtain rfl := Except.ok.inj read
  obtain rfl := Except.ok.inj listed
  have threshold : confThreshold ≤ 1 := by
    have below := rnd_le_mul (by norm_num : (0 : ℚ) ≤ 34 / 100)
    rw [confThreshold]
    norm_num at below ⊢
    linarith
  refine .inr (.inr (.inr (.inr ⟨⟨_, List.mem_cons_of_mem _ List.mem_cons_self, rfl, ⟨_, rfl, rfl⟩,
    ⟨_, 1, rfl, rfl, threshold⟩⟩, ?_⟩)))
  intro verdict member isAbout refuting
  rcases List.mem_pair.mp member with rfl | rfl
  · cases isAbout
  · cases refuting

/-- One worker is barely sure of a disk fault at checkout, and another one refutes it. -/
def doubtedResult : Json :=
  .dict [("run_id", .str "demo1"), ("root_cause_service", .str "checkout"),
    ("ranked_services", .list [.str "checkout", .str "payment"]),
    ("synthesis", .dict [("fault_type", .str "disk")]),
    ("verdicts", .list [
      .dict [("candidate_service", .str "checkout"), ("supported", .bool true),
        ("confidence", .float (mkRat 1 8))],
      .dict [("candidate_service", .str "payment"), ("root_cause_service", .str "checkout"),
        ("supported", .bool false), ("confidence", .float (mkRat 7 8))]])]

/-- The doubted diagnosis is offered a restart. -/
theorem doubted_restart_elected : ¬ ∀ (uuids : ℕ → String) (result : Json), Gated uuids result := by
  intro gated
  obtain ⟨brief, built⟩ : Returns (buildBrief tallies doubtedResult) := ⟨_, rfl⟩
  obtain ⟨diagnosis, read⟩ : Returns (diagnose doubtedResult) := ⟨_, rfl⟩
  obtain ⟨verdicts, listed⟩ : Returns (verdictsOf doubtedResult) := ⟨_, rfl⟩
  have quiet := (gated tallies doubtedResult brief diagnosis verdicts built read listed).2 ?_
  · rw [notifies_iff built read] at quiet
    obtain rfl := Except.ok.inj read
    cases quiet
  · intro gate
    obtain rfl := Except.ok.inj read
    obtain rfl := Except.ok.inj listed
    exact gate.uncontested.2 _ (List.mem_cons_of_mem _ List.mem_cons_self) rfl rfl

end Samples

end Sentinel.Actions
