import Sentinel.Labs.Otel.Flagd

/-! The flags of a live incident. The injection sets the default variant of the flag and,
for a flag with a targeting rule, the variant of the rule's first branch; the reset sets
default variants only. -/
namespace Sentinel.Labs.Otel
open Python

/-- What the injection reads of a live scenario. -/
structure LiveScenarioSpec where
  id : String
  rawFlagKey : String
  variant : String
  targetingTrueVariant : Option String := none

/-- `v[1] = value`. In a dict the key 1 is written as a text. -/
def setSecond (v value : Json) : Py Json :=
  match v with
  | .list (first :: _ :: rest) => .ok (.list (first :: value :: rest))
  | .list _ => .error ⟨"IndexError", "list assignment index out of range", false⟩
  | .dict entries => .ok (.dict (assign "1" value entries))
  | v => .error ⟨"TypeError", s!"'{v.typeName}' object does not support item assignment", false⟩

/-- The edit of `set_targeting_true_variant` between its read and its write. -/
def setTargetingTrueVariant (document : Json) (rawFlagKey variant : String) : Py Json := do
  let unpatchable : Exn :=
    ⟨"RuntimeError", s!"flag {rawFlagKey} has no targeting rule to patch", false⟩
  let all := (document.lookup "flags").getD (.dict [])
  let flag ← all.get rawFlagKey
  if !flag.truthy then throw unpatchable
  if !(← (Json.str "targeting").isIn flag) then throw unpatchable
  let targeting ← flag.item "targeting"
  if !(← (Json.str "if").isIn targeting) then throw unpatchable
  let branches ← setSecond (← targeting.item "if") (.str variant)
  let targeting ← targeting.setItem "if" branches
  let flag ← flag.setItem "targeting" targeting
  let all ← all.setItem rawFlagKey flag
  document.setItem "flags" all

/-- The flag edits of `run_live_incident`. -/
def injectFault (document : Json) (spec : LiveScenarioSpec) : Py Json := do
  let document ← setFlagVariant document spec.rawFlagKey spec.variant
  match spec.targetingTrueVariant with
  | some variant => setTargetingTrueVariant document spec.rawFlagKey variant
  | none => pure document

/-- The document after the injection and the reset that remediates it. -/
def injectThenReset (document : Json) (spec : LiveScenarioSpec) : Py Json := do
  resetAllFlags (← injectFault document spec) "off"

/-- The targeting rule of the flag, if it has one, gives this variant on both branches. -/
def TargetsOnly (flag : Json) (variant : String) : Prop :=
  ∀ targeting, flag.lookup "targeting" = some targeting →
    targeting = .dict [] ∨
      ∃ condition, targeting.lookup "if" = some (.list [condition, .str variant, .str variant])

/-- Neither the default variant nor a branch of the targeting rule is another one. -/
structure IsOff (flag : Json) : Prop where
  default : flag.lookup "defaultVariant" = some (.str "off")
  targeting : TargetsOnly flag "off"

/-- All flags of the document are off. -/
def AllOff (document : Json) : Prop :=
  ∃ entries, document.lookup "flags" = some (.dict entries) ∧ ∀ entry ∈ entries, IsOff entry.2

/-- Every flag has an off variant, and every targeting rule gives it on both branches. -/
def Resettable (document : Json) : Prop :=
  ∃ entries, document.lookup "flags" = some (.dict entries) ∧
    ∀ entry ∈ entries, Offers entry.2 "off" ∧ TargetsOnly entry.2 "off"

/-- The flag, the variants and the targeting rule of the scenario exist. -/
def Known (spec : LiveScenarioSpec) (document : Json) : Prop :=
  ∃ flag, ((document.lookup "flags").getD .null).lookup spec.rawFlagKey = some flag ∧
    Offers flag spec.variant ∧ ∀ variant, spec.targetingTrueVariant = some variant →
      Offers flag variant ∧ ∃ targeting, flag.lookup "targeting" = some targeting ∧
        targeting ≠ .dict []

/-- The variant that flagd gives in a context, told by the conditions that hold in it. -/
def evaluate (holds : Json → Bool) (flag : Json) : Json :=
  match ((flag.lookup "targeting").getD .null).lookup "if" with
  | some (.list [condition, trueVariant, falseVariant]) =>
    if holds condition then trueVariant else falseVariant
  | _ => (flag.lookup "defaultVariant").getD .null

theorem IsOff.evaluate_eq {flag : Json} (off : IsOff flag) (holds : Json → Bool) :
    evaluate holds flag = .str "off" := by
  have default : (flag.lookup "defaultVariant").getD .null = .str "off" := by rw [off.default]; rfl
  unfold evaluate
  cases rule : flag.lookup "targeting" with
  | none => exact default
  | some targeting =>
    rcases off.targeting targeting rule with rfl | ⟨condition, both⟩
    · exact default
    · simp [both]

theorem forall_mem_assign {P : Json → Prop} {k : String} {v : Json} {entries : List (String × Json)}
    (each : ∀ entry ∈ entries, P entry.2) (new : P v) : ∀ entry ∈ assign k v entries, P entry.2 := by
  induction entries with
  | nil =>
    intro entry member
    rw [List.mem_singleton.mp member]
    exact new
  | cons first rest ih =>
    rw [List.forall_mem_cons] at each
    rw [assign]
    split
    · exact List.forall_mem_cons.mpr ⟨new, each.2⟩
    · exact List.forall_mem_cons.mpr ⟨each.1, ih each.2⟩

section
variable {flag : Json} {variant : String} {fields entries : List (String × Json)} {key : String}
  {condition : Json}

theorem TargetsOnly.withDefault {other : String} (only : TargetsOnly flag other) :
    TargetsOnly (withDefault flag variant) other := by
  intro targeting found
  rw [lookup_withDefault, if_neg (by decide)] at found
  exact only targeting found

/-- The flag with another variant on the first branch of its rule. -/
def withTrueVariant (flag : Json) (condition : Json) (variant : String) : Json :=
  .dict (assign "targeting" (.dict (assign "if" (.list [condition, .str variant, .str "off"])
    ((flag.lookup "targeting").getD .null).entries)) flag.entries)

theorem lookup_withTrueVariant (flag condition : Json) (variant field : String) :
    (withTrueVariant flag condition variant).lookup field =
      if field = "targeting" then
        some (.dict (assign "if" (.list [condition, .str variant, .str "off"])
          ((flag.lookup "targeting").getD .null).entries))
      else flag.lookup field := by
  simp only [withTrueVariant, Json.lookup, Json.entries, lookup_assign]

theorem isIn_dict {v : Json} (found : entries.lookup key = some v) :
    (Json.str key).isIn (.dict entries) = .ok true := by
  have member := mem_keys_of_lookup found
  simp only [Json.isIn, Json.hashable, if_true, Except.ok.injEq, List.any_eq_true]
  exact ⟨_, member, by simp [Json.pyEq]⟩

theorem setTargetingTrueVariant_ok (held : fields.lookup "flags" = some (.dict entries))
    (named : entries.lookup key = some flag) (isDict : flag.isDict = true)
    {targeting : Json} (rule : flag.lookup "targeting" = some targeting)
    (both : targeting.lookup "if" = some (.list [condition, .str "off", .str "off"])) :
    setTargetingTrueVariant (.dict fields) key variant =
      .ok (.dict (assign "flags"
        (.dict (assign key (withTrueVariant flag condition variant) entries)) fields)) := by
  cases flag with
  | dict flagFields =>
    cases targeting with
    | dict ruleFields =>
      have rule' : flagFields.lookup "targeting" = some (.dict ruleFields) := rule
      have both' : ruleFields.lookup "if" = some (.list [condition, .str "off", .str "off"]) := both
      have truthy : (Json.dict flagFields).truthy = true := by
        cases flagFields with
        | nil => cases rule'
        | cons => rfl
      simp [setTargetingTrueVariant, Json.lookup, Json.entries, held, Json.get, named, truthy,
        isIn_dict rule', isIn_dict both', Json.item, rule', both', setSecond, Json.setItem,
        withTrueVariant, bind, Except.bind]
    | _ => cases both
  | _ => cases isDict

theorem TargetsOnly.withTrueVariant (variant : String) (condition : Json) :
    TargetsOnly (withTrueVariant flag condition variant) "off" ↔ variant = "off" := by
  have rule := lookup_withTrueVariant flag condition variant "targeting"
  rw [if_pos rfl] at rule
  have branches : ((Json.dict (assign "if" (.list [condition, .str variant, .str "off"])
      ((flag.lookup "targeting").getD .null).entries)).lookup "if") =
        some (.list [condition, .str variant, .str "off"]) := by
    rw [Json.lookup, Json.entries, lookup_assign, if_pos rfl]
  constructor
  · intro only
    rcases only _ rule with empty | ⟨condition', both⟩
    · rw [empty] at branches
      cases branches
    · rw [branches] at both
      simp only [Option.some.injEq, Json.list.injEq, List.cons.injEq, Json.str.injEq] at both
      exact both.2.1
  · rintro rfl targeting found
    obtain rfl := Option.some.inj (rule.symm.trans found)
    exact .inr ⟨condition, branches⟩

theorem Offers.withTrueVariant {other : String} (offers : Offers flag other) (condition : Json) :
    Offers (withTrueVariant flag condition variant) other := by
  obtain ⟨variants, found, has⟩ := offers.variants
  refine ⟨rfl, variants, ?_, has⟩
  rw [lookup_withTrueVariant, if_neg (by decide), found]

/-- The reset sets every default variant and leaves the rules alone. -/
theorem resetAllFlags_off_iff (held : fields.lookup "flags" = some (.dict entries))
    (offers : ∀ entry ∈ entries, Offers entry.2 "off") :
    (∃ after, resetAllFlags (.dict fields) "off" = .ok after ∧ AllOff after) ↔
      ∀ entry ∈ entries, TargetsOnly entry.2 "off" := by
  have flags : (Json.dict (assign "flags" (.dict (entries.map fun entry =>
      (entry.1, withDefault entry.2 "off"))) fields)).lookup "flags" =
        some (.dict (entries.map fun entry => (entry.1, withDefault entry.2 "off"))) := by
    rw [Json.lookup, Json.entries, lookup_assign, if_pos rfl]
  rw [resetAllFlags_ok held offers]
  simp only [Except.ok.injEq, exists_eq_left', AllOff, flags, Option.some.injEq, Json.dict.injEq,
    List.forall_mem_map]
  refine forall₂_congr fun entry member => ?_
  constructor
  · intro off targeting found
    refine off.targeting targeting ?_
    rw [lookup_withDefault, if_neg (by decide), found]
  · intro only
    refine ⟨?_, only.withDefault⟩
    rw [lookup_withDefault, if_pos rfl]

end

theorem dict_of_lookup {document : Json} {key : String} {v : Json}
    (found : document.lookup key = some v) :
    ∃ fields, document = .dict fields ∧ fields.lookup key = some v := by
  cases document with
  | dict fields => exact ⟨fields, rfl, found⟩
  | _ => cases found

/-- The reset undoes the injection exactly where the injection leaves the rules alone. -/
theorem reset_undoes_injection_iff (document : Json) (spec : LiveScenarioSpec)
    (resettable : Resettable document) (known : Known spec document) :
    (∃ after, injectThenReset document spec = .ok after ∧ AllOff after) ↔
      ∀ variant, spec.targetingTrueVariant = some variant → variant = "off" := by
  obtain ⟨entries, listed, off⟩ := resettable
  obtain ⟨fields, rfl, held⟩ := dict_of_lookup listed
  obtain ⟨flag, named, offers, rule⟩ := known
  rw [listed] at named
  replace named : entries.lookup spec.rawFlagKey = some flag := named
  have own := off _ (mem_keys_of_lookup named)
  let entries' := assign spec.rawFlagKey (withDefault flag spec.variant) entries
  let fields' := assign "flags" (.dict entries') fields
  have held' : fields'.lookup "flags" = some (.dict entries') := by
    rw [lookup_assign, if_pos rfl]
  have off' : ∀ entry ∈ entries', Offers entry.2 "off" ∧ TargetsOnly entry.2 "off" :=
    forall_mem_assign (P := fun flag => Offers flag "off" ∧ TargetsOnly flag "off") off
      ⟨own.1.afterDefault, own.2.withDefault⟩
  have set := setFlagVariant_ok held named offers
  cases targeted : spec.targetingTrueVariant with
  | none =>
    have injected : injectThenReset (.dict fields) spec = resetAllFlags (.dict fields') "off" := by
      simp only [injectThenReset, injectFault, set, targeted]
      rfl
    rw [injected, resetAllFlags_off_iff held' fun entry member => (off' entry member).1]
    simp only [reduceCtorEq, false_implies, implies_true, iff_true]
    exact fun entry member => (off' entry member).2
  | some variant =>
    obtain ⟨-, targeting, ruled, nonempty⟩ := rule variant targeted
    obtain ⟨condition, both⟩ := (own.2 targeting ruled).resolve_left nonempty
    have named' : entries'.lookup spec.rawFlagKey = some (withDefault flag spec.variant) := by
      rw [lookup_assign, if_pos rfl]
    have ruled' : (withDefault flag spec.variant).lookup "targeting" = some targeting := by
      rw [lookup_withDefault, if_neg (by decide), ruled]
    let patched := withTrueVariant (withDefault flag spec.variant) condition variant
    let entries'' := assign spec.rawFlagKey patched entries'
    let fields'' := assign "flags" (.dict entries'') fields'
    have rewritten : setTargetingTrueVariant (.dict fields') spec.rawFlagKey variant =
        .ok (.dict fields'') :=
      setTargetingTrueVariant_ok held' named' rfl ruled' both
    have held'' : fields''.lookup "flags" = some (.dict entries'') := by
      rw [lookup_assign, if_pos rfl]
    have offers'' : ∀ entry ∈ entries'', Offers entry.2 "off" :=
      forall_mem_assign (P := fun flag => Offers flag "off") (fun entry member => (off' entry member).1)
        (own.1.afterDefault.withTrueVariant condition)
    have injected : injectThenReset (.dict fields) spec = resetAllFlags (.dict fields'') "off" := by
      have edited : injectFault (.dict fields) spec = .ok (.dict fields'') := by
        simp only [injectFault, set, targeted]
        exact rewritten
      rw [injectThenReset, edited]
      rfl
    rw [injected, resetAllFlags_off_iff held'' offers'']
    simp only [Option.some.injEq, forall_eq']
    have branches : TargetsOnly patched "off" ↔ variant = "off" :=
      TargetsOnly.withTrueVariant variant condition
    rw [← branches]
    constructor
    · intro only
      have inside : entries''.lookup spec.rawFlagKey = some patched := by
        rw [lookup_assign, if_pos rfl]
      exact only _ (mem_keys_of_lookup inside)
    · intro only
      exact forall_mem_assign (P := fun flag => TargetsOnly flag "off")
        (fun entry member => (off' entry member).2) only

section Sample

/-- The flag of the product catalog, with a rule whose first branch is given. -/
def catalogFlags (trueVariant : String) : Json :=
  .dict [("flags", .dict [("productCatalogFailure", .dict
    [("variants", .dict [("on", .bool true), ("off", .bool false)]), ("defaultVariant", .str "off"),
      ("targeting", .dict [("if", .list [.dict [("==", .list [.str "product_id", .str "OLJCESPC7Z"])],
        .str trueVariant, .str "off"])])])])]

def productCatalogFailure (targetingTrueVariant : Option String) : LiveScenarioSpec where
  id := "product_catalog_failure_live_001"
  rawFlagKey := "productCatalogFailure"
  variant := "on"
  targetingTrueVariant := targetingTrueVariant

theorem catalogFlags_resettable : Resettable (catalogFlags "off") := by
  refine ⟨_, rfl, ?_⟩
  intro entry member
  rw [List.mem_singleton.mp member]
  refine ⟨⟨rfl, _, rfl, by decide⟩, ?_⟩
  rintro targeting ⟨⟩
  exact .inr ⟨_, rfl⟩

theorem productCatalogFailure_known {targeted : Option String} (on : ∀ v ∈ targeted, v = "on") :
    Known (productCatalogFailure targeted) (catalogFlags "off") := by
  have offered : hasVariant (.dict [("on", .bool true), ("off", .bool false)]) "on" = true := by
    decide
  refine ⟨_, rfl, ⟨rfl, _, rfl, offered⟩, ?_⟩
  intro variant named
  rw [on variant named]
  exact ⟨⟨rfl, _, rfl, offered⟩, _, rfl, by simp⟩

theorem reset_undoes_default : ∃ after, injectThenReset (catalogFlags "off")
    (productCatalogFailure none) = .ok after ∧ AllOff after :=
  (reset_undoes_injection_iff _ _ catalogFlags_resettable
    (productCatalogFailure_known (by simp))).mpr (by simp [productCatalogFailure])

/-- The rule that the injection rewrote survives the reset. -/
theorem rule_survives_reset : ¬ ∀ (document : Json) (spec : LiveScenarioSpec),
    Resettable document → Known spec document →
      ∃ after, injectThenReset document spec = .ok after ∧ AllOff after := by
  intro undone
  obtain ⟨after, returned, entries, listed, off⟩ := undone _ (productCatalogFailure (some "on"))
    catalogFlags_resettable (productCatalogFailure_known (by simp))
  have result : injectThenReset (catalogFlags "off") (productCatalogFailure (some "on")) =
      .ok (catalogFlags "on") := rfl
  obtain rfl := Except.ok.inj (result.symm.trans returned)
  cases listed
  rcases (off _ List.mem_cons_self).targeting _ rfl with empty | ⟨condition, both⟩
  · cases empty
  · have branches := Option.some.inj both
    simp at branches

end Sample

end Sentinel.Labs.Otel
