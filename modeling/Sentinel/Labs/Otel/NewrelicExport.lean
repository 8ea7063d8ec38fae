import Sentinel.Python.Iteration
import Sentinel.Python.LayoutRoundtrip

/-! The collector's extra configuration for New Relic. The collector merges its config
files in order, dict by dict, and replaces lists, so the extra file restates every
pipeline it adds an exporter to. -/
namespace Sentinel.Labs.Otel
open Python

def exporterName : String := "otlphttp/newrelic"
def deltaProcessor : String := "cumulativetodelta"
def nrSignals : List String := ["traces", "metrics", "logs"]

/-- `merge_configs`. -/
def mergeConfigs (layers : List Json) : Json := layers.foldl deepMerge (.dict [])

/-- `if name not in xs: xs.append(name)`. -/
def appendMissing (name : String) (xs : List Json) : List Json :=
  if xs.any (Json.pyEq (.str name)) then xs else xs ++ [.str name]

/-- The names listed under a key, with one more. -/
def listing (pipeline : Json) (key name : String) : Py Json := do
  pure (.list (appendMissing name (← (← pipeline.getElse key (.list [])).elements)))

def startsWith (name mark : String) : Bool := mark.toList.isPrefixOf name.toList

/-- `name.startswith(_NR_SIGNALS)`. -/
def exported (name : String) : Bool := nrSignals.any (startsWith name)

def isMetrics (name : String) : Bool := startsWith name "metrics"

/-- A pipeline as the extra file restates it. -/
def restate (entry : String × Json) : Py (String × Json) := do
  let exporters ← listing entry.2 "exporters" exporterName
  let restated ← entry.2.setItem "exporters" exporters
  if isMetrics entry.1 then
    let processors ← listing restated "processors" deltaProcessor
    pure (entry.1, ← restated.setItem "processors" processors)
  else pure (entry.1, restated)

/-- The extra file, for the pipelines it restates. -/
def extrasFor (pipelines : List (String × Json)) (licenseKey : String) : Json :=
  .dict [
    ("exporters", .dict [(exporterName, .dict [
      ("endpoint", .str "https://otlp.nr-data.net"),
      ("headers", .dict [("api-key", .str licenseKey)])])]),
    ("processors", .dict [(deltaProcessor, .dict [])]),
    ("service", .dict [("pipelines", .dict pipelines)])]

def buildExtras (mergedConfig : Json) (licenseKey : String) : Py Json := do
  let pipelines ← (← (← mergedConfig.item "service").item "pipelines").pairs
  let restated ← (pipelines.filter fun entry => exported entry.1).mapM restate
  pure (extrasFor restated licenseKey)

/-- Where the extra file sets a value of its own. -/
inductive Written (config : Json) : List String → Prop where
  | endpoint : Written config ["exporters", exporterName, "endpoint"]
  | apiKey : Written config ["exporters", exporterName, "headers", "api-key"]
  | exporters {name} : exported name = true →
      (config.dig ["service", "pipelines", name]).isSome = true →
      Written config ["service", "pipelines", name, "exporters"]
  | processors {name} : exported name = true → isMetrics name = true →
      (config.dig ["service", "pipelines", name]).isSome = true →
      Written config ["service", "pipelines", name, "processors"]

/-- A path apart from those values, and from the dicts that hold them. -/
structure Elsewhere (config : Json) (path : List String) : Prop where
  apart : ∀ place, Written config place → ¬ place <+: path ∧ ¬ path <+: place
  delta : ¬ path <+: ["processors", deltaProcessor]
  service : ¬ path <+: ["service", "pipelines"]

/-! ### What the extra file restates -/

section
variable {pipeline : Json} {name key : String} {entry : String × Json}

/-- The fields of a pipeline that the extra file restates from another. -/
structure Restates (name : String) (old fields : List (String × Json)) : Prop where
  exporters : ∃ xs, Json.elements ((old.lookup "exporters").getD (.list [])) = .ok xs ∧
    fields.lookup "exporters" = some (.list (appendMissing exporterName xs))
  processors : isMetrics name = true → ∃ xs,
    Json.elements ((old.lookup "processors").getD (.list [])) = .ok xs ∧
    fields.lookup "processors" = some (.list (appendMissing deltaProcessor xs))
  others : ∀ field, field ≠ "exporters" → ¬ (isMetrics name = true ∧ field = "processors") →
    fields.lookup field = old.lookup field

theorem listing_ok {old : List (String × Json)} {listed : Json}
    (ok : listing (.dict old) key name = .ok listed) :
    ∃ xs, Json.elements ((old.lookup key).getD (.list [])) = .ok xs ∧
      listed = .list (appendMissing name xs) := by
  obtain ⟨v, got, ok⟩ := bind_ok_iff.mp ok
  obtain ⟨xs, read, same⟩ := bind_ok_iff.mp ok
  cases got
  cases same
  exact ⟨xs, read, rfl⟩

theorem keyed_listing {old : List (String × Json)} {listed : Json}
    (keyed : (Json.dict old).keyed = true) (ok : listing (.dict old) key name = .ok listed) :
    listed.keyed = true := by
  obtain ⟨xs, read, rfl⟩ := listing_ok ok
  simp only [Json.keyed, Bool.and_eq_true] at keyed
  have plain : itemsKeyed xs = true := by
    refine keyed_elements ?_ read
    cases found : old.lookup key with
    | none => rfl
    | some v => exact keyed_of_lookup keyed.2 found
  rw [Json.keyed, appendMissing]
  split_ifs
  · exact plain
  · exact itemsKeyed_append plain rfl

/-- A pipeline that is no dict cannot be restated. -/
theorem restate_dict (ok : restate (name, pipeline) = .ok entry) : ∃ old, pipeline = .dict old := by
  obtain ⟨_, listed, _⟩ := bind_ok_iff.mp ok
  obtain ⟨_, got, _⟩ := bind_ok_iff.mp listed
  cases pipeline with
  | dict old => exact ⟨old, rfl⟩
  | _ => cases got

theorem restate_spec {old : List (String × Json)} (keyed : (Json.dict old).keyed = true)
    (ok : restate (name, .dict old) = .ok entry) :
    entry.1 = name ∧ entry.2.keyed = true ∧ ∃ fields, entry.2 = .dict fields ∧
      Restates name old fields := by
  obtain ⟨exporters, listed, ok⟩ := bind_ok_iff.mp ok
  obtain ⟨xs, read, rfl⟩ := listing_ok listed
  obtain ⟨w, held, ok⟩ := bind_ok_iff.mp ok
  cases held
  have plain := keyed_assign keyed "exporters" (keyed_listing keyed listed)
  split_ifs at ok with metrics
  · obtain ⟨processors, listedToo, ok⟩ := bind_ok_iff.mp ok
    obtain ⟨ys, readToo, rfl⟩ := listing_ok listedToo
    cases ok
    refine ⟨rfl, keyed_assign plain "processors" (keyed_listing plain listedToo), _, rfl, ?_⟩
    rw [lookup_assign, if_neg (by decide)] at readToo
    constructor
    · exact ⟨xs, read, by simp [lookup_assign]⟩
    · exact fun _ => ⟨ys, readToo, by simp [lookup_assign]⟩
    · intro field notExporters notProcessors
      have apart : field ≠ "processors" := fun same => notProcessors ⟨metrics, same⟩
      simp [lookup_assign, notExporters, apart]
  · cases ok
    refine ⟨rfl, plain, _, rfl, ?_⟩
    constructor
    · exact ⟨xs, read, by simp [lookup_assign]⟩
    · exact fun isTrue => absurd isTrue metrics
    · intro field notExporters _
      simp [lookup_assign, notExporters]

end

theorem restate_name {entry out : String × Json} (ok : restate entry = .ok out) : out.1 = entry.1 := by
  obtain ⟨_, _, ok⟩ := bind_ok_iff.mp ok
  obtain ⟨_, _, ok⟩ := bind_ok_iff.mp ok
  split_ifs at ok
  · obtain ⟨_, _, ok⟩ := bind_ok_iff.mp ok
    obtain ⟨_, _, ok⟩ := bind_ok_iff.mp ok
    cases ok
    rfl
  · cases ok
    rfl

theorem restated_names {entries restated : List (String × Json)}
    (ok : entries.mapM restate = .ok restated) : restated.map Prod.fst = entries.map Prod.fst := by
  have related := mapM_ok_iff.mp ok
  clear ok
  induction related with
  | nil => rfl
  | cons first _ ih => rw [List.map_cons, List.map_cons, restate_name first, ih]

/-- The pipelines of a configuration and what the extra file makes of them. -/
structure Extras (config : Json) (pipelines restated : List (String × Json)) : Prop where
  service : ∃ service, config.lookup "service" = some service ∧
    service.lookup "pipelines" = some (.dict pipelines)
  keyed : (Json.dict pipelines).keyed = true
  mapped : (pipelines.filter fun entry => exported entry.1).mapM restate = .ok restated

theorem buildExtras_ok {config extras : Json} {licenseKey : String} (keyed : config.keyed = true)
    (built : buildExtras config licenseKey = .ok extras) : ∃ pipelines restated,
      Extras config pipelines restated ∧ extras = extrasFor restated licenseKey := by
  obtain ⟨service, first, built⟩ := bind_ok_iff.mp built
  obtain ⟨held, second, built⟩ := bind_ok_iff.mp built
  obtain ⟨pipelines, items, built⟩ := bind_ok_iff.mp built
  obtain ⟨restated, mapped, same⟩ := bind_ok_iff.mp built
  cases same
  have isDict : held = .dict pipelines := by
    cases held with
    | dict entries =>
      cases items
      rfl
    | _ => cases items
  subst isDict
  refine ⟨pipelines, restated, ⟨⟨service, Json.item_ok first, Json.item_ok second⟩, ?_, mapped⟩, rfl⟩
  exact Json.keyed_lookup (Json.keyed_lookup keyed (Json.item_ok first)) (Json.item_ok second)

section
variable {config : Json} {pipelines restated : List (String × Json)} {name : String} {v : Json}

theorem Extras.unique (extras : Extras config pipelines restated) : (restated.map Prod.fst).Nodup := by
  have keyed := extras.keyed
  simp only [Json.keyed, Bool.and_eq_true, decide_eq_true_eq] at keyed
  rw [restated_names extras.mapped]
  exact keyed.1.sublist (List.filter_sublist.map _)

theorem Extras.restated_of (extras : Extras config pipelines restated)
    (found : restated.lookup name = some v) : exported name = true ∧ ∃ old fields,
      pipelines.lookup name = some (.dict old) ∧ (Json.dict old).keyed = true ∧
        v = .dict fields ∧ v.keyed = true ∧ Restates name old fields := by
  obtain ⟨entry, member, ok⟩ := (mem_of_mapM extras.mapped _).mp (mem_keys_of_lookup found)
  rw [List.mem_filter] at member
  obtain ⟨was, pipeline⟩ := entry
  obtain rfl : name = was := restate_name ok
  have keyed := extras.keyed
  simp only [Json.keyed, Bool.and_eq_true, decide_eq_true_eq] at keyed
  have held := lookup_of_mem keyed.1 member.1
  have plain := keyed_of_lookup keyed.2 held
  obtain ⟨old, rfl⟩ := restate_dict ok
  obtain ⟨-, fresh, fields, same, restates⟩ := restate_spec plain ok
  exact ⟨member.2, old, fields, held, plain, same, fresh, restates⟩

theorem Extras.restates (extras : Extras config pipelines restated) (isExported : exported name = true)
    (held : pipelines.lookup name = some v) : ∃ w, restated.lookup name = some w := by
  have member : (name, v) ∈ pipelines.filter fun entry => exported entry.1 :=
    List.mem_filter.mpr ⟨mem_keys_of_lookup held, isExported⟩
  obtain ⟨⟨was, w⟩, ok⟩ := mapM_returns_iff.mp ⟨restated, extras.mapped⟩ _ member
  obtain rfl : was = name := restate_name ok
  exact ⟨w, lookup_of_mem extras.unique ((mem_of_mapM extras.mapped _).mpr ⟨_, member, ok⟩)⟩

theorem Extras.keyed_extrasFor (extras : Extras config pipelines restated) (licenseKey : String) :
    (extrasFor restated licenseKey).keyed = true := by
  have plain : entriesKeyed restated = true := by
    rw [entriesKeyed_iff]
    intro entry member
    obtain ⟨-, _, _, -, -, -, fresh, -⟩ := extras.restated_of (lookup_of_mem extras.unique member)
    exact fresh
  simp [extrasFor, Json.keyed, entriesKeyed, extras.unique, plain]

/-! ### What the extra file leaves alone -/

variable {path rest : List String} {licenseKey : String}

/-- A dict with one key has no say below any other. -/
theorem agrees_single {base : Json} {key : String} (keyed : v.keyed = true)
    (nonempty : key = name → rest ≠ []) (each : key = name → ∀ w, Json.Agrees rest w v) :
    Json.Agrees (key :: rest) base (.dict [(name, v)]) := by
  by_cases same : key = name
  · subst same
    exact .always (by simp) keyed (nonempty rfl) (each rfl)
  · exact .absent (by simp [List.lookup_cons, beq_false_of_ne same])

theorem prefix_cons_iff {key : String} {xs ys : List String} : key :: xs <+: key :: ys ↔ xs <+: ys := by
  simp

theorem agrees_headers {base : Json} (apart : ¬ ["headers", "api-key"] <+: rest)
    (beyond : ¬ rest <+: ["headers", "api-key"]) (endpoint : ¬ ["endpoint"] <+: rest) :
    Json.Agrees rest base (.dict [("endpoint", .str "https://otlp.nr-data.net"),
      ("headers", .dict [("api-key", .str licenseKey)])]) := by
  cases rest with
  | nil => exact absurd List.nil_prefix beyond
  | cons key rest =>
    have notEndpoint : key ≠ "endpoint" := by
      rintro rfl
      exact endpoint (by simp)
    by_cases isHeaders : key = "headers"
    · subst isHeaders
      rw [prefix_cons_iff] at apart beyond
      refine .always rfl rfl ?_ fun _ => ?_
      · rintro rfl
        exact beyond List.nil_prefix
      cases rest with
      | nil => exact absurd List.nil_prefix beyond
      | cons key rest =>
        refine agrees_single rfl ?_ ?_ <;> rintro rfl <;> exact absurd (by simp) apart
    · exact .absent (by simp [List.lookup_cons, beq_false_of_ne notEndpoint, beq_false_of_ne isHeaders])

theorem Elsewhere.agrees_exporters (elsewhere : Elsewhere config ("exporters" :: rest)) :
    Json.Agrees ("exporters" :: rest) config (extrasFor restated licenseKey) := by
  have endpoint := elsewhere.apart _ .endpoint
  have apiKey := elsewhere.apart _ .apiKey
  rw [prefix_cons_iff, prefix_cons_iff] at endpoint apiKey
  refine .always rfl rfl ?_ fun _ => ?_
  · rintro rfl
    exact endpoint.2 List.nil_prefix
  cases rest with
  | nil => exact absurd List.nil_prefix endpoint.2
  | cons key rest =>
    refine agrees_single rfl ?_ ?_
    · rintro rfl rfl
      exact endpoint.2 (by simp)
    · rintro rfl _
      rw [prefix_cons_iff, prefix_cons_iff] at endpoint apiKey
      exact agrees_headers apiKey.1 apiKey.2 endpoint.1

theorem Elsewhere.agrees_processors (elsewhere : Elsewhere config ("processors" :: rest)) :
    Json.Agrees ("processors" :: rest) config (extrasFor restated licenseKey) := by
  have delta := elsewhere.delta
  rw [prefix_cons_iff] at delta
  refine .always rfl rfl ?_ fun _ => ?_
  · rintro rfl
    exact delta List.nil_prefix
  cases rest with
  | nil => exact absurd List.nil_prefix delta
  | cons key rest =>
    refine agrees_single rfl ?_ ?_
    · rintro rfl rfl
      exact delta (by simp)
    · rintro rfl _
      cases rest with
      | nil => exact absurd (by simp) delta
      | cons _ _ => exact .absent rfl

theorem dig_pipeline (extras : Extras config pipelines restated) (name : String) :
    config.dig ["service", "pipelines", name] = pipelines.lookup name := by
  obtain ⟨service, found, held⟩ := extras.service
  rw [Json.dig, found, Option.bind_some, Json.dig, held, Option.bind_some, Json.dig]
  exact Option.bind_fun_some _

theorem Elsewhere.agrees_pipeline (extras : Extras config pipelines restated)
    (elsewhere : Elsewhere config ("service" :: "pipelines" :: name :: rest)) :
    Json.Agrees (name :: rest) (.dict pipelines) (.dict restated) := by
  cases found : restated.lookup name with
  | none => exact .absent found
  | some v =>
    obtain ⟨isExported, old, fields, held, keyed, rfl, -, restates⟩ := extras.restated_of found
    have known : (config.dig ["service", "pipelines", name]).isSome = true := by
      rw [dig_pipeline extras, held]
      rfl
    have exporters := elsewhere.apart _ (.exporters isExported known)
    iterate 3 rw [prefix_cons_iff, prefix_cons_iff] at exporters
    cases rest with
    | nil => exact absurd List.nil_prefix exporters.2
    | cons field rest =>
      have kept : fields.lookup field = old.lookup field := by
        apply restates.others
        · rintro rfl
          exact exporters.1 (by simp)
        · rintro ⟨metrics, rfl⟩
          exact (elsewhere.apart _ (.processors isExported metrics known)).1 (by simp)
      refine .inside found held ?_
      cases here : fields.lookup field with
      | none => exact .absent here
      | some w =>
        rw [Json.keyed, Bool.and_eq_true] at keyed
        rw [kept] at here
        exact .inside (kept.trans here) here (.same _ _ (keyed_of_lookup keyed.2 here))

theorem Elsewhere.agrees_service (extras : Extras config pipelines restated)
    (elsewhere : Elsewhere config ("service" :: rest)) :
    Json.Agrees ("service" :: rest) config (extrasFor restated licenseKey) := by
  obtain ⟨service, found, held⟩ := extras.service
  refine .inside rfl found ?_
  cases rest with
  | nil => exact absurd (by simp) elsewhere.service
  | cons key rest =>
    by_cases isPipelines : key = "pipelines"
    · subst isPipelines
      refine .inside rfl held ?_
      cases rest with
      | nil => exact absurd (by simp) elsewhere.service
      | cons name rest => exact elsewhere.agrees_pipeline extras
    · exact .absent (by simp [List.lookup_cons, beq_false_of_ne isPipelines])

theorem Elsewhere.agrees (extras : Extras config pipelines restated)
    (elsewhere : Elsewhere config path) :
    Json.Agrees path config (extrasFor restated licenseKey) := by
  cases path with
  | nil => exact absurd List.nil_prefix elsewhere.delta
  | cons key rest =>
    by_cases isExporters : key = "exporters"
    · subst isExporters
      exact elsewhere.agrees_exporters
    by_cases isProcessors : key = "processors"
    · subst isProcessors
      exact elsewhere.agrees_processors
    by_cases isService : key = "service"
    · subst isService
      exact elsewhere.agrees_service extras
    · exact .absent (by simp [List.lookup_cons, beq_false_of_ne, isExporters, isProcessors, isService])

end

/-! ### The configuration the collector runs with -/

theorem keyed_mergeConfigs {layers : List Json} (keyed : ∀ layer ∈ layers, layer.keyed = true) :
    (mergeConfigs layers).keyed = true := by
  have fold : ∀ base : Json, base.keyed = true → (layers.foldl deepMerge base).keyed = true := by
    induction layers with
    | nil => exact fun _ base => base
    | cons layer rest ih =>
      rw [List.forall_mem_cons] at keyed
      exact fun base held => ih keyed.2 _ (keyed_deepMerge base layer held keyed.1)
  exact fold _ rfl

theorem mergeConfigs_concat (layers : List Json) (extras : Json) :
    mergeConfigs (layers ++ [extras]) = deepMerge (mergeConfigs layers) extras := by
  rw [mergeConfigs, List.foldl_append]
  rfl

/-- A pipeline of the final configuration lists what it listed, and one more name. -/
def Joined (before after : Json) (name key added : String) : Prop :=
  ∀ pipeline, before.dig ["service", "pipelines", name] = some pipeline →
    ∃ xs, Json.elements ((pipeline.lookup key).getD (.list [])) = .ok xs ∧
      after.dig ["service", "pipelines", name, key] = some (.list (appendMissing added xs))

theorem Extras.dig_field {config : Json} {pipelines restated fields : List (String × Json)}
    {name field licenseKey : String} {v : Json} (extras : Extras config pipelines restated)
    (found : restated.lookup name = some (.dict fields)) (held : fields.lookup field = some v)
    (leaf : v.isDict = false) :
    (deepMerge config (extrasFor restated licenseKey)).dig ["service", "pipelines", name, field] =
      some v := by
  refine dig_override (extras.keyed_extrasFor licenseKey) ?_ leaf
  change (restated.lookup name).bind (fun w => (w.lookup field).bind some) = some v
  rw [found]
  exact congrArg (fun u => Option.bind u some) held

/-- The extra file streams every trace, metric and log pipeline to New Relic, once, and
changes nothing else of what the collector is configured to do. -/
theorem extras_only_add (layers : List Json) (keyed : ∀ layer ∈ layers, layer.keyed = true)
    (licenseKey : String) (extras : Json)
    (built : buildExtras (mergeConfigs layers) licenseKey = .ok extras) :
    (∀ path, Elsewhere (mergeConfigs layers) path →
      (mergeConfigs (layers ++ [extras])).dig path = (mergeConfigs layers).dig path) ∧
    (∀ name, exported name = true →
      Joined (mergeConfigs layers) (mergeConfigs (layers ++ [extras])) name "exporters" exporterName) ∧
    (∀ name, exported name = true → isMetrics name = true →
      Joined (mergeConfigs layers) (mergeConfigs (layers ++ [extras])) name "processors" deltaProcessor) ∧
    (mergeConfigs (layers ++ [extras])).dig ["exporters", exporterName, "endpoint"] =
      some (.str "https://otlp.nr-data.net") ∧
    (mergeConfigs (layers ++ [extras])).dig ["exporters", exporterName, "headers", "api-key"] =
      some (.str licenseKey) ∧
    ((mergeConfigs (layers ++ [extras])).dig ["processors", deltaProcessor]).isSome = true := by
  rw [mergeConfigs_concat]
  obtain ⟨pipelines, restated, parts, rfl⟩ := buildExtras_ok (keyed_mergeConfigs keyed) built
  have plain := parts.keyed_extrasFor licenseKey
  have restate : ∀ name pipeline, exported name = true →
      (mergeConfigs layers).dig ["service", "pipelines", name] = some pipeline →
      ∃ old fields, pipeline = .dict old ∧ restated.lookup name = some (.dict fields) ∧
        Restates name old fields := by
    intro name pipeline isExported held
    rw [dig_pipeline parts] at held
    obtain ⟨w, found⟩ := parts.restates isExported held
    obtain ⟨-, old, fields, before, -, rfl, -, restates⟩ := parts.restated_of found
    exact ⟨old, fields, Option.some.inj (held.symm.trans before), found, restates⟩
  refine ⟨?_, ?_, ?_, ?_, ?_, ?_⟩
  · intro path elsewhere
    exact dig_deepMerge plain (elsewhere.agrees parts)
  · intro name isExported pipeline held
    obtain ⟨old, fields, rfl, found, restates⟩ := restate name pipeline isExported held
    obtain ⟨xs, read, listed⟩ := restates.exporters
    exact ⟨xs, read, parts.dig_field found listed rfl⟩
  · intro name isExported metrics pipeline held
    obtain ⟨old, fields, rfl, found, restates⟩ := restate name pipeline isExported held
    obtain ⟨xs, read, listed⟩ := restates.processors metrics
    exact ⟨xs, read, parts.dig_field found listed rfl⟩
  · exact dig_override plain rfl rfl
  · exact dig_override plain rfl rfl
  · exact isSome_dig_override plain rfl

/-- A collector configuration with a traces pipeline. -/
def tracesLayer : Json := .dict [
  ("exporters", .dict [("otlp/jaeger", .dict [("endpoint", .str "jaeger:4317")])]),
  ("service", .dict [("pipelines", .dict [
    ("traces", .dict [("receivers", .list [.str "otlp"]), ("exporters", .list [.str "otlp/jaeger"])]),
    ("profiles", .dict [("exporters", .list [.str "otlp/pyroscope"])])])])]

/-- A later layer adds a metrics pipeline and replaces the exporters of the first. -/
def metricsLayer : Json := .dict [
  ("service", .dict [("pipelines", .dict [
    ("traces", .dict [("exporters", .list [.str "otlp/jaeger", .str "debug"])]),
    ("metrics", .dict [("exporters", .list [.str "otlphttp/prometheus"])])])])]

def exportedPipelines : List (String × Json) := [
  ("traces", .dict [("receivers", .list [.str "otlp"]),
    ("exporters", .list [.str "otlp/jaeger", .str "debug", .str exporterName])]),
  ("metrics", .dict [("exporters", .list [.str "otlphttp/prometheus", .str exporterName]),
    ("processors", .list [.str deltaProcessor])])]

theorem layered_config_streams :
    Joined (mergeConfigs [tracesLayer, metricsLayer])
      (mergeConfigs ([tracesLayer, metricsLayer] ++ [extrasFor exportedPipelines "key"]))
      "traces" "exporters" exporterName :=
  (extras_only_add [tracesLayer, metricsLayer] (by decide) "key"
    (extrasFor exportedPipelines "key") (by rfl)).2.1 "traces" (by decide)

end Sentinel.Labs.Otel
