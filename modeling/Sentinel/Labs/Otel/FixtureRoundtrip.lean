import Sentinel.Fixtures.Replay
import Sentinel.Labs.Otel.Seal

/-! A fixture that is written is read back. The loader finds each document that the writer
dumped, with its keys sorted, and puts the rows into its own order. -/
namespace Sentinel.Labs.Otel
open Python Fixtures Tools Transition

/-! ### One file -/

theorem oneLine_compact [FloatRepr] (v : Json) : OneLine (Layout.compact.dumps 0 v) := by
  intro c member
  have plain := printable_not_break (Layout.compact_written.dumps 0 v c member)
  refine ⟨?_, ?_⟩ <;> rintro rfl <;> exact absurd plain (by decide)

/-- The lines that a loader keeps of a file of dumped objects. -/
theorem rowLines_jsonlText [FloatRepr] {path : Path} {disk : Disk} {rows : List Json}
    (stored : disk.files.get? path = some (jsonlText rows)) (objects : ∀ row ∈ rows, row.isDict = true) :
    rowLines path disk = rows.map fun row => Layout.compact.dumps 0 (sortKeys row) ++ ['\n'] := by
  have text : jsonlText rows = (rows.map fun row => Layout.compact.dumps 0 (sortKeys row)).flatMap
      fun line => line ++ ['\n'] := by
    rw [List.flatMap_map]
    rfl
  have lines : ∀ line ∈ rows.map fun row => Layout.compact.dumps 0 (sortKeys row), OneLine line := by
    intro line member
    obtain ⟨row, -, rfl⟩ := List.mem_map.mp member
    exact oneLine_compact _
  unfold rowLines
  rw [stored, text]
  change (textLines _).filter _ = _
  rw [textLines_lines lines, List.map_map]
  refine List.filter_eq_self.mpr fun line member => ?_
  obtain ⟨row, inRows, rfl⟩ := List.mem_map.mp member
  obtain ⟨c, cs, opens, visible⟩ : ∃ c cs, Layout.compact.dumps 0 (sortKeys row) ++ ['\n'] = c :: cs ∧
      isSpace c = false := by
    cases row with
    | dict entries =>
      rw [sortKeys]
      rcases sortEntries (sortValues entries) with _ | ⟨⟨k, v⟩, rest⟩
      · exact ⟨'{', _, rfl, by decide⟩
      · exact ⟨'{', _, rfl, by decide⟩
    | _ => cases objects _ inRows
  simpa [opens] using strip_ne_nil visible

section
variable [FloatRepr] [FloatReader]

theorem loads_compact {v : Json} (keyed : v.keyed = true) :
    loads (Layout.compact.dumps 0 (sortKeys v) ++ ['\n']) = .ok (sortKeys v) :=
  Layout.loads_dumps_keyed Layout.spaced_compact (keyed_sortKeys v keyed) (by simp [isJsonSpace])

theorem loadJsonl_jsonlText {α : Type} {path : Path} {disk : Disk} {rows : List α} {dump : α → Json}
    {validate : Json → Validated α} {f : α → α}
    (stored : disk.files.get? path = some (jsonlText (rows.map dump)))
    (objects : ∀ row, (dump row).isDict = true) (keyed : ∀ row ∈ rows, (dump row).keyed = true)
    (valid : ∀ row, validate (sortKeys (dump row)) = .ok (f row)) :
    loadJsonl path validate disk = .ok (rows.map f) := by
  have objects' : ∀ v ∈ rows.map dump, v.isDict = true := by
    intro v member
    obtain ⟨row, -, rfl⟩ := List.mem_map.mp member
    exact objects row
  rw [loadJsonl, rowLines_jsonlText stored objects', List.map_map, List.mapM_map]
  refine mapM_eq_map fun row member => ?_
  change (loads (Layout.compact.dumps 0 (sortKeys (dump row)) ++ ['\n']) >>= fun v =>
    validated (validate v)) = _
  rw [loads_compact (keyed row member)]
  change validated (validate (sortKeys (dump row))) = _
  rw [valid row]
  rfl

theorem loadJsonlDicts_jsonlText {path : Path} {disk : Disk} {rows : List (List (String × Json))}
    (stored : disk.files.get? path = some (jsonlText (rows.map .dict)))
    (keyed : ∀ row ∈ rows, (Json.dict row).keyed = true) :
    loadJsonlDicts path disk = .ok (rows.map sortedDict) := by
  have objects : ∀ v ∈ rows.map Json.dict, v.isDict = true := by
    intro v member
    obtain ⟨row, -, rfl⟩ := List.mem_map.mp member
    rfl
  rw [loadJsonlDicts, rowLines_jsonlText stored objects, List.map_map, List.mapM_map]
  refine mapM_eq_map fun row member => ?_
  change (loads (Layout.compact.dumps 0 (sortKeys (.dict row)) ++ ['\n']) >>= _) = _
  rw [loads_compact (keyed row member)]
  rfl

theorem loadJson_jsonText {α : Type} {path : Path} {disk : Disk} {v : Json}
    {validate : Json → Validated α} {a : α} (stored : disk.files.get? path = some (jsonText v))
    (keyed : v.keyed = true) (valid : validate (sortKeys v) = .ok a) :
    loadJson path validate disk = .ok a := by
  have unchanged : ∀ c ∈ jsonText v, c ≠ '\r' := by
    intro c member
    rcases List.mem_append.mp member with inside | last
    · rcases (Layout.indented_written 2).dumps 0 (sortKeys v) c inside with printable | rfl
      · rintro rfl
        exact absurd (printable_not_break printable) (by decide)
      · decide
    · rw [List.mem_singleton.mp last]
      decide
  have read : loads (jsonText v) = .ok (sortKeys v) :=
    Layout.loads_dumps_keyed (Layout.spaced_indented 2) (keyed_sortKeys v keyed) (by simp [isJsonSpace])
  rw [loadJson, stored]
  change (loads (universalNewlines (jsonText v)) >>= fun v => validated (validate v)) = _
  rw [universalNewlines_eq_self unchanged, read]
  change validated (validate (sortKeys v)) = _
  rw [valid]
  rfl

end

/-! ### The directory -/

/-- The directories and the files outside one directory are as they were. -/
def Untouched (dir : Path) (before after : Disk) : Prop :=
  after.directories = before.directories ∧
    ∀ path, ¬ dir <+: path → after.files.get? path = before.files.get? path

theorem untouched_refl (dir : Path) (disk : Disk) : Untouched dir disk disk := ⟨rfl, fun _ _ => rfl⟩

theorem untouched_trans (dir : Path) (u v w : Disk) (first : Untouched dir u v)
    (second : Untouched dir v w) : Untouched dir u w :=
  ⟨second.1.trans first.1, fun path outside => (second.2 path outside).trans (first.2 path outside)⟩

section
variable [FloatRepr]

theorem moves_writeJson (dir : Path) (name : String) (value : Json) :
    Calls.Moves (Untouched dir) (writeJson (dir ++ [name]) value) := by
  intro s
  refine ⟨rfl, fun path outside => (get?_write s.1 _ _ _).trans (if_neg ?_)⟩
  rintro rfl
  exact outside (List.prefix_append _ _)

theorem moves_writeEvalOnlyJson (dir : Path) (name : String) (value : List (String × Json)) :
    Calls.Moves (Untouched dir) (writeEvalOnlyJson dir name value) := by
  unfold writeEvalOnlyJson
  split_ifs with invalid
  · exact Calls.moves_lift (untouched_refl dir) _
  · exact moves_writeJson dir name _

/-- The private files stay in their directory. -/
theorem moves_writeEvalOnly (dir : Path) (fixture : FixtureContents) :
    Calls.Moves (Untouched dir) (writeEvalOnly dir fixture) := by
  refine Calls.Moves.bind (untouched_trans dir) (moves_writeJson dir _ _) fun _ => ?_
  have artifacts : Calls.Moves (Untouched dir) (Calls.forEach
      (fun (artifact : String × List (String × Json)) => writeEvalOnlyJson dir artifact.1 artifact.2)
      fixture.evalOnlyJson >>= fun _ => pure ()) := by
    refine Calls.Moves.bind (untouched_trans dir) ?_ fun _ => Calls.moves_pure (untouched_refl dir) _
    refine Calls.moves_forEach (untouched_refl dir) (untouched_trans dir) ?_ _
    exact fun artifact => moves_writeEvalOnlyJson dir artifact.1 artifact.2
  cases fixture.injectionLog with
  | none => exact artifacts
  | some injectionLog =>
    exact Calls.Moves.bind (untouched_trans dir) (moves_writeJson dir _ _) fun _ => artifacts

/-- What a call that returns leaves of the public files. -/
theorem written_public {scenarioDir : Path} {fixture : FixtureContents} {disk disk' : Disk}
    {written : List Path} (returned : writeFixture scenarioDir fixture (disk, []) = (.ok (), disk', written)) :
    scenarioDir ++ ["public"] ∈ disk'.directories ∧
      ∀ file ∈ publicFiles (scenarioDir ++ ["public"]) fixture, disk'.files.get? file.1 = some file.2 := by
  have same : fixture.manifest.scenarioId = fixture.truth.scenarioId := by
    by_contra differ
    rw [writeFixture, checkScenarioIds, if_pos differ] at returned
    cases returned
  rw [writeFixture_apply same] at returned
  have moved := moves_writeEvalOnly (scenarioDir ++ ["eval_only"]) fixture
    (published scenarioDir fixture disk, (publicFiles (scenarioDir ++ ["public"]) fixture).map Prod.fst)
  cases scanned : assertNoBannedTokens (scenarioDir ++ ["public"]) (published scenarioDir fixture disk) with
  | error e =>
    rw [scanned] at returned
    cases returned
  | ok u =>
    rw [scanned] at returned
    change writeEvalOnly _ fixture _ = _ at returned
    rw [returned] at moved
    constructor
    · rw [moved.1, published, directories_writeAll, mem_directories_mkdir, mem_directories_mkdir]
      exact .inl (.inr List.prefix_rfl)
    · intro file member
      have outside : ¬ scenarioDir ++ ["eval_only"] <+: file.1 := by
        obtain ⟨name, place⟩ := publicFiles_under (List.mem_map_of_mem member)
        rw [place, List.append_assoc, List.prefix_append_right_inj]
        simp
      rw [moved.2 file.1 outside]
      exact get?_writeAll (publicFiles_distinct _ _) member _

/-- What the loader makes of the fixture: the keys of each document are sorted, and the rows
are in its own order. -/
def FixtureContents.loaded (root : Path) (fixture : FixtureContents) : LoadedFixture where
  root
  manifest := fixture.manifest.sorted
  metrics := sortedBy Replay.metricKey ((sortedBy metricKey fixture.metrics).map MetricRow.sorted)
  logs := sortedBy Replay.logKey ((sortedBy logKey fixture.logs).map LogRow.sorted)
  traces := sortedBy Replay.traceKey ((sortedBy traceKey fixture.traces).map TraceRow.sorted)
  changes := sortedBy Replay.changeKey (sortedBy changeKey fixture.changes)
  runbooks := sortedBy Replay.runbookKey (fixture.runbooks.map sortedDict)

variable [FloatReader] [LaxNumbers]

/-- A fixture that is written is loaded with every row it was given. -/
theorem load_written_fixture {scenarioDir : Path} {fixture : FixtureContents} {disk disk' : Disk}
    {written : List Path} (resolved : "eval_only" ∉ scenarioDir ∧ "raw" ∉ scenarioDir)
    (keyed : ∀ document ∈ fixture.publicDocuments, document.keyed = true)
    (returned : writeFixture scenarioDir fixture (disk, []) = (.ok (), disk', written)) :
    loadPublicFixture (scenarioDir ++ ["public"]) disk' =
      .ok (fixture.loaded (scenarioDir ++ ["public"])) := by
  obtain ⟨directory, stored⟩ := written_public returned
  simp only [publicFiles, List.forall_mem_cons] at stored
  obtain ⟨manifest, metrics, logs, traces, changes, runbooks, -⟩ := stored
  simp only [FixtureContents.publicDocuments, List.forall_mem_cons, List.forall_mem_append,
    List.forall_mem_map] at keyed
  obtain ⟨manifestKeyed, metricsKeyed, logsKeyed, tracesKeyed, changesKeyed, runbooksKeyed⟩ := keyed
  have sorted {α κ : Type} [LinearOrder κ] {key : α → κ} {rows : List α} {dump : α → Json}
      (each : ∀ row ∈ rows, (dump row).keyed = true) :
      ∀ row ∈ sortedBy key rows, (dump row).keyed = true := fun row member =>
    each row ((sortedBy_perm key rows).mem_iff.mp member)
  have root : requirePublicDir (scenarioDir ++ ["public"]) disk' = .ok (scenarioDir ++ ["public"]) := by
    have named : (scenarioDir ++ ["public"]).getLast? = some "public" := List.getLast?_concat
    have sealed : ¬ ("eval_only" ∈ scenarioDir ++ ["public"] ∨ "raw" ∈ scenarioDir ++ ["public"]) := by
      simp [resolved]
    rw [requirePublicDir, if_neg (not_not.mpr named), if_neg sealed,
      if_pos (List.contains_iff_mem.mpr directory)]
  rw [loadPublicFixture, root]
  change (loadJsonl _ MetricRow.validate disk' >>= fun metrics =>
    loadJsonl _ LogRow.validate disk' >>= fun logs =>
    loadJsonl _ TraceRow.validate disk' >>= fun traces =>
    loadJsonl _ ChangeEvent.validate disk' >>= fun changes =>
    loadJsonlDicts _ disk' >>= fun runbooks =>
    loadJson _ PublicManifest.validate disk' >>= _) = _
  rw [loadJsonl_jsonlText metrics (fun _ => rfl) (sorted metricsKeyed) MetricRow.validate_dump,
    loadJsonl_jsonlText logs (fun _ => rfl) (sorted logsKeyed) LogRow.validate_dump,
    loadJsonl_jsonlText traces (fun _ => rfl) (sorted tracesKeyed) TraceRow.validate_dump,
    loadJsonl_jsonlText changes (fun _ => rfl) (sorted changesKeyed) ChangeEvent.validate_dump,
    loadJsonlDicts_jsonlText runbooks runbooksKeyed,
    loadJson_jsonText manifest manifestKeyed (PublicManifest.validate_dump _), List.map_id']
  rfl

end

/-! ### A fixture on a disk -/

/-- The fixture is written, and loaded with its rows in the loader's order. -/
theorem checkout_fixture_loaded : ∃ disk written,
    @writeFixture fractionRepr ["scenario"] (checkoutFixture "checkout errors rose" (by decide))
        (⟨[], .empty⟩, []) = (.ok (), disk, written) ∧
      @loadPublicFixture fractionRepr fractionReader plainNumbers (["scenario"] ++ ["public"]) disk =
        .ok (@FixtureContents.loaded fractionRepr (["scenario"] ++ ["public"])
          (checkoutFixture "checkout errors rose" (by decide))) := by
  have passes : (@writeFixture fractionRepr ["scenario"]
      (checkoutFixture "checkout errors rose" (by decide)) (⟨[], .empty⟩, [])).1.toBool = true := by
    decide +kernel
  generalize run : @writeFixture fractionRepr ["scenario"]
    (checkoutFixture "checkout errors rose" (by decide)) (⟨[], .empty⟩, []) = outcome at passes
  obtain ⟨_ | _, disk, written⟩ := outcome
  · cases passes
  · exact ⟨disk, written, rfl, @load_written_fixture fractionRepr fractionReader plainNumbers _ _ _ _ _
      (by decide) (by decide) run⟩

end Sentinel.Labs.Otel
