import Mathlib.Data.Bool.AllAny
import Sentinel.Labs.Otel.Writer
import Sentinel.Python.JsonProofs

/-! The seal of a fixture. However rows are sorted, serialised and split into lines, the
scan finds a banned token of any of their strings, and what it finds keeps the truth from
being written. -/
namespace Sentinel.Labs.Otel
open Python Fixtures Transition

/-- A token that is written as it is, on one line. -/
structure Shown (t : List Char) : Prop where
  nonempty : t ≠ []
  unescaped : ∀ c ∈ t, escape c = [c]
  oneLine : OneLine t

theorem bannedPublicTokens_shown : ∀ token ∈ bannedPublicTokens, Shown token.toList := by
  have plain : ∀ token ∈ bannedPublicTokens, token.toList ≠ [] ∧
      (token.toList.all fun c => escape c = [c] ∧ c ≠ '\n' ∧ c ≠ '\r') := by
    decide +kernel
  intro token member
  obtain ⟨nonempty, all⟩ := plain token member
  have each := List.all_iff_forall_prop.mp all
  exact ⟨nonempty, fun c inToken => (each c inToken).1, fun c inToken => (each c inToken).2⟩

/-! ### The scan -/

theorem mem_iterPublicFiles {root path : Path} {disk : Disk} {paths : List Path}
    (listed : iterPublicFiles root disk = .ok paths) :
    path ∈ paths ↔ path ∈ disk.files.keys ∧ root <+: path ∧ path ≠ root := by
  unfold iterPublicFiles at listed
  split_ifs at listed
  obtain rfl := Except.ok.inj listed
  simp

/-- A token in a public file is found. -/
theorem findings_of_token {publicDir path : Path} {disk : Disk} {text : List Char} {token : String}
    {bannedTokens : List String} {findings : List RedactionFinding}
    (scanned : findBannedTokens publicDir bannedTokens disk = .ok findings)
    (stored : disk.files.get? path = some text) (under : publicDir <+: path ∧ path ≠ publicDir)
    (member : token ∈ bannedTokens) (shown : Shown token.toList) (found : token.toList <:+: text) :
    findings ≠ [] := by
  obtain ⟨paths, listed, collected⟩ := bind_ok_iff.mp scanned
  obtain rfl := Except.ok.inj collected
  have file : path ∈ paths := by
    refine (mem_iterPublicFiles listed).mpr ⟨?_, under⟩
    exact List.mem_map.mpr ⟨_, disk.files.mem_items_iff.mpr stored, rfl⟩
  obtain ⟨line, inFile, inLine⟩ := infix_textLines shown.nonempty shown.oneLine found
  obtain ⟨n, within, here⟩ := List.mem_iff_getElem.mp inFile
  have numbered : (line, n + 1) ∈ (textLines (disk.text path)).zipIdx 1 := by
    rw [Disk.text, stored, Option.getD_some, List.mk_mem_zipIdx_iff_le_and_getElem?_sub,
      Nat.add_sub_cancel, ← here]
    exact ⟨Nat.le_add_left 1 n, List.getElem?_eq_getElem within⟩
  have listedToken : (⟨path, token, n + 1⟩ : RedactionFinding) ∈
      lineFindings bannedTokens path (line, n + 1) :=
    List.mem_map.mpr ⟨token, List.mem_filter.mpr ⟨member, decide_eq_true inLine⟩, rfl⟩
  apply List.ne_nil_of_mem
  exact List.mem_flatMap.mpr ⟨path, file, List.mem_flatMap.mpr ⟨_, numbered, listedToken⟩⟩

/-! ### The files -/

theorem get?_write (disk : Disk) (path other : Path) (text : List Char) :
    (disk.write path text).files.get? other =
      if other = path then some text else disk.files.get? other :=
  Dict.get?_set _ _ _ _

/-- The disk after the files are written one after another. -/
def Disk.writeAll (files : List (Path × List Char)) (disk : Disk) : Disk :=
  files.foldl (fun disk file => disk.write file.1 file.2) disk

theorem get?_writeAll_other {files : List (Path × List Char)} {path : Path}
    (other : path ∉ files.map Prod.fst) (disk : Disk) :
    (disk.writeAll files).files.get? path = disk.files.get? path := by
  induction files generalizing disk with
  | nil => rfl
  | cons file rest ih =>
    simp only [List.map_cons, List.mem_cons, not_or] at other
    refine (ih other.2 _).trans ?_
    rw [get?_write, if_neg other.1]

theorem get?_writeAll {files : List (Path × List Char)} (distinct : (files.map Prod.fst).Nodup)
    {file : Path × List Char} (member : file ∈ files) (disk : Disk) :
    (disk.writeAll files).files.get? file.1 = some file.2 := by
  induction files generalizing disk with
  | nil => cases member
  | cons first rest ih =>
    rw [List.map_cons, List.nodup_cons] at distinct
    rcases List.mem_cons.mp member with rfl | later
    · refine (get?_writeAll_other distinct.1 _).trans ?_
      rw [get?_write, if_pos rfl]
    · exact ih distinct.2 later _

@[simp] theorem directories_writeAll (files : List (Path × List Char)) (disk : Disk) :
    (disk.writeAll files).directories = disk.directories := by
  induction files generalizing disk with
  | nil => rfl
  | cons file rest ih => exact ih _

theorem mem_directories_mkdir {path other : Path} {disk : Disk} :
    other ∈ (disk.mkdir path).directories ↔ other ∈ disk.directories ∨ other <+: path := by
  simp only [Disk.mkdir, List.mem_append, List.mem_filter, List.mem_inits, decide_eq_true_eq]
  tauto

section
variable [FloatRepr]

/-- The public files with their texts. -/
def publicFiles (publicDir : Path) (fixture : FixtureContents) : List (Path × List Char) :=
  [(publicDir ++ ["manifest.json"], jsonText fixture.manifest.modelDump),
    (publicDir ++ ["metrics.jsonl"],
      jsonlText ((sortedBy metricKey fixture.metrics).map MetricRow.modelDump)),
    (publicDir ++ ["logs.jsonl"], jsonlText ((sortedBy logKey fixture.logs).map LogRow.modelDump)),
    (publicDir ++ ["traces.jsonl"],
      jsonlText ((sortedBy traceKey fixture.traces).map TraceRow.modelDump)),
    (publicDir ++ ["changes.jsonl"],
      jsonlText ((sortedBy changeKey fixture.changes).map ChangeEvent.modelDump)),
    (publicDir ++ ["runbooks.jsonl"], jsonlText (fixture.runbooks.map .dict))]

/-- The disk when it is scanned. -/
def published (scenarioDir : Path) (fixture : FixtureContents) (disk : Disk) : Disk :=
  ((disk.mkdir (scenarioDir ++ ["public"])).mkdir (scenarioDir ++ ["eval_only"])).writeAll
    (publicFiles (scenarioDir ++ ["public"]) fixture)

theorem writeFixture_apply {scenarioDir : Path} {fixture : FixtureContents}
    (same : fixture.manifest.scenarioId = fixture.truth.scenarioId) (disk : Disk) :
    writeFixture scenarioDir fixture (disk, []) =
      match assertNoBannedTokens (scenarioDir ++ ["public"]) (published scenarioDir fixture disk) with
      | .ok _ => writeEvalOnly (scenarioDir ++ ["eval_only"]) fixture
        (published scenarioDir fixture disk,
          (publicFiles (scenarioDir ++ ["public"]) fixture).map Prod.fst)
      | .error e => (.error e, published scenarioDir fixture disk,
        (publicFiles (scenarioDir ++ ["public"]) fixture).map Prod.fst) := by
  have checked : checkScenarioIds fixture = .ok () := by
    rw [checkScenarioIds, if_neg (not_not.mpr same)]
  rw [writeFixture, checked]
  change ((Calls.call fun disk => (assertNoBannedTokens _ disk, disk)) >>= fun _ =>
    writeEvalOnly _ fixture) (published scenarioDir fixture disk, _) = _
  rw [Calls.bind_apply, Calls.call]
  cases assertNoBannedTokens (scenarioDir ++ ["public"]) (published scenarioDir fixture disk) <;> rfl

theorem publicFiles_distinct (publicDir : Path) (fixture : FixtureContents) :
    ((publicFiles publicDir fixture).map Prod.fst).Nodup := by
  simp [publicFiles]

theorem publicFiles_under {publicDir : Path} {fixture : FixtureContents} {path : Path}
    (member : path ∈ (publicFiles publicDir fixture).map Prod.fst) :
    ∃ name, path = publicDir ++ [name] := by
  simp only [publicFiles, List.map_cons, List.map_nil, List.mem_cons, List.not_mem_nil, or_false] at member
  rcases member with rfl | rfl | rfl | rfl | rfl | rfl
  all_goals exact ⟨_, rfl⟩

/-- The public directory is there when it is scanned. -/
theorem published_scan (scenarioDir : Path) (fixture : FixtureContents) (disk : Disk) :
    Returns (findBannedTokens (scenarioDir ++ ["public"]) bannedPublicTokens
      (published scenarioDir fixture disk)) := by
  have exists_ : scenarioDir ++ ["public"] ∈ (published scenarioDir fixture disk).directories := by
    rw [published, directories_writeAll, mem_directories_mkdir, mem_directories_mkdir]
    exact .inl (.inr List.prefix_rfl)
  have named : (scenarioDir ++ ["public"]).getLast? = some "public" := List.getLast?_concat
  rw [findBannedTokens, iterPublicFiles, if_neg (not_not.mpr named), if_neg (not_not.mpr exists_)]
  exact returns_ok _

/-! ### The strings of the fixture -/

/-- The manifest, the rows and the runbooks, as they are dumped. -/
def FixtureContents.publicDocuments (fixture : FixtureContents) : List Json :=
  fixture.manifest.modelDump :: (fixture.metrics.map MetricRow.modelDump ++
    (fixture.logs.map LogRow.modelDump ++ (fixture.traces.map TraceRow.modelDump ++
      (fixture.changes.map ChangeEvent.modelDump ++ fixture.runbooks.map .dict))))

/-- Some string of the manifest or of a row, a key or a value, holds a banned token. -/
def FixtureContents.Leaks (fixture : FixtureContents) : Prop :=
  ∃ document ∈ fixture.publicDocuments, ∃ s ∈ document.strings, ∃ token ∈ bannedPublicTokens,
    token.toList <:+: s.toList

theorem infix_jsonText {v : Json} {s : String} {t : List Char} (shown : Shown t)
    (member : s ∈ v.strings) (found : t <:+: s.toList) : t <:+: jsonText v :=
  List.infix_append_of_infix_left (infix_dumps_sortKeys _ shown.unescaped member found)

theorem infix_jsonlText {rows : List Json} {row : Json} {s : String} {t : List Char}
    (shown : Shown t) (inRows : row ∈ rows) (member : s ∈ row.strings) (found : t <:+: s.toList) :
    t <:+: jsonlText rows := by
  refine List.IsInfix.trans ?_ (List.infix_of_mem_flatten (List.mem_map.mpr ⟨row, inRows, rfl⟩))
  exact List.infix_append_of_infix_left (infix_dumps_sortKeys _ shown.unescaped member found)

/-- Every document is written to a public file. -/
theorem document_written (publicDir : Path) {fixture : FixtureContents} {document : Json} {s : String}
    {t : List Char} (shown : Shown t) (stored : document ∈ fixture.publicDocuments)
    (member : s ∈ document.strings) (found : t <:+: s.toList) :
    ∃ file ∈ publicFiles publicDir fixture, t <:+: file.2 := by
  have sorted {α κ : Type} [LinearOrder κ] {key : α → κ} {rows : List α} {dump : α → Json}
      (inRows : document ∈ rows.map dump) : t <:+: jsonlText ((sortedBy key rows).map dump) := by
    refine infix_jsonlText shown ?_ member found
    exact ((sortedBy_perm key rows).map dump).mem_iff.mpr inRows
  simp only [FixtureContents.publicDocuments, List.mem_cons, List.mem_append] at stored
  simp only [publicFiles, List.exists_mem_cons_iff]
  rcases stored with rfl | metric | log | trace | change | runbook
  · exact .inl (infix_jsonText shown member found)
  · exact .inr (.inl (sorted metric))
  · exact .inr (.inr (.inl (sorted log)))
  · exact .inr (.inr (.inr (.inl (sorted trace))))
  · exact .inr (.inr (.inr (.inr (.inl (sorted change)))))
  · exact .inr (.inr (.inr (.inr (.inr (.inl (infix_jsonlText shown runbook member found))))))

/-- A fixture that leaks is stopped before anything private is written. -/
theorem stopped_of_leak (scenarioDir : Path) {fixture : FixtureContents} (disk : Disk)
    (same : fixture.manifest.scenarioId = fixture.truth.scenarioId) (leaks : fixture.Leaks) :
    ∃ findings, writeFixture scenarioDir fixture (disk, []) =
      (.error (redactionError findings), published scenarioDir fixture disk,
        (publicFiles (scenarioDir ++ ["public"]) fixture).map Prod.fst) := by
  obtain ⟨document, stored, s, member, token, banned, found⟩ := leaks
  have shown := bannedPublicTokens_shown token banned
  obtain ⟨file, written, inText⟩ := document_written (scenarioDir ++ ["public"]) shown stored member found
  obtain ⟨findings, scanned⟩ := published_scan scenarioDir fixture disk
  have nonempty : findings ≠ [] := by
    obtain ⟨name, place⟩ := publicFiles_under (List.mem_map_of_mem written)
    refine findings_of_token scanned (get?_writeAll (publicFiles_distinct _ _) written _) ?_
      banned shown inText
    rw [place]
    exact ⟨List.prefix_append _ _, by simp⟩
  refine ⟨findings, ?_⟩
  have raised : assertNoBannedTokens (scenarioDir ++ ["public"]) (published scenarioDir fixture disk) =
      .error (redactionError findings) := by
    have isEmpty : findings.isEmpty = false := by simpa using nonempty
    rw [assertNoBannedTokens, scanned]
    simp [bind, Except.bind, isEmpty, throw, throwThe, MonadExceptOf.throw]
  rw [writeFixture_apply same, raised]

/-- A call that returns has written no banned token of any string. A call whose rows or
manifest hold one raises, and has written no private file. -/
theorem fixture_sealed (scenarioDir : Path) (fixture : FixtureContents) (disk : Disk)
    (same : fixture.manifest.scenarioId = fixture.truth.scenarioId) :
    (Calls.Returns (writeFixture scenarioDir fixture) (disk, []) → ¬ fixture.Leaks) ∧
      (fixture.Leaks → ∃ findings after written,
        writeFixture scenarioDir fixture (disk, []) =
          (.error (redactionError findings), after, written) ∧
        (∀ path ∈ written, ¬ scenarioDir ++ ["eval_only"] <+: path) ∧
        ∀ path, scenarioDir ++ ["eval_only"] <+: path →
          after.files.get? path = disk.files.get? path) := by
  refine ⟨?_, fun leaks => ?_⟩
  · rintro ⟨_, _, returned⟩ leaks
    obtain ⟨findings, raised⟩ := stopped_of_leak scenarioDir disk same leaks
    rw [raised] at returned
    cases returned
  · obtain ⟨findings, raised⟩ := stopped_of_leak scenarioDir disk same leaks
    have outside : ∀ path ∈ (publicFiles (scenarioDir ++ ["public"]) fixture).map Prod.fst,
        ¬ scenarioDir ++ ["eval_only"] <+: path := by
      intro path member under
      obtain ⟨name, rfl⟩ := publicFiles_under member
      rw [List.append_assoc, List.prefix_append_right_inj] at under
      simp at under
    refine ⟨findings, _, _, raised, outside, fun path under => ?_⟩
    exact get?_writeAll_other (fun member => outside path member under) _

end

/-- A fixture with rows of each kind, not in the order in which they are written. -/
def checkoutFixture (symptom : String) (named : symptom ≠ "") : FixtureContents where
  manifest :=
    { scenarioId := "scenario_001", source := "opentelemetry-demo", timeUnit := "second"
      window := { start := 0, stop := 120 }, symptom
      availableSignals := ["metrics", "logs", "traces", "changes"]
      alerts := [
        { alertname := "CheckoutFailureRate", severity := .critical, startsAtSecond := 90
          labels := [("tier", "user_facing")], value := mkRat 1 4, expr := "sum(rate(...))"
          fingerprint := "ab12cd34ef56ab78" }]
      named := ⟨by decide, by decide, by decide, named⟩
      firing := List.cons_ne_nil _ _ }
  metrics :=
    [{ time := 90, service := "checkout", metric := "error_rate", value := mkRat 1 4, unit := "ratio" },
      { time := 0, service := "checkout", metric := "error_rate", value := 0, unit := "ratio" }]
  logs :=
    [{ time := 91, service := "checkout", severity := "ERROR", message := "charge failed"
       traceId := some "t1", attributes := [("pod", .str "checkout-1"), ("attempt", .int 2)] }]
  traces :=
    [{ traceId := "t1", spanId := "s2", parentSpanId := some "s1", time := 91, service := "payment"
       operation := "Charge", durationMs := 5, status := "ERROR" },
      { traceId := "t1", spanId := "s1", time := 91, service := "checkout", operation := "PlaceOrder"
        durationMs := 8, status := "ERROR", attributes := [("span.kind", .str "server")] }]
  changes :=
    [{ id := "chg_0001", time := 80, service := "payment", kind := "deploy", summary := "new gateway" }]
  truth :=
    { scenarioId := "scenario_001"
      injection := { rawFlagKey := "paymentUnreachable", variant := "on", enabledAtSecond := 90 }
      rootCause :=
        { kind := "edge", type := "dependency_unreachable", caller := some "checkout"
          callee := some "payment" }
      culpritChangeId := "chg_0001", expectedEvidence := ["checkout errors"]
      decoyChangeIds := ["chg_0002"] }

theorem leaking_manifest_stopped : ∃ findings after written,
    @writeFixture fractionRepr ["scenario"]
        (checkoutFixture "paymentUnreachable happened" (by decide)) (⟨[], .empty⟩, []) =
      (.error (redactionError findings), after, written) := by
  have leaks : (checkoutFixture "paymentUnreachable happened" (by decide)).Leaks := by
    refine ⟨_, List.mem_cons_self, "paymentUnreachable happened", ?_, "paymentUnreachable", ?_, ?_⟩
    · simp [checkoutFixture, PublicManifest.modelDump, Json.strings, entryStrings]
    · decide
    · exact ⟨[], " happened".toList, by decide⟩
  obtain ⟨findings, after, written, raised, -⟩ :=
    (@fixture_sealed fractionRepr ["scenario"] _ ⟨[], .empty⟩ rfl).2 leaks
  exact ⟨findings, after, written, raised⟩

end Sentinel.Labs.Otel
