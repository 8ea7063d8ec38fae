import Sentinel.Python.FloatText
import Sentinel.Python.Grouping
import Sentinel.Python.LayoutRoundtrip
import Sentinel.Python.RecordLog
import Sentinel.Sequences.Latest

/-! The charts of a run. Every poll asks for the metrics of its services, and its answer is
journaled; a replay shows at any moment the answer that was the newest then. -/
namespace Sentinel.LiveLab
open Python Sequences

abbrev Row := List (String × Json)

/-- A time in milliseconds and a value. -/
abbrev Point := ℤ × ℚ

/-- The service a row is about. -/
def facetOf (row : Row) : Json :=
  let facet : Json := match (row.lookup "facet").getD .null with
    | .list [] => .null
    | .list (first :: _) => first
    | facet => facet
  match facet with
  | .null =>
    let container := (row.lookup "container.name").getD .null
    if container.truthy then container else (row.lookup "service.name").getD .null
  | facet => facet

def isNumber : Json → Bool
  | .bool _ | .int _ | .float _ => true
  | _ => false

/-- The first number of a row that is neither a time nor a name. -/
def valueOf (row : Row) : Option Json :=
  (row.find? fun entry => entry.1 ∉ ["facet", "container.name", "service.name",
    "beginTimeSeconds", "endTimeSeconds"] && isNumber entry.2).map Prod.snd

/-- `float(v)` of a number. -/
def floatNumber : Json → Py ℚ
  | .bool b => .ok (if b then 1 else 0)
  | .int n => toFloat n
  | .float x => .ok x
  | v => .error
    ⟨"TypeError", s!"float() argument must be a string or a real number, not '{v.typeName}'", false⟩

def quoted (services : List String) : String :=
  String.intercalate ", " (services.map fun s => s!"'{s}'")

def timeseries (sinceMs untilMs : ℤ) : String :=
  s!"TIMESERIES 15 seconds SINCE {sinceMs} UNTIL {untilMs}"

def metricQuery (select : String) (services : List String) (sinceMs untilMs : ℤ) : String :=
  s!"SELECT {select} FROM Metric WHERE container.name IN ({quoted services}) " ++
    s!"FACET container.name {timeseries sinceMs untilMs}"

def errorQuery (services : List String) (sinceMs untilMs : ℤ) : String :=
  "SELECT filter(count(*), WHERE otel.status_code = 'ERROR') / count(*) AS p " ++
    s!"FROM Span WHERE service.name IN ({quoted services}) " ++
    s!"FACET service.name {timeseries sinceMs untilMs}"

/-- One call of `series`: the clock, the arguments, and what the queries answer. -/
structure Poll where
  nowMs : ℤ
  services : List String
  sinceMs : ℤ
  untilMs : ℤ
  nrql : String → Py (List Row)

section
variable [FloatRepr] [IntText]

/-- What a row adds to a series, if it names a service, a time and a value. -/
def pointOf (row : Row) : Py (Option (String × Point)) :=
  match facetOf row, (row.lookup "beginTimeSeconds").getD .null, valueOf row with
  | .null, _, _ | _, .null, _ | _, _, none => .ok none
  | facet, begin, some value => do
    let seconds ← begin.asInt
    let value ← floatNumber value
    pure (some (facet.display, seconds * 1000, value))

/-- The points of each service, by time. -/
def seriesOf (points : List (String × Point)) : Dict String (List Point) :=
  (collect (fun p => some p.1) .empty points).mapValues fun ps => sortedBy Prod.fst (ps.map Prod.snd)

/-- `_fold_rows`. -/
def foldRows (rows : List Row) : Py (Dict String (List Point)) := do
  let points ← rows.mapM pointOf
  pure (seriesOf (points.filterMap id))

def Point.json (p : Point) : Json := .list [.int p.1, .float p.2]

def seriesJson (series : Dict String (List Point)) : Json :=
  .dict (series.items.map fun (service, points) => (service, .list (points.map Point.json)))

namespace Poll

/-- The response of `series`. -/
def series (p : Poll) : Py Json := do
  let cpu ← foldRows (← p.nrql
    (metricQuery "average(container.cpu.utilization)" p.services p.sinceMs p.untilMs))
  let mem ← foldRows (← p.nrql
    (metricQuery "average(container.memory.percent)" p.services p.sinceMs p.untilMs))
  let err ← foldRows (← p.nrql (errorQuery p.services p.sinceMs p.untilMs))
  pure (.dict [("series", .dict [("cpu", seriesJson cpu), ("mem", seriesJson mem),
    ("err", seriesJson err)]), ("fetched_at_ms", .int p.nowMs)])

/-- The journal after a poll. One that raises leaves it as it is. -/
def journal (text : List Char) (p : Poll) : List Char :=
  match p.series with
  | .ok out => text ++ recordLine out
  | .error _ => text

end Poll

/-- `telemetry.jsonl` after the polls, and what they answered. -/
def journalOf (polls : List Poll) : List Char := polls.foldl Poll.journal []
def answers (polls : List Poll) : List Json := polls.filterMap fun p => p.series.toOption

end

/-! ### The replay -/

/-- `frame["fetched_at_ms"]`, as it is compared. -/
def stampOf (frame : Json) : Py ℚ := do
  let stamp ← frame.item "fetched_at_ms"
  match stamp.number with
  | some ms => pure ms
  | none => throw ⟨"TypeError",
      s!"'<' not supported between instances of '{stamp.typeName}' and 'int'", false⟩

/-- The moment a frame was fetched. -/
def fetchedAt (frame : Json) : ℚ := (stampOf frame).toOption.getD 0

/-- What is shown where there is no frame. -/
def noFrame : Json := .dict [("series", .dict []), ("fetched_at_ms", .int 0)]

def chosenAt (atMs : ℤ) (frames : List Json) : Json :=
  match sortedBy fetchedAt frames with
  | [] => noFrame
  | first :: rest => latestUpTo fetchedAt (atMs : ℚ) first (first :: rest)

section
variable [FloatRepr] [FloatReader]

/-- `ReplayTelemetryReader(path).at(at_ms)`. -/
def replayAt (text : List Char) (atMs : ℤ) : Py Json := do
  let frames ← readRecords text
  let _ ← frames.mapM stampOf
  pure (chosenAt atMs frames)

end

/-! ### What is charted -/

theorem pairs_sorted (items : List (String × List (String × Point))) :
    (pairs (items.map fun entry => (entry.1, sortedBy Prod.fst (entry.2.map Prod.snd)))).Perm
      ((pairs items).map fun pair => (pair.1, pair.2.2)) := by
  induction items with
  | nil => exact .refl _
  | cons entry rest ih =>
    have sorted := sortedBy_perm Prod.fst (entry.2.map Prod.snd)
    simp only [pairs, List.map_cons, List.flatMap_cons, List.map_append] at ih ⊢
    refine ((sorted.map _).trans ?_).append ih
    simp [List.map_map, Function.comp_def]

theorem pairs_seriesOf (points : List (String × Point)) :
    (pairs (seriesOf points).items).Perm points := by
  have collected := (collect_pairs Prod.fst .empty points).map fun pair => (pair.1, pair.2.2)
  refine (pairs_sorted _).trans (collected.trans ?_)
  simp [pairs, Dict.empty, Function.comp_def]

theorem mem_seriesOf {points : List (String × Point)} {entry : String × List Point}
    (member : entry ∈ (seriesOf points).items) : entry.2 ≠ [] ∧
      entry.2 = sortedBy Prod.fst ((points.filter fun p => p.1 = entry.1).map Prod.snd) := by
  obtain ⟨⟨service, rows⟩, held, rfl⟩ := List.mem_map.mp member
  have named := List.mem_map_of_mem (f := Prod.fst) held
  rw [items_collect] at held
  obtain ⟨_, _, same⟩ := List.mem_map.mp held
  cases same
  obtain none | ⟨p, inside, isService⟩ := (mem_keys_collect _ _ _ _).mp named
  · cases none
  · refine ⟨fun empty => ?_, by simp only [Option.some.injEq]⟩
    have point : p.2 ∈ (points.filter fun q => some q.1 = some service).map Prod.snd :=
      List.mem_map_of_mem (List.mem_filter.mpr ⟨inside, decide_eq_true isService⟩)
    rw [← (sortedBy_perm Prod.fst _).mem_iff] at point
    exact List.ne_nil_of_mem point empty

section
variable [FloatRepr] [IntText]

/-- The points that the rows add, each with its service. -/
def pointsOf (rows : List Row) : List (String × Point) :=
  rows.filterMap fun row => (pointOf row).toOption.join

theorem foldRows_returns (rows : List Row) :
    Returns (foldRows rows) ↔ ∀ row ∈ rows, Returns (pointOf row) := by
  refine Iff.trans ⟨?_, ?_⟩ mapM_returns_iff
  · rintro ⟨series, ok⟩
    obtain ⟨points, mapped, -⟩ := bind_ok_iff.mp ok
    exact ⟨points, mapped⟩
  · rintro ⟨points, mapped⟩
    exact ⟨_, by rw [foldRows, mapped]; rfl⟩

/-- The fold raises iff the conversion of some row does. Its series hold every point of the
rows once, under its service and by time. -/
theorem foldRows_points (rows : List Row) :
    (¬ Returns (foldRows rows) ↔ ∃ row ∈ rows, ¬ Returns (pointOf row)) ∧
      ∀ series, foldRows rows = .ok series → (pairs series.items).Perm (pointsOf rows) ∧
        ∀ entry ∈ series.items, entry.2 ≠ [] ∧ entry.2 =
          sortedBy Prod.fst (((pointsOf rows).filter fun p => p.1 = entry.1).map Prod.snd) := by
  refine ⟨by rw [foldRows_returns]; push Not; rfl, fun series ok => ?_⟩
  have points : rows.mapM pointOf = .ok (rows.filterMap fun row => (pointOf row).toOption) :=
    mapM_eq_filterMap ((foldRows_returns rows).mp ⟨series, ok⟩)
  have same : (rows.filterMap fun row => (pointOf row).toOption).filterMap id = pointsOf rows := by
    rw [List.filterMap_filterMap]
    refine List.filterMap_congr fun row _ => ?_
    cases (pointOf row).toOption <;> rfl
  have folded : foldRows rows = .ok (seriesOf (pointsOf rows)) := by
    rw [foldRows, points, ← same]
    rfl
  obtain rfl := Except.ok.inj (folded.symm.trans ok)
  exact ⟨pairs_seriesOf _, fun entry => mem_seriesOf⟩

end

/-! ### What a replay shows -/

theorem keyed_seriesJson (series : Dict String (List Point)) : (seriesJson series).keyed = true := by
  have points : ∀ ps : List Point, itemsKeyed (ps.map Point.json) = true := by
    intro ps
    induction ps with
    | nil => rfl
    | cons p rest ih => simp [itemsKeyed, Point.json, Json.keyed, ih]
  have values : entriesKeyed (series.items.map fun entry =>
      (entry.1, Json.list (entry.2.map Point.json))) = true := by
    rw [entriesKeyed_iff]
    intro entry member
    obtain ⟨⟨service, ps⟩, _, rfl⟩ := List.mem_map.mp member
    exact points ps
  have names := series.unique
  rw [← Dict.keys_mapValues fun ps : List Point => Json.list (ps.map Point.json)] at names
  rw [seriesJson, Json.keyed, decide_eq_true names, Bool.true_and]
  exact values

section
variable [FloatRepr] [IntText]

theorem record_series {p : Poll} {out : Json} (answered : p.series = .ok out) :
    Record out ∧ Returns (stampOf out) := by
  obtain ⟨_, _, answered⟩ := bind_ok_iff.mp answered
  obtain ⟨cpu, _, answered⟩ := bind_ok_iff.mp answered
  obtain ⟨_, _, answered⟩ := bind_ok_iff.mp answered
  obtain ⟨mem, _, answered⟩ := bind_ok_iff.mp answered
  obtain ⟨_, _, answered⟩ := bind_ok_iff.mp answered
  obtain ⟨err, _, answered⟩ := bind_ok_iff.mp answered
  cases answered
  refine ⟨⟨⟨_, _, rfl⟩, ?_⟩, p.nowMs, rfl⟩
  simp [Json.keyed, entriesKeyed, keyed_seriesJson]

theorem record_answers {polls : List Poll} {out : Json} (member : out ∈ answers polls) :
    Record out ∧ Returns (stampOf out) := by
  obtain ⟨p, _, same⟩ := List.mem_filterMap.mp member
  cases result : p.series with
  | ok v =>
    rw [result] at same
    obtain rfl := Option.some.inj same
    exact record_series result
  | error e =>
    rw [result] at same
    cases same

/-- The journal is the log of the answers. -/
theorem journalOf_eq (polls : List Poll) : journalOf polls = logText (answers polls) := by
  have each : ∀ text, polls.foldl Poll.journal text = text ++ logText (answers polls) := by
    induction polls with
    | nil => exact fun text => (List.append_nil text).symm
    | cons p rest ih =>
      intro text
      rw [List.foldl_cons, ih, Poll.journal]
      cases result : p.series with
      | ok out =>
        have more : answers (p :: rest) = out :: answers rest :=
          List.filterMap_cons_some (by rw [result]; rfl)
        rw [more, List.append_assoc]
        rfl
      | error e =>
        have same : answers (p :: rest) = answers rest :=
          List.filterMap_cons_none (by rw [result]; rfl)
        rw [same]
  exact each []

end

theorem chosenAt_spec (atMs : ℤ) (frames : List Json) :
    frames = [] ∧ chosenAt atMs frames = noFrame ∨
      Holds fetchedAt (atMs : ℚ) frames (chosenAt atMs frames) := by
  rw [chosenAt]
  cases sorted : sortedBy fetchedAt frames with
  | nil =>
    have same := sortedBy_perm fetchedAt frames
    rw [sorted] at same
    exact .inl ⟨same.nil_eq.symm, rfl⟩
  | cons first rest => exact .inr (holds_latestUpTo sorted)

section
variable [FloatRepr] [FloatReader]

theorem replayAt_ok {text : List Char} {frames : List Json} (read : readRecords text = .ok frames)
    (each : ∀ frame ∈ frames, Returns (stampOf frame)) (atMs : ℤ) :
    replayAt text atMs = .ok (chosenAt atMs frames) := by
  obtain ⟨stamps, checked⟩ := mapM_returns_iff.mpr each
  rw [replayAt, read]
  change (frames.mapM stampOf >>= fun _ => pure (chosenAt atMs frames)) = _
  rw [checked]
  rfl

variable [IntText]

/-- A replay shows, at every moment, the newest answer that the run had journaled by then,
and before the first the earliest; cut anywhere, the journal shows none or one of those it
still holds. -/
theorem replay_shows_newest (polls : List Poll) (atMs : ℤ) :
    (∃ frame, replayAt (journalOf polls) atMs = .ok frame ∧
      (answers polls = [] ∧ frame = noFrame ∨ Holds fetchedAt (atMs : ℚ) (answers polls) frame)) ∧
    ∀ n, ¬ Returns (replayAt ((journalOf polls).take n) atMs) ∨
      ∃ k frame, replayAt ((journalOf polls).take n) atMs = .ok frame ∧
        ((answers polls).take k = [] ∧ frame = noFrame ∨
          Holds fetchedAt (atMs : ℚ) ((answers polls).take k) frame) ∧
        ∀ j ≤ (answers polls).length, (logText ((answers polls).take j)).length ≤ n → j ≤ k := by
  have records : ∀ out ∈ answers polls, Record out := fun out member => (record_answers member).1
  have stamps : ∀ out ∈ answers polls, Returns (stampOf out) := fun out member =>
    (record_answers member).2
  rw [journalOf_eq]
  constructor
  · exact ⟨_, replayAt_ok (readRecords_logText records) stamps atMs, chosenAt_spec atMs _⟩
  · intro n
    rcases readRecords_take records n with torn | ⟨k, read, whole⟩
    · left
      rintro ⟨frame, shown⟩
      obtain ⟨frames, read, -⟩ := bind_ok_iff.mp shown
      exact torn ⟨frames, read⟩
    · right
      have kept : ∀ out ∈ (answers polls).take k, Returns (stampOf out) := fun out member =>
        stamps out (List.mem_of_mem_take member)
      exact ⟨k, _, replayAt_ok read kept atMs, chosenAt_spec atMs _, whole⟩

end

end Sentinel.LiveLab
