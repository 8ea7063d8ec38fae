import Sentinel.Lgtm.Store

/-! Log search over a recorded fixture and over the live stack. The live store asks Loki
for the first entries that match the text as written, and ranks unknown severities
as info; what it returns then differs from the fixture's answer exactly as far as
these choices matter for the rows held. -/
namespace Sentinel.Lgtm
open Python Fixtures Tools Newrelic

/-- A log row as Loki holds it. -/
structure Logged where
  row : LogRow
  timeNs : ℤ

/-- The rows lie in the window and are listed in the order Loki hands them over. -/
structure Held (startMs endMs : ℤ) (held : List Logged) : Prop where
  ordered : held.Pairwise fun a b => a.timeNs ≤ b.timeNs
  inside : ∀ e ∈ held, startMs * 10 ^ 6 ≤ e.timeNs ∧ e.timeNs ≤ endMs * 10 ^ 6
  timed : ∀ e ∈ held, e.row.time = relSeconds (e.timeNs / 10 ^ 6) startMs

/-- A text that stands for itself between the quotes of a LogQL literal. -/
def Plain (text : String) : Prop := ∀ c ∈ ['"', '\\', '\n'], c ∉ text.toList

instance (text : String) : Decidable (Plain text) :=
  List.decidableBAll (fun c => c ∉ text.toList) _

def PlainQuery (service contains : Option String) : Prop :=
  (∀ text ∈ service, Plain text) ∧ ∀ text ∈ contains, Plain text

instance (service contains : Option String) : Decidable (PlainQuery service contains) :=
  inferInstanceAs (Decidable (_ ∧ _))

/-- What the LogQL text of plain texts selects. -/
def selected (service contains : Option String) (row : LogRow) : Bool :=
  service.all (fun service => decide (row.service = service)) &&
  contains.all fun text => decide (text.toList <:+: row.message.toList)

/-- The service, the severity, the time and the line. -/
abbrev LokiEntry := Option String × Option String × ℤ × String

def LokiStream.entries (stream : LokiStream) : List LokiEntry :=
  stream.values.map fun v => (stream.labels.get? "service_name", stream.labels.get? "severity_text", v)

def Logged.entry (e : Logged) : LokiEntry :=
  (some e.row.service, some e.row.severity, e.timeNs, e.row.message)

/-- Loki answers a query of plain texts with the first entries it selects, split into
streams in any way. -/
structure Loki.Serves (loki : Loki) (startMs endMs : ℤ) (held : List Logged) : Prop where
  answers : ∀ service contains limit, PlainQuery service contains → 0 < limit →
    ∃ streams, loki.queryRange (logQuery service contains) (startMs * 10 ^ 6) (endMs * 10 ^ 6) limit =
        .ok streams ∧
      (streams.flatMap LokiStream.entries).Perm
        (((held.filter fun e => selected service contains e.row).take limit.toNat).map Logged.entry)

/-- The same rows in the same order, up to the order of rows of one time and service. -/
def SameRows (a b : List LogRow) : Prop := a.Perm b ∧ a.map logOrder = b.map logOrder

/-- What is left of a row in the live store. -/
def bare (row : LogRow) : LogRow := { row with traceId := none, attributes := [] }

theorem logRow_bare (row : LogRow) :
    logRow row.time row.service row.severity row.message none = .ok (bare row) := by
  rw [logRow, dif_pos row.named, dif_pos row.nonneg]
  rfl

section
variable [LowerCase]

omit [LowerCase] in
theorem backendLimit_some {f : LogFilter} {n : ℤ} (limit : f.limit = some n) (nonzero : n ≠ 0) :
    backendLimit f = n := by
  simp [backendLimit, limit, Option.filter, nonzero]

omit [LowerCase] in
theorem backendLimit_pos_iff {f : LogFilter} :
    0 < backendLimit f ↔ ∀ n ∈ f.limit, 0 ≤ n := by
  unfold backendLimit
  cases limit : f.limit with
  | none => simp
  | some n =>
    by_cases zero : n = 0
    · simp [Option.filter, zero]
    · simp only [Option.filter, ne_eq, zero, not_false_eq_true, decide_true, if_true,
        Option.getD_some, Option.mem_def, Option.some.injEq, forall_eq']
      omega

/-- The live store's own checks. -/
def passes (f : LogFilter) (row : LogRow) : Bool := admits f row.severity && f.inRange row.time

def matched (f : LogFilter) (held : List Logged) : List Logged :=
  held.filter fun e => selected (given f.service) (given f.contains) e.row

/-- The rows that Loki is asked for and has. -/
def handed (f : LogFilter) (held : List Logged) : List Logged :=
  (matched f held).take (backendLimit f).toNat

def shown (f : LogFilter) (held : List Logged) : List Logged :=
  (handed f held).filter fun e => passes f e.row

theorem shown_length_le {f : LogFilter} {held : List Logged} {n : ℤ} (limit : f.limit = some n)
    (nonneg : 0 ≤ n) (nonzero : n ≠ 0) : ((shown f held).length : ℤ) ≤ n := by
  have filtered := List.length_filter_le (fun e : Logged => passes f e.row) (handed f held)
  have taken := List.length_take_le (backendLimit f).toNat (matched f held)
  rw [← handed, backendLimit_some limit nonzero] at taken
  rw [shown]
  omega

/-- The row that the live store makes of an entry. -/
def rowOf (f : LogFilter) (startMs : ℤ) : LokiEntry → Option LogRow
  | (some svc, some sev, ts, line) =>
    if admits f sev && f.inRange (relSeconds (ts / 10 ^ 6) startMs) then
      (logRow (relSeconds (ts / 10 ^ 6) startMs) svc sev line none).toOption
    else none
  | _ => none

omit [LowerCase] in
theorem cut_initial (f : LogFilter) (rows : List LogRow) : f.cut rows <+: rows := by
  unfold LogFilter.cut
  split
  · exact List.take_prefix _ _
  · exact List.prefix_refl _

omit [LowerCase] in
/-- A limit cuts only what exceeds it. -/
theorem cut_eq_self {f : LogFilter} {rows : List LogRow}
    (fits : ∀ n ∈ f.limit, (rows.length : ℤ) ≤ n) : f.cut rows = rows := by
  unfold LogFilter.cut
  split
  · rename_i n limit
    have := fits n limit
    rw [sliceTo, if_pos (by omega), List.take_of_length_le (by omega)]
  · rfl

theorem rowOf_entry (f : LogFilter) {startMs : ℤ} {e : Logged}
    (timed : e.row.time = relSeconds (e.timeNs / 10 ^ 6) startMs) :
    rowOf f startMs e.entry = if passes f e.row then some (bare e.row) else none := by
  simp only [rowOf, Logged.entry, ← timed, passes, logRow_bare]
  rfl

theorem streamRows_eq {s : LgtmStore} {f : LogFilter} {held : List Logged} {stream : LokiStream}
    (timed : ∀ e ∈ held, e.row.time = relSeconds (e.timeNs / 10 ^ 6) s.startMs)
    (entries : ∀ v ∈ stream.entries, ∃ e ∈ held, e.entry = v) :
    streamRows s f stream = .ok (stream.entries.filterMap (rowOf f s.startMs)) := by
  have known : ∀ v ∈ stream.values, ∃ e ∈ held,
      stream.labels.get? "service_name" = some e.row.service ∧
      stream.labels.get? "severity_text" = some e.row.severity ∧ v = (e.timeNs, e.row.message) := by
    intro v member
    obtain ⟨e, kept, same⟩ := entries _ (List.mem_map_of_mem member)
    simp only [Logged.entry, Prod.mk.injEq] at same
    exact ⟨e, kept, same.1.symm, same.2.1.symm, same.2.2.symm⟩
  cases first : stream.values with
  | nil => simp [streamRows, LokiStream.entries, first, pure, Except.pure]
  | cons v rest =>
    obtain ⟨e, -, service, severity, -⟩ := known v (by simp [first])
    have named : firstLabel stream.labels ["severity_text", "detected_level", "level"] "info" =
        e.row.severity := by
      simp [firstLabel, severity, given, Option.filter, e.row.named.2.1]
    have each : ∀ v ∈ stream.values.filter fun entry =>
          f.inRange (relSeconds (entry.1 / 10 ^ 6) s.startMs),
        Returns (logRow (relSeconds (v.1 / 10 ^ 6) s.startMs) e.row.service e.row.severity v.2 none) := by
      intro v member
      obtain ⟨d, kept, service', severity', rfl⟩ := known v (List.mem_of_mem_filter member)
      rw [Option.some.inj (service.symm.trans service'), Option.some.inj (severity.symm.trans severity'),
        ← timed d kept, logRow_bare]
      exact returns_ok _
    simp only [streamRows, named, service, Option.getD_some]
    rw [LokiStream.entries, List.filterMap_map]
    split
    · rename_i admitted
      rw [mapM_eq_filterMap each, List.filterMap_filter]
      congr 2
      funext v
      simp [rowOf, service, severity, admitted]
    · rename_i refused
      congr 1
      symm
      rw [List.filterMap_eq_nil_iff]
      intro v _
      simp [rowOf, service, severity, refused]

theorem searchLogs_serves {s : LgtmStore} {f : LogFilter} {held : List Logged}
    (window : Held s.startMs s.endMs held) (serves : s.loki.Serves s.startMs s.endMs held)
    (plain : PlainQuery (given f.service) (given f.contains)) (nonneg : ∀ limit ∈ f.limit, 0 ≤ limit) :
    ∃ rows, s.searchLogs f = .ok rows ∧ rows.Pairwise (fun a b => logOrder a ≤ logOrder b) ∧
      rows.Perm (if f.limit = some 0 then [] else (shown f held).map fun e => bare e.row) := by
  obtain ⟨streams, answered, entries⟩ :=
    serves.answers _ _ _ plain (backendLimit_pos_iff.mpr nonneg)
  have each : ∀ stream ∈ streams, streamRows s f stream =
      .ok (stream.entries.filterMap (rowOf f s.startMs)) := by
    intro stream member
    refine streamRows_eq window.timed fun v inStream => ?_
    obtain ⟨e, taken, same⟩ := List.mem_map.mp
      (entries.mem_iff.mp (List.mem_flatMap.mpr ⟨stream, member, inStream⟩))
    exact ⟨e, List.mem_of_mem_filter (List.mem_of_mem_take taken), same⟩
  have rows : ((streams.map fun stream => stream.entries.filterMap (rowOf f s.startMs)).flatten).Perm
      ((shown f held).map fun e => bare e.row) := by
    rw [← List.flatMap_def, ← List.filterMap_flatMap]
    refine (entries.filterMap _).trans (List.Perm.of_eq ?_)
    rw [List.filterMap_map, shown, ← List.filterMap_eq_map, List.filterMap_filter]
    exact List.filterMap_congr fun e taken =>
      rowOf_entry f (window.timed e (List.mem_of_mem_filter (List.mem_of_mem_take taken)))
  refine ⟨f.cut (sortedBy logOrder
    (streams.map fun stream => stream.entries.filterMap (rowOf f s.startMs)).flatten), ?_, ?_, ?_⟩
  · simp only [LgtmStore.searchLogs, answered, bind, Except.bind, mapM_eq_map each]
    rfl
  · exact (sortedBy_pairwise _ _).sublist (cut_initial f _).sublist
  · split
    · rename_i zero
      simp [LogFilter.cut, zero, sliceTo]
    · rename_i nonzero
      have sorted := (sortedBy_perm logOrder _).trans rows
      rwa [cut_eq_self]
      intro n limit
      rw [sorted.length_eq, List.length_map]
      exact shown_length_le limit (nonneg n limit) fun zero => nonzero (zero ▸ limit)

/-- The stores agree, in whatever order the fixture lists the rows and Loki splits its
answer. -/
def Agrees (f : LogFilter) (startMs endMs : ℤ) (held : List Logged) : Prop :=
  ∀ (s : LgtmStore) (fixture : FixtureStore), s.startMs = startMs → s.endMs = endMs →
    s.loki.Serves startMs endMs held → fixture.fixture.logs.Perm (held.map Logged.row) →
      ∃ rows, s.searchLogs f = .ok rows ∧ SameRows rows (fixture.searchLogs f)

/-- The live store does not return the entry. -/
def LeftOut (f : LogFilter) (held : List Logged) (e : Logged) : Prop :=
  (selected (given f.service) (given f.contains) e.row && passes f e.row) = false ∨
    e ∈ (matched f held).drop (backendLimit f).toNat

/-- What Loki hands over and passes, the fixture returns as well. -/
def NothingExtra (f : LogFilter) (held : List Logged) : Prop :=
  ∀ e ∈ handed f held, passes f e.row = true → f.wants e.row = true ∧ bare e.row = e.row

/-- A wanted row is left out only for as many rows as asked for that sort before it. -/
def NothingMissed (f : LogFilter) (held : List Logged) : Prop :=
  ∀ e ∈ held, f.wants e.row = true → LeftOut f held e →
    ∃ n, f.limit = some n ∧ (handed f held).length = n ∧
      ∀ d ∈ handed f held, passes f d.row = true ∧ (logOrder d.row < logOrder e.row ∨ d.row = e.row)

structure Coincide (f : LogFilter) (held : List Logged) : Prop where
  plain : PlainQuery (given f.service) (given f.contains)
  nonneg : ∀ n ∈ f.limit, 0 ≤ n
  same : f.limit = some 0 ∨ NothingExtra f held ∧ NothingMissed f held

/-- The wanted entries that the live store does not return. -/
def missing (f : LogFilter) (held : List Logged) : List Logged :=
  (held.filter fun e => f.wants e.row &&
      !(selected (given f.service) (given f.contains) e.row && passes f e.row)) ++
    ((matched f held).drop (backendLimit f).toNat).filter fun e => passes f e.row && f.wants e.row

theorem mem_missing {f : LogFilter} {held : List Logged} {e : Logged} :
    e ∈ missing f held ↔ e ∈ held ∧ f.wants e.row = true ∧ LeftOut f held e := by
  have cut : e ∈ (matched f held).drop (backendLimit f).toNat → e ∈ held ∧
      selected (given f.service) (given f.contains) e.row = true := by
    intro dropped
    exact List.mem_filter.mp (List.mem_of_mem_drop dropped)
  simp only [missing, List.mem_append, List.mem_filter, LeftOut, Bool.and_eq_true,
    Bool.not_eq_true']
  constructor
  · rintro (⟨member, wants, out⟩ | ⟨dropped, -, wants⟩)
    · exact ⟨member, wants, .inl out⟩
    · exact ⟨(cut dropped).1, wants, .inr dropped⟩
  · rintro ⟨member, wants, out | dropped⟩
    · exact .inl ⟨member, wants, out⟩
    · by_cases pass : passes f e.row = true
      · exact .inr ⟨dropped, pass, wants⟩
      · exact .inl ⟨member, wants, by simp [pass]⟩

theorem wanted_split {f : LogFilter} {held : List Logged} (extra : NothingExtra f held) :
    (held.filter fun e => f.wants e.row).Perm (shown f held ++ missing f held) := by
  have kept : shown f held = (handed f held).filter fun e => passes f e.row && f.wants e.row :=
    List.filter_congr fun e taken => by
      by_cases pass : passes f e.row = true
      · simp [pass, (extra e taken pass).1]
      · simp [pass]
  have returned : (held.filter fun e => f.wants e.row).filter (fun e =>
        selected (given f.service) (given f.contains) e.row && passes f e.row) =
      shown f held ++
        ((matched f held).drop (backendLimit f).toNat).filter fun e => passes f e.row && f.wants e.row := by
    rw [kept, handed, ← List.filter_append, List.take_append_drop, matched, List.filter_filter,
      List.filter_filter]
    congr 1
    funext e
    cases selected (given f.service) (given f.contains) e.row <;> cases passes f e.row <;> simp
  have others : (held.filter fun e => f.wants e.row).filter (fun e =>
        !(selected (given f.service) (given f.contains) e.row && passes f e.row)) =
      held.filter fun e => f.wants e.row &&
        !(selected (given f.service) (given f.contains) e.row && passes f e.row) := by
    rw [List.filter_filter]
    congr 1
    funext e
    exact Bool.and_comm _ _
  refine (List.filter_append_perm (fun e =>
    selected (given f.service) (given f.contains) e.row && passes f e.row) _).symm.trans ?_
  rw [returned, others, missing, List.append_assoc]
  exact List.perm_append_comm.append_left _

omit [LowerCase] in
theorem sameRows_of_perm {a b : List LogRow} (ordered : a.Pairwise fun a b => logOrder a ≤ logOrder b)
    (ordered' : b.Pairwise fun a b => logOrder a ≤ logOrder b) (same : a.Perm b) : SameRows a b := by
  have keys : (a.map logOrder).Pairwise (· ≤ ·) := List.pairwise_map.mpr ordered
  have keys' : (b.map logOrder).Pairwise (· ≤ ·) := List.pairwise_map.mpr ordered'
  exact ⟨same, (same.map logOrder).eq_of_pairwise' keys keys'⟩

theorem searchLogs_fixture_pairwise (fixture : FixtureStore) (f : LogFilter) :
    (fixture.searchLogs f).Pairwise fun a b => logOrder a ≤ logOrder b :=
  (sortedBy_pairwise _ _).sublist (cut_initial f _).sublist

/-- Where the cuts fall alike, the fixture returns the rows that the live store keeps. -/
theorem searchLogs_fixture_perm {f : LogFilter} {held : List Logged} {fixture : FixtureStore}
    (listed : fixture.fixture.logs.Perm (held.map Logged.row)) (nonneg : ∀ n ∈ f.limit, 0 ≤ n)
    (nonzero : f.limit ≠ some 0) (extra : NothingExtra f held) (missed : NothingMissed f held) :
    (fixture.searchLogs f).Perm ((shown f held).map Logged.row) := by
  have wanted : (fixture.fixture.logs.filter f.wants).Perm
      ((shown f held).map Logged.row ++ (missing f held).map Logged.row) := by
    rw [← List.map_append]
    refine (listed.filter f.wants).trans ?_
    rw [List.filter_map]
    exact (wanted_split extra).map Logged.row
  by_cases none : missing f held = []
  · rw [none, List.map_nil, List.append_nil] at wanted
    have sorted := (sortedBy_perm logOrder _).trans wanted
    rw [FixtureStore.searchLogs, cut_eq_self]
    · exact sorted
    · intro n limit
      rw [sorted.length_eq, List.length_map]
      exact shown_length_le limit (nonneg n limit) fun zero => nonzero (zero ▸ limit)
  · obtain ⟨e, left⟩ := List.exists_mem_of_ne_nil _ none
    obtain ⟨member, wants, out⟩ := mem_missing.mp left
    obtain ⟨n, limit, full, all⟩ := missed e member wants out
    have kept : shown f held = handed f held :=
      List.filter_eq_self.mpr fun d taken => (all d taken).1
    have taken : f.cut (sortedBy logOrder (fixture.fixture.logs.filter f.wants)) =
        (sortedBy logOrder (fixture.fixture.logs.filter f.wants)).take
          ((shown f held).map Logged.row).length := by
      simp only [LogFilter.cut, limit, sliceTo, kept, List.length_map, if_pos (nonneg n limit)]
      rw [← full, Int.toNat_natCast]
    rw [FixtureStore.searchLogs, taken]
    refine take_sortedBy_perm wanted ?_
    simp only [List.forall_mem_map]
    intro d inShown e' left'
    obtain ⟨member', wants', out'⟩ := mem_missing.mp left'
    obtain ⟨_, -, -, all'⟩ := missed e' member' wants' out'
    exact (all' d (kept ▸ inShown)).2

theorem agrees_of_coincide {f : LogFilter} {startMs endMs : ℤ} {held : List Logged}
    (window : Held startMs endMs held) (coincide : Coincide f held) : Agrees f startMs endMs held := by
  rintro s fixture rfl rfl serves listed
  obtain ⟨rows, found, ordered, same⟩ := searchLogs_serves window serves coincide.plain coincide.nonneg
  refine ⟨rows, found, sameRows_of_perm ordered (searchLogs_fixture_pairwise fixture f) ?_⟩
  by_cases zero : f.limit = some 0
  · rw [if_pos zero] at same
    simpa [FixtureStore.searchLogs, LogFilter.cut, zero, sliceTo] using same
  · obtain ⟨extra, missed⟩ := coincide.same.resolve_left zero
    rw [if_neg zero] at same
    have full : (shown f held).map (fun e => bare e.row) = (shown f held).map Logged.row := by
      refine List.map_congr_left fun e kept => ?_
      obtain ⟨taken, pass⟩ := List.mem_filter.mp kept
      exact (extra e taken pass).2
    rw [full] at same
    exact same.trans (searchLogs_fixture_perm listed coincide.nonneg zero extra missed).symm

/-- The row meets none of the differences between the filters. -/
structure SameTests (f : LogFilter) (row : LogRow) : Prop where
  service : f.service ≠ some ""
  severity : (severityRank.lookup (LowerCase.lower row.severity)).isSome ∨ f.minRank = 0 ∨ 2 < f.minRank
  text : ∀ text ∈ given f.contains, (text.toList <:+: row.message.toList ↔
    (LowerCase.lower text).toList <:+: (LowerCase.lower row.message).toList)

theorem wants_eq {f : LogFilter} {row : LogRow} (same : SameTests f row) :
    f.wants row = (selected (given f.service) (given f.contains) row && passes f row) := by
  have service : given f.service = f.service := by
    cases named : f.service with
    | none => rfl
    | some service =>
      have nonempty : service ≠ "" := fun empty => same.service (empty ▸ named)
      simp [given, Option.filter, nonempty]
  have severity : decide (f.minRank ≤ (severityRank.lookup (LowerCase.lower row.severity)).getD 0) =
      admits f row.severity := by
    unfold admits
    have cases := same.severity
    cases known : severityRank.lookup (LowerCase.lower row.severity) with
    | some rank => rfl
    | none =>
      simp only [known, Option.isSome_none, Bool.false_eq_true, false_or] at cases
      simp only [Option.getD_none, decide_eq_decide]
      omega
  rw [LogFilter.wants, selected, passes, service, severity, Bool.eq_iff_iff]
  cases asked : given f.contains with
  | none =>
    simp only [Option.all_none, Bool.and_true, Bool.and_eq_true]
    tauto
  | some text =>
    simp only [Option.all_some, Bool.and_eq_true, decide_eq_true_eq, same.text text asked]
    tauto

/-- Agreement where nothing is cut off and no row meets a difference. -/
theorem agrees_of_sameTests {f : LogFilter} {startMs endMs : ℤ} {held : List Logged}
    (window : Held startMs endMs held) (plain : PlainQuery (given f.service) (given f.contains))
    (nonneg : ∀ n ∈ f.limit, 0 ≤ n) (fits : (matched f held).length ≤ (backendLimit f).toNat)
    (each : ∀ e ∈ held, SameTests f e.row ∧ bare e.row = e.row) : Agrees f startMs endMs held := by
  refine agrees_of_coincide window ⟨plain, nonneg, .inr ⟨fun e taken pass => ?_, fun e member wants left => ?_⟩⟩
  · obtain ⟨member, chosen⟩ := List.mem_filter.mp (List.mem_of_mem_take taken)
    exact ⟨by rw [wants_eq (each e member).1, chosen, pass]; rfl, (each e member).2⟩
  · rcases left with refused | dropped
    · rw [wants_eq (each e member).1, refused] at wants
      cases wants
    · rw [List.drop_eq_nil_of_le fits] at dropped
      cases dropped

end

end Sentinel.Lgtm
