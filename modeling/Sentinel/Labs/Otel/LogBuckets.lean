import Mathlib.Data.Rat.Floor
import Sentinel.Labs.Otel.Recorder
import Sentinel.Python.Grouping

/-! Collecting the logs of a window bucket by bucket. The rows are the first hits of each
`_id` in the answers to the buckets, whatever the rounding of the bounds; in exact
arithmetic the buckets are the equal parts of the window. -/
namespace Sentinel.Labs.Otel
open Python Transition Sequences

/-- The number of buckets. -/
def RecordingOptions.buckets (options : RecordingOptions) : ℤ := max 1 options.logBuckets

/-- `per_bucket`. -/
def RecordingOptions.perBucket (options : RecordingOptions) : ℤ :=
  max 1 (-((-options.logLimit) / options.buckets))

/-- `bucket_start` and `bucket_end`, each operation rounded. -/
def bucketRange (round : ℚ → ℚ) (windowStart windowEnd : ℚ) (buckets : ℤ) (index : ℕ) : ℚ × ℚ :=
  let span := round (round (windowEnd - windowStart) / buckets)
  (round (windowStart + round (span * index)),
    if (index : ℤ) = buckets - 1 then windowEnd
    else round (windowStart + round (span * (index + 1))))

section
variable {W : Type}

/-- One turn of the loop over the buckets. -/
def collectBucket (round : ℚ → ℚ) (lab : Lab W) (windowStart windowEnd : ℚ)
    (options : RecordingOptions) (rows : List String × List Json) (index : ℕ) :
    Recording W (List String × List Json) := do
  let range := bucketRange round windowStart windowEnd options.buckets index
  let hits ← .call (lab.searchLogs options.perBucket range.1 range.2)
  .lift (hits.foldlM takeHit rows)

/-- `_collect_bucketed_logs`, its arithmetic rounded by `round`. -/
def collectBucketedLogsWith (round : ℚ → ℚ) (lab : Lab W) (windowStart windowEnd : ℚ)
    (options : RecordingOptions) : Recording W (List Json) := do
  let rows ← .loop (collectBucket round lab windowStart windowEnd options) ([], [])
    (List.range options.buckets.toNat)
  pure rows.2

theorem collectBucketedLogs_eq (lab : Lab W) (windowStart windowEnd : ℚ)
    (options : RecordingOptions) : collectBucketedLogs lab windowStart windowEnd options =
      collectBucketedLogsWith rnd lab windowStart windowEnd options := rfl

/-- The ranges that are asked for. -/
def bucketRanges (round : ℚ → ℚ) (windowStart windowEnd : ℚ) (options : RecordingOptions) :
    List (ℚ × ℚ) :=
  (List.range options.buckets.toNat).map (bucketRange round windowStart windowEnd options.buckets)

/-- The ids and the rows after the hits `done`. -/
structure Gathered (done : List LogHit) (rows : List String × List Json) : Prop where
  seen : ∀ id, id ∈ rows.1 ↔ id ∈ done.map LogHit.id
  rows_eq : rows.2 = (keepFirst LogHit.id [] done).map LogHit.row

theorem gathered_nil : Gathered [] ([], []) := ⟨fun _ => .rfl, rfl⟩

theorem Gathered.takeHit {done : List LogHit} {rows : List String × List Json}
    (gathered : Gathered done rows) (hit : LogHit) :
    ∃ next, takeHit rows hit.row = .ok next ∧ Gathered (done ++ [hit]) next := by
  have taken : Otel.takeHit rows hit.row =
      .ok (if hit.id ∈ rows.1 then rows else (hit.id :: rows.1, rows.2 ++ [hit.row])) :=
    bind_ok_iff.mpr ⟨.str hit.id, hit.identified, rfl⟩
  refine ⟨_, taken, ?_, ?_⟩
  · intro id
    rw [List.map_append, List.mem_append, List.map_singleton, List.mem_singleton, ← gathered.seen]
    split
    · rename_i known
      exact ⟨.inl, fun member => member.elim (fun old => old) fun same => same ▸ known⟩
    · exact List.mem_cons.trans or_comm
  · have old : hit.id ∈ ([] : List String) ∨ hit.id ∈ done.map LogHit.id ↔ hit.id ∈ rows.1 := by
      rw [gathered.seen, or_iff_right List.not_mem_nil]
    rw [keepFirst_append_singleton]
    by_cases known : hit.id ∈ rows.1
    · rw [if_pos known, if_pos (old.mpr known)]
      exact gathered.rows_eq
    · rw [if_neg known, if_neg (mt old.mp known), List.map_append, ← gathered.rows_eq]
      rfl

theorem Gathered.takeHits {done : List LogHit} {rows : List String × List Json}
    (gathered : Gathered done rows) (hits : List LogHit) :
    ∃ next, (hits.map LogHit.row).foldlM Otel.takeHit rows = .ok next ∧
      Gathered (done ++ hits) next := by
  induction hits generalizing done rows with
  | nil => exact ⟨rows, rfl, (List.append_nil done).symm ▸ gathered⟩
  | cons hit rest ih =>
    obtain ⟨next, taken, step⟩ := gathered.takeHit hit
    obtain ⟨last, folded, whole⟩ := ih step
    rw [List.append_assoc, List.singleton_append] at whole
    refine ⟨last, ?_, whole⟩
    rw [List.map_cons, List.foldlM_cons]
    exact bind_ok_iff.mpr ⟨next, taken, folded⟩

/-- The ranges so far are answered, and the rows gathered from the answers. -/
def Collected (store : List LogHit) (share : ℕ) (ranges : List (ℚ × ℚ))
    (rows : List String × List Json) : Prop :=
  ∃ answers, Answered LogHit.time share store ranges answers ∧ Gathered answers.flatten rows

theorem collectBucket_collected {lab : Lab W} {store : List LogHit}
    (backend : AnswersEarliest lab.searchLogs store) (round : ℚ → ℚ) (windowStart windowEnd : ℚ)
    (options : RecordingOptions) {ranges : List (ℚ × ℚ)} {rows : List String × List Json}
    (collected : Collected store options.perBucket.toNat ranges rows) (index : ℕ)
    (s : W × List FlagOp) :
    ∃ next t, collectBucket round lab windowStart windowEnd options rows index s = (.ok next, t) ∧
      Collected store options.perBucket.toNat
        (ranges ++ [bucketRange round windowStart windowEnd options.buckets index]) next := by
  obtain ⟨answers, answered, gathered⟩ := collected
  have positive : 0 < options.perBucket := zero_lt_one.trans_le (le_max_left 1 _)
  unfold collectBucket
  generalize bucketRange round windowStart windowEnd options.buckets index = range
  obtain ⟨found, returned, first⟩ := backend options.perBucket range.1 range.2 s.1 positive
  obtain ⟨next, taken, step⟩ := gathered.takeHits found
  have flat : (answers ++ [found]).flatten = answers.flatten ++ found := by
    rw [List.flatten_append, List.flatten_singleton]
  refine ⟨next, ((lab.searchLogs options.perBucket range.1 range.2 s.1).2, s.2), ?_,
    answers ++ [found], answered.concat first, flat ▸ step⟩
  rw [Calls.bind_of_returns (Calls.call_of_returns returned), Calls.lift, taken]

/-- The rows are the first hits of each `_id` in one answer for each bucket. -/
theorem collectBucketedLogsWith_eq {lab : Lab W} {store : List LogHit}
    (backend : AnswersEarliest lab.searchLogs store) (round : ℚ → ℚ) (windowStart windowEnd : ℚ)
    (options : RecordingOptions) (s : W × List FlagOp) :
    ∃ answers t, Answered LogHit.time options.perBucket.toNat store
        (bucketRanges round windowStart windowEnd options) answers ∧
      collectBucketedLogsWith round lab windowStart windowEnd options s =
        (.ok ((keepFirst LogHit.id [] answers.flatten).map LogHit.row), t) := by
  let range := bucketRange round windowStart windowEnd options.buckets
  have start : Collected store options.perBucket.toNat (([] : List ℕ).map range) ([], []) :=
    ⟨[], .nil, gathered_nil⟩
  obtain ⟨rows, t, looped, answers, answered, gathered⟩ := Calls.loop_returns
    (fun done => Collected store options.perBucket.toNat (done.map range))
    (fun done rows index s collected => by
      rw [List.map_append]
      exact collectBucket_collected backend round windowStart windowEnd options collected index s)
    start (List.range options.buckets.toNat) s
  refine ⟨answers, t, answered, ?_⟩
  rw [collectBucketedLogsWith, Calls.bind_of_returns looped, ← gathered.rows_eq]
  rfl

/-- What the rows are of the stored hits, for the ranges asked for and the most hits asked
for in each. -/
structure BucketedLogs (store : List LogHit) (ranges : List (ℚ × ℚ)) (share : ℕ)
    (rows : List Json) : Prop where
  distinct : (rows.map fun row => row.get "_id").Nodup
  length_le : rows.length ≤ ranges.length * share
  inside : ∀ row ∈ rows, ∃ range ∈ ranges, ∃ hit ∈ inWindow LogHit.time range store, hit.row = row
  earliest : ∀ range ∈ ranges, ∃ found,
    FirstBy LogHit.time share (inWindow LogHit.time range store) found ∧
      ∀ hit ∈ found, ∃ kept ∈ store, kept.id = hit.id ∧ kept.row ∈ rows

theorem get_row (hits : List LogHit) : (hits.map LogHit.row).map (fun row => row.get "_id") =
    (hits.map LogHit.id).map fun id => .ok (.str id) := by
  rw [List.map_map, List.map_map]
  exact List.map_congr_left fun hit _ => hit.identified

theorem bucketedLogs_of_answered {store : List LogHit} {ranges : List (ℚ × ℚ)} {share : ℕ}
    {answers : List (List LogHit)} (answered : Answered LogHit.time share store ranges answers) :
    BucketedLogs store ranges share ((keepFirst LogHit.id [] answers.flatten).map LogHit.row) where
  distinct := by
    rw [get_row]
    refine (keepFirst_nodup LogHit.id [] answers.flatten).map fun id other same => ?_
    exact Json.str.inj (Except.ok.inj same)
  length_le := by
    rw [List.length_map]
    exact (keepFirst_sublist LogHit.id [] answers.flatten).length_le.trans answered.length_flatten_le
  inside := by
    intro row member
    obtain ⟨hit, kept, rfl⟩ := List.mem_map.mp member
    obtain ⟨range, asked, found⟩ := answered.of_mem_flatten (mem_keepFirst kept).1
    exact ⟨range, asked, hit, found, rfl⟩
  earliest := by
    intro range asked
    obtain ⟨found, first, answer⟩ := answered.exists_answer asked
    refine ⟨found, first, fun hit member => ?_⟩
    have fresh : hit.id ∉ ([] : List String) := List.not_mem_nil
    obtain ⟨kept, taken, same⟩ := keepFirst_covers (answer member) fresh
    obtain ⟨_, _, inside⟩ := answered.of_mem_flatten (mem_keepFirst taken).1
    exact ⟨kept, (mem_inWindow.mp inside).1, same, List.mem_map_of_mem taken⟩

/-- A range that holds no more hits than are asked for loses none, also where the answer
to another range was cut off at their common bound. -/
theorem BucketedLogs.complete {store : List LogHit} {ranges : List (ℚ × ℚ)} {share : ℕ}
    {rows : List Json} (logs : BucketedLogs store ranges share rows) {range : ℚ × ℚ}
    (asked : range ∈ ranges) (fits : (inWindow LogHit.time range store).length ≤ share)
    {hit : LogHit} (inside : hit ∈ inWindow LogHit.time range store) :
    ∃ kept ∈ store, kept.id = hit.id ∧ kept.row ∈ rows := by
  obtain ⟨found, first, returned⟩ := logs.earliest range asked
  exact returned hit ((first.perm_of_length_le fits).mem_iff.mpr inside)

/-- Where `_id` tells the stored hits apart, an earliest hit of each range is returned:
no range with logs goes without. -/
theorem BucketedLogs.exists_earliest {store : List LogHit} {ranges : List (ℚ × ℚ)} {share : ℕ}
    {rows : List Json} (logs : BucketedLogs store ranges share rows) (positive : 0 < share)
    (unique : ∀ a ∈ store, ∀ b ∈ store, a.id = b.id → a = b) {range : ℚ × ℚ}
    (asked : range ∈ ranges) (logged : inWindow LogHit.time range store ≠ []) :
    ∃ hit ∈ inWindow LogHit.time range store, hit.row ∈ rows ∧
      ∀ other ∈ inWindow LogHit.time range store, hit.time ≤ other.time := by
  obtain ⟨found, first, returned⟩ := logs.earliest range asked
  obtain ⟨hit, member, least⟩ := first.exists_least positive logged
  obtain ⟨kept, stored, same, row⟩ := returned hit member
  have inside := first.subset member
  rw [unique kept stored hit (mem_inWindow.mp inside).1 same] at row
  exact ⟨hit, inside, row, least⟩

/-- Where the ranges make up the window, no hit outside it is returned. -/
theorem BucketedLogs.in_window {store : List LogHit} {ranges : List (ℚ × ℚ)} {share : ℕ}
    {rows : List Json} (logs : BucketedLogs store ranges share rows) {windowStart windowEnd : ℚ}
    (tiles : Tiles windowStart windowEnd ranges) {row : Json} (member : row ∈ rows) :
    ∃ hit ∈ store, hit.row = row ∧ windowStart ≤ hit.time ∧ hit.time ≤ windowEnd := by
  obtain ⟨range, asked, hit, found, same⟩ := logs.inside row member
  obtain ⟨stored, inside⟩ := mem_inWindow.mp found
  exact ⟨hit, stored, same, (tiles hit.time).mp ⟨range, asked, inside⟩⟩

/-- Where moreover `_id` tells the stored hits apart and no range holds more hits than are
asked for, the rows are those of the window. -/
theorem BucketedLogs.mem_iff {store : List LogHit} {ranges : List (ℚ × ℚ)} {share : ℕ}
    {rows : List Json} (logs : BucketedLogs store ranges share rows) {windowStart windowEnd : ℚ}
    (tiles : Tiles windowStart windowEnd ranges)
    (unique : ∀ a ∈ store, ∀ b ∈ store, a.id = b.id → a = b)
    (fits : ∀ range ∈ ranges, (inWindow LogHit.time range store).length ≤ share)
    {hit : LogHit} (stored : hit ∈ store) :
    hit.row ∈ rows ↔ windowStart ≤ hit.time ∧ hit.time ≤ windowEnd := by
  constructor
  · intro member
    obtain ⟨other, known, same, inside⟩ := logs.in_window tiles member
    rwa [unique other known hit stored (LogHit.id_of_row same)] at inside
  · intro bounds
    obtain ⟨range, asked, inside⟩ := (tiles hit.time).mpr bounds
    obtain ⟨kept, known, same, member⟩ :=
      logs.complete asked (fits range asked) (mem_inWindow.mpr ⟨stored, inside⟩)
    exact unique kept known hit stored same ▸ member

/-- Whatever the rounding, the code collects the logs of the ranges it asks for. -/
theorem collectBucketedLogsWith_bucketed {lab : Lab W} {store : List LogHit}
    (backend : AnswersEarliest lab.searchLogs store) (round : ℚ → ℚ) (windowStart windowEnd : ℚ)
    (options : RecordingOptions) (s : W × List FlagOp) :
    ∃ rows t, collectBucketedLogsWith round lab windowStart windowEnd options s = (.ok rows, t) ∧
      BucketedLogs store (bucketRanges round windowStart windowEnd options)
        options.perBucket.toNat rows := by
  obtain ⟨answers, t, answered, returned⟩ :=
    collectBucketedLogsWith_eq backend round windowStart windowEnd options s
  exact ⟨_, t, returned, bucketedLogs_of_answered answered⟩

/-- In exact arithmetic the ranges are the parts of the window. -/
theorem bucketRange_exact (windowStart windowEnd : ℚ) (buckets index : ℕ) :
    bucketRange id windowStart windowEnd buckets index =
      part windowStart windowEnd buckets index := by
  have last : (index : ℤ) = buckets - 1 ↔ index + 1 = buckets := by omega
  simp only [bucketRange, id, Int.cast_natCast, last]
  split
  · rename_i same
    rw [part, ← same, cut_self _ _ index.succ_ne_zero]
    rfl
  · rw [part, cut, cut, Nat.cast_succ]

theorem bucketRanges_exact (windowStart windowEnd : ℚ) (options : RecordingOptions) :
    bucketRanges id windowStart windowEnd options =
      (List.range options.buckets.toNat).map
        (part windowStart windowEnd options.buckets.toNat) := by
  have count : ((options.buckets.toNat : ℕ) : ℤ) = options.buckets :=
    Int.toNat_of_nonneg (zero_le_one.trans (le_max_left 1 _))
  refine List.map_congr_left fun index _ => ?_
  rw [← bucketRange_exact, count]

theorem RecordingOptions.buckets_ne_zero (options : RecordingOptions) :
    options.buckets.toNat ≠ 0 := by
  have := le_max_left 1 options.logBuckets
  rw [RecordingOptions.buckets]
  omega

theorem bucketRanges_exact_tiles (windowStart windowEnd : ℚ) (options : RecordingOptions) :
    Tiles windowStart windowEnd (bucketRanges id windowStart windowEnd options) := by
  rw [bucketRanges_exact]
  exact tiles_parts windowStart windowEnd options.buckets_ne_zero

theorem RecordingOptions.buckets_of_pos {options : RecordingOptions}
    (buckets : 0 < options.logBuckets) : options.buckets = options.logBuckets :=
  max_eq_right (by omega)

/-- `-(-limit // buckets)` is the quotient rounded up. -/
theorem perBucket_eq_ceil {options : RecordingOptions} (buckets : 0 < options.logBuckets)
    (limit : 0 < options.logLimit) :
    options.perBucket.toNat = ⌈(options.logLimit / options.logBuckets : ℚ)⌉₊ := by
  obtain ⟨n, count⟩ := Int.eq_ofNat_of_zero_le buckets.le
  have quotient : (0 : ℚ) < options.logLimit / options.logBuckets :=
    div_pos (Int.cast_pos.mpr limit) (Int.cast_pos.mpr buckets)
  have ceil : -((-options.logLimit) / options.buckets) =
      ⌈(options.logLimit / options.logBuckets : ℚ)⌉ := by
    rw [RecordingOptions.buckets_of_pos buckets, count, Int.cast_natCast,
      Rat.ceil_intCast_div_natCast]
  rw [RecordingOptions.perBucket, ceil, max_eq_right (Int.one_le_ceil_iff.mpr quotient),
    Int.ceil_toNat]

/-- In exact arithmetic no `_id` comes twice, the limit is kept, every row lies in the
window, and a part of the window that holds no more hits than are asked for loses none of
them: the hit itself is returned, unless other stored hits share its `_id`. -/
theorem collects_bucketed_logs (lab : Lab W) {store : List LogHit}
    (backend : AnswersEarliest lab.searchLogs store) (windowStart windowEnd : ℚ)
    (options : RecordingOptions) (buckets : 0 < options.logBuckets) (limit : 0 < options.logLimit)
    (s : W × List FlagOp) :
    ∃ rows t, collectBucketedLogsWith id lab windowStart windowEnd options s = (.ok rows, t) ∧
      (rows.map fun row => row.get "_id").Nodup ∧
      rows.length ≤
        options.logBuckets.toNat * ⌈(options.logLimit / options.logBuckets : ℚ)⌉₊ ∧
      (∀ row ∈ rows, ∃ hit ∈ store,
        hit.row = row ∧ windowStart ≤ hit.time ∧ hit.time ≤ windowEnd) ∧
      ∀ index < options.logBuckets.toNat, ∀ held : List LogHit,
        held = inWindow LogHit.time
          (part windowStart windowEnd options.logBuckets.toNat index) store →
        held.length ≤ ⌈(options.logLimit / options.logBuckets : ℚ)⌉₊ →
        ∀ hit ∈ held, (∃ row ∈ rows, row.get "_id" = .ok (.str hit.id)) ∧
          ((∀ other ∈ store, other.id = hit.id → other.row = hit.row) → hit.row ∈ rows) := by
  obtain ⟨rows, t, returned, logs⟩ :=
    collectBucketedLogsWith_bucketed backend id windowStart windowEnd options s
  have count := RecordingOptions.buckets_of_pos buckets
  rw [perBucket_eq_ceil buckets limit] at logs
  have tiles := bucketRanges_exact_tiles windowStart windowEnd options
  refine ⟨rows, t, returned, logs.distinct, ?_, fun row => logs.in_window tiles, ?_⟩
  · have bound := logs.length_le
    rwa [bucketRanges, List.length_map, List.length_range, count] at bound
  · rintro index below held rfl fits hit inside
    have asked : part windowStart windowEnd options.logBuckets.toNat index ∈
        bucketRanges id windowStart windowEnd options := by
      rw [bucketRanges_exact, count]
      exact List.mem_map_of_mem (List.mem_range.mpr below)
    obtain ⟨kept, stored, same, member⟩ := logs.complete asked fits inside
    constructor
    · exact ⟨kept.row, member, by rw [kept.identified, same]⟩
    · intro alone
      exact alone kept stored same ▸ member

end

section Sample

def sampleLog (time : ℚ) (id : String) : LogHit where
  time := time
  id := id
  row := .dict [("_id", .str id)]
  identified := rfl

/-- Two logs at the bound between two buckets, and one after the window. -/
def sampleLogs : List LogHit :=
  [sampleLog 60 "b", sampleLog 0 "a", sampleLog 100 "d", sampleLog 60 "c", sampleLog 130 "e"]

def bucketLab : Lab ℕ :=
  { interruptedLab with
    searchLogs := fun size start end_ =>
      searchLogs (listIndex sampleLogs) size (some start) (some end_) }

def bucketOptions : RecordingOptions where
  metricQueries := []
  logLimit := 5
  logBuckets := 2

/-- Both logs at the bound are returned, each once. -/
theorem collects_logs_at_bound :
    ∃ rows t, collectBucketedLogsWith id bucketLab 0 120 bucketOptions (0, []) = (.ok rows, t) ∧
      (rows.map fun row => row.get "_id").Nodup ∧ rows.length ≤ 6 ∧
      (sampleLog 60 "b").row ∈ rows ∧ (sampleLog 60 "c").row ∈ rows := by
  have backend : AnswersEarliest bucketLab.searchLogs sampleLogs :=
    searchLogs_answersEarliest (listIndex_answers sampleLogs)
  obtain ⟨rows, t, returned, distinct, count, _, complete⟩ :=
    collects_bucketed_logs bucketLab backend 0 120 bucketOptions (by decide) (by decide) (0, [])
  have share : ⌈(bucketOptions.logLimit / bucketOptions.logBuckets : ℚ)⌉₊ = 3 := by
    norm_num [bucketOptions, Nat.ceil_eq_iff]
  have second : part (0 : ℚ) 120 bucketOptions.logBuckets.toNat 1 = (60, 120) := by
    change part (0 : ℚ) 120 2 1 = (60, 120)
    norm_num [part, cut]
  have held : [sampleLog 60 "b", sampleLog 100 "d", sampleLog 60 "c"] =
      inWindow LogHit.time (part 0 120 bucketOptions.logBuckets.toNat 1) sampleLogs := by
    rw [second]
    norm_num [inWindow, sampleLogs, sampleLog]
  have unique : ∀ hit ∈ sampleLogs, ∀ other ∈ sampleLogs,
      other.id = hit.id → other.row = hit.row := by
    simp [sampleLogs, sampleLog]
  rw [share] at count
  have found := complete 1 (by decide) _ held share.ge
  refine ⟨rows, t, returned, distinct, count, ?_, ?_⟩
  · exact (found (sampleLog 60 "b") (by simp)).2 (unique _ (by simp [sampleLogs]))
  · exact (found (sampleLog 60 "c") (by simp)).2 (unique _ (by simp [sampleLogs]))

end Sample

end Sentinel.Labs.Otel
