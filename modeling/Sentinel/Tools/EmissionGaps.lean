import Sentinel.Fixtures.Scenarios
import Sentinel.Python.Counter

/-! Services that stopped emitting: stretches of empty buckets between two active ones,
and after the last of them up to the end of the window. -/
namespace Sentinel.Tools
open Python Fixtures

structure EmissionGapsInput where
  bucketSeconds : ℤ := 30
  bounds : 5 ≤ bucketSeconds ∧ bucketSeconds ≤ 300 := by decide

structure EmissionGap where
  service : String
  gapStartSecond : ℤ
  gapEndSecond : ℤ
  resumed : Bool
  deriving DecidableEq, Repr

structure EmissionGapsOutput where
  gaps : List EmissionGap
  note : String := ""
  deriving DecidableEq, Repr

def EmissionGap.length (g : EmissionGap) : ℤ := g.gapEndSecond - g.gapStartSecond

/-- `counts[span.service][span.time // bucket] += 1`. -/
def countSpan (bucket : ℤ) (counts : Dict String (Dict ℤ ℕ)) (span : TraceRow) :
    Dict String (Dict ℤ ℕ) :=
  let buckets := (counts.get? span.service).getD .empty
  let index := span.time / bucket
  counts.set span.service (buckets.set index ((buckets.get? index).getD 0 + 1))

/-- The gaps of one service, from its active buckets in order. -/
def serviceGaps (bucket : ℤ) (window : TimeWindow) (service : String) (active : List ℤ) :
    List EmissionGap :=
  if active.length < 2 then []
  else
    (((active.zip active.tail).filter fun (prev, nxt) => decide (1 < nxt - prev)).map
      fun (prev, nxt) => ⟨service, (prev + 1) * bucket, nxt * bucket, true⟩) ++
    ((active.getLast?.filter fun last => decide (last < window.stop / bucket - 1)).map
      fun last => ⟨service, (last + 1) * bucket, window.stop, false⟩).toList

/-- All gaps, service by service. -/
def findGaps (bucket : ℤ) (window : TimeWindow) (spans : List TraceRow) : List EmissionGap :=
  (spans.foldl (countSpan bucket) .empty).items.flatMap fun (service, buckets) =>
    serviceGaps bucket window service (sortedBy id buckets.keys)

def tracesEmissionGaps (params : EmissionGapsInput) (window : TimeWindow) (spans : List TraceRow) :
    EmissionGapsOutput :=
  let gaps := sortedBy (fun g => -g.length) (findGaps params.bucketSeconds window spans)
  { gaps := gaps.take 30,
    note := if gaps.isEmpty then "every service emitted spans continuously through the window"
      else "" }

/-- The service emits a span in the bucket. -/
def Active (bucket : ℤ) (spans : List TraceRow) (service : String) (index : ℤ) : Prop :=
  ∃ s ∈ spans, s.service = service ∧ s.time / bucket = index

/-- A maximal run of empty buckets between two active ones, or what follows the last of
several active buckets when a whole bucket lies before that of the end of the window. -/
inductive IsGap (bucket : ℤ) (window : TimeWindow) (spans : List TraceRow) : EmissionGap → Prop where
  | between {service : String} {prev nxt : ℤ} (before : Active bucket spans service prev)
      (after : Active bucket spans service nxt) (apart : prev + 1 < nxt)
      (empty : ∀ k, prev < k → k < nxt → ¬ Active bucket spans service k) :
      IsGap bucket window spans ⟨service, (prev + 1) * bucket, nxt * bucket, true⟩
  | trailing {service : String} {other last whole : ℤ} (earlier : Active bucket spans service other)
      (before : Active bucket spans service last) (several : other < last)
      (empty : ∀ k, last < k → ¬ Active bucket spans service k)
      (after : last < whole) (inside : whole < window.stop / bucket) :
      IsGap bucket window spans ⟨service, (last + 1) * bucket, window.stop, false⟩

section Neighbours
variable {α : Type*} [LinearOrder α]

/-- In a list in strict order, the pairs of neighbours are those without an element between. -/
theorem mem_zip_tail {xs : List α} (sorted : xs.Pairwise (· < ·)) {a b : α} :
    (a, b) ∈ xs.zip xs.tail ↔ a ∈ xs ∧ b ∈ xs ∧ a < b ∧ ∀ c ∈ xs, c ≤ a ∨ b ≤ c := by
  induction xs with
  | nil => simp
  | cons x rest ih =>
    rw [List.pairwise_cons] at sorted
    cases rest with
    | nil =>
      simp only [List.tail_cons, List.zip_nil_right, List.not_mem_nil, List.mem_singleton, false_iff]
      rintro ⟨rfl, rfl, less, -⟩
      exact lt_irrefl _ less
    | cons y rest =>
      rw [List.tail_cons, List.zip_cons_cons, List.mem_cons, Prod.mk.injEq]
      have above : ∀ c ∈ rest, y < c := (List.pairwise_cons.mp sorted.2).1
      have first : x < y := sorted.1 y List.mem_cons_self
      constructor
      · rintro (⟨rfl, rfl⟩ | later)
        · refine ⟨by simp, by simp, first, fun c member => ?_⟩
          rcases List.mem_cons.mp member with rfl | member
          · exact .inl le_rfl
          · rcases List.mem_cons.mp member with rfl | member
            · exact .inr le_rfl
            · exact .inr (above c member).le
        · obtain ⟨inA, inB, less, none_⟩ := (ih sorted.2).mp later
          refine ⟨List.mem_cons_of_mem x inA, List.mem_cons_of_mem x inB, less, fun c member => ?_⟩
          rcases List.mem_cons.mp member with rfl | member
          · exact .inl (sorted.1 a inA).le
          · exact none_ c member
      · rintro ⟨inA, inB, less, none_⟩
        rcases List.mem_cons.mp inA with rfl | laterA
        · left
          refine ⟨rfl, ?_⟩
          rcases List.mem_cons.mp inB with rfl | inB
          · exact absurd less (lt_irrefl _)
          · rcases none_ y (by simp) with le | le
            · exact absurd first (not_lt.mpr le)
            · refine le_antisymm le ?_
              rcases List.mem_cons.mp inB with rfl | inB
              · exact le_rfl
              · exact (above b inB).le
        · right
          refine (ih sorted.2).mpr
            ⟨laterA, ?_, less, fun c member => none_ c (List.mem_cons_of_mem x member)⟩
          rcases List.mem_cons.mp inB with rfl | inB
          · exact absurd (less.trans (sorted.1 a laterA)) (lt_irrefl _)
          · exact inB

/-- The pairs of neighbours differ in their first elements. -/
theorem nodup_zip_tail {xs : List α} (sorted : xs.Pairwise (· < ·)) : (xs.zip xs.tail).Nodup := by
  induction xs with
  | nil => exact List.nodup_nil
  | cons x rest ih =>
    rw [List.pairwise_cons] at sorted
    cases rest with
    | nil => exact List.nodup_nil
    | cons y rest =>
      rw [List.tail_cons, List.zip_cons_cons, List.nodup_cons]
      refine ⟨fun again => ?_, ih sorted.2⟩
      exact lt_irrefl x (sorted.1 x ((mem_zip_tail sorted.2).mp again).1)

end Neighbours

section
variable {bucket : ℤ} {window : TimeWindow} {spans : List TraceRow} {service : String}

theorem mem_keys_countSpan (counts : Dict String (Dict ℤ ℕ)) (span : TraceRow) {index : ℤ} :
    index ∈ (((countSpan bucket counts span).get? service).getD .empty).keys ↔
      index ∈ ((counts.get? service).getD .empty).keys ∨
        (span.service = service ∧ span.time / bucket = index) := by
  rw [countSpan, Dict.get?_set]
  split
  · rename_i same
    subst same
    rw [Option.getD_some, Dict.mem_keys_set, or_comm]
    simp [eq_comm]
  · rename_i other
    simp [Ne.symm other]

/-- The buckets counted for a service are its active ones. -/
theorem mem_counted {index : ℤ} :
    index ∈ (((spans.foldl (countSpan bucket) .empty).get? service).getD .empty).keys ↔
      Active bucket spans service index := by
  have run (counts : Dict String (Dict ℤ ℕ)) :
      index ∈ (((spans.foldl (countSpan bucket) counts).get? service).getD .empty).keys ↔
        index ∈ ((counts.get? service).getD .empty).keys ∨ Active bucket spans service index := by
    induction spans generalizing counts with
    | nil => simp [Active]
    | cons span rest ih =>
      rw [List.foldl_cons, ih, mem_keys_countSpan, or_assoc]
      simp [Active]
  have none_ : index ∉ (Dict.empty : Dict ℤ ℕ).keys := List.not_mem_nil
  simp [run, none_]

/-- The keys of a dict, sorted, increase strictly. -/
theorem sorted_keys {ν : Type} (buckets : Dict ℤ ν) :
    (sortedBy id buckets.keys).Pairwise (· < ·) := by
  have distinct : (sortedBy id buckets.keys).Nodup :=
    (sortedBy_perm _ _).nodup_iff.mpr buckets.unique
  exact ((sortedBy_pairwise id buckets.keys).and distinct).imp fun both => lt_of_le_of_ne both.1 both.2

/-- The last of the active buckets in order is the greatest. -/
theorem getLast?_eq_some_iff_greatest {active : List ℤ} (sorted : active.Pairwise (· < ·)) {last : ℤ} :
    active.getLast? = some last ↔ last ∈ active ∧ ∀ k ∈ active, k ≤ last := by
  rcases List.eq_nil_or_concat active with rfl | ⟨earlier, final, rfl⟩
  · simp
  · rw [List.concat_eq_append, List.pairwise_append] at sorted
    simp only [List.concat_eq_append, List.getLast?_concat, Option.some.injEq, List.mem_append,
      List.mem_singleton]
    have below : ∀ k ∈ earlier, k < final := fun k member => sorted.2.2 k member final (by simp)
    constructor
    · rintro rfl
      exact ⟨.inr rfl, fun k member => member.elim (fun early => (below k early).le) le_of_eq⟩
    · rintro ⟨inActive, bound⟩
      rcases inActive with early | rfl
      · exact absurd (bound final (.inr rfl)) (not_le.mpr (below last early))
      · rfl

theorem IsGap.several {g : EmissionGap} (gap : IsGap bucket window spans g) :
    ∃ a b, Active bucket spans g.service a ∧ Active bucket spans g.service b ∧ a < b := by
  cases gap with
  | between before after apart => exact ⟨_, _, before, after, by omega⟩
  | trailing earlier before several => exact ⟨_, _, earlier, before, several⟩

/-- The gaps of a service are those between its active buckets and after them. -/
theorem mem_serviceGaps {active : List ℤ} (sorted : active.Pairwise (· < ·))
    (emits : ∀ k, k ∈ active ↔ Active bucket spans service k) {g : EmissionGap} :
    g ∈ serviceGaps bucket window service active ↔ g.service = service ∧ IsGap bucket window spans g := by
  unfold serviceGaps
  split
  · rename_i few
    refine ⟨fun member => absurd member List.not_mem_nil, ?_⟩
    rintro ⟨rfl, gap⟩
    obtain ⟨a, b, inA, inB, less⟩ := gap.several
    rw [← emits] at inA inB
    obtain ⟨x, rfl⟩ : ∃ x, active = [x] :=
      List.length_eq_one_iff.mp (by have := List.length_pos_of_mem inA; omega)
    rw [List.mem_singleton] at inA inB
    omega
  · rename_i many
    rw [List.mem_append, List.mem_map, Option.mem_toList, Option.map_eq_some_iff]
    constructor
    · rintro (⟨⟨prev, nxt⟩, kept, rfl⟩ | ⟨last, kept, rfl⟩)
      · obtain ⟨pair, apart⟩ := List.mem_filter.mp kept
        obtain ⟨inPrev, inNxt, less, none_⟩ := (mem_zip_tail sorted).mp pair
        have wide : prev + 1 < nxt := by
          have := of_decide_eq_true apart
          omega
        refine ⟨rfl, .between ((emits _).mp inPrev) ((emits _).mp inNxt) wide
          fun k above below active => ?_⟩
        have := none_ k ((emits k).mpr active)
        omega
      · obtain ⟨found, short⟩ := Option.filter_eq_some_iff.mp kept
        obtain ⟨inLast, greatest⟩ := (getLast?_eq_some_iff_greatest sorted).mp found
        have room := of_decide_eq_true short
        obtain ⟨earlier, split⟩ := List.getLast?_eq_some_iff.mp found
        obtain ⟨other, early⟩ : ∃ other, other ∈ earlier := by
          cases earlier with
          | nil => exact absurd (by simp [split]) many
          | cons other rest => exact ⟨other, List.mem_cons_self⟩
        have less : other < last := by
          rw [split, List.pairwise_append] at sorted
          exact sorted.2.2 other early last (List.mem_singleton_self last)
        have inOther : other ∈ active := split ▸ List.mem_append_left _ early
        refine ⟨rfl, .trailing ((emits _).mp inOther) ((emits _).mp inLast) less
          (fun k above active => ?_) (Int.lt_succ last) (by omega)⟩
        have := greatest k ((emits k).mpr active)
        omega
    · rintro ⟨rfl, gap⟩
      cases gap with
      | @between service prev nxt before after apart empty =>
        refine .inl ⟨(prev, nxt), List.mem_filter.mpr ⟨(mem_zip_tail sorted).mpr ?_, ?_⟩, rfl⟩
        · refine ⟨(emits _).mpr before, (emits _).mpr after, by omega, fun k member => ?_⟩
          by_contra inside
          rw [not_or, not_le, not_le] at inside
          exact empty k inside.1 inside.2 ((emits k).mp member)
        · exact decide_eq_true (by omega)
      | @trailing service other last whole earlier before several empty after inside =>
        refine .inr ⟨last, Option.filter_eq_some_iff.mpr ⟨?_, decide_eq_true (by omega)⟩, rfl⟩
        refine (getLast?_eq_some_iff_greatest sorted).mpr ⟨(emits _).mpr before, fun k member => ?_⟩
        by_contra more
        exact empty k (not_le.mp more) ((emits k).mp member)

theorem serviceGaps_nodup {active : List ℤ} (sorted : active.Pairwise (· < ·)) (positive : 0 < bucket) :
    (serviceGaps bucket window service active).Nodup := by
  unfold serviceGaps
  split
  · exact List.nodup_nil
  · refine List.nodup_append'.mpr ⟨?_, ?_, ?_⟩
    · refine ((nodup_zip_tail sorted).filter _).map_on ?_
      rintro ⟨prev, nxt⟩ _ ⟨prev', nxt'⟩ _ same
      have starts : (prev + 1) * bucket = (prev' + 1) * bucket := congrArg EmissionGap.gapStartSecond same
      have ends : nxt * bucket = nxt' * bucket := congrArg EmissionGap.gapEndSecond same
      have first := Int.eq_of_mul_eq_mul_right positive.ne' starts
      have second := Int.eq_of_mul_eq_mul_right positive.ne' ends
      rw [second, show prev = prev' by omega]
    · cases active.getLast?.filter _ <;> simp
    · intro g between after
      obtain ⟨_, _, rfl⟩ := List.mem_map.mp between
      obtain ⟨_, _, other⟩ := Option.map_eq_some_iff.mp (Option.mem_toList.mp after)
      exact nomatch congrArg EmissionGap.resumed other

/-- All gaps are found, each once. -/
theorem mem_findGaps {g : EmissionGap} :
    g ∈ findGaps bucket window spans ↔ IsGap bucket window spans g := by
  have each {service : String} {buckets : Dict ℤ ℕ}
      (entry : (service, buckets) ∈ (spans.foldl (countSpan bucket) .empty).items) (k : ℤ) :
      k ∈ sortedBy id buckets.keys ↔ Active bucket spans service k := by
    rw [mem_sortedBy, ← mem_counted, (Dict.mem_items_iff _).mp entry, Option.getD_some]
  rw [findGaps, List.mem_flatMap]
  constructor
  · rintro ⟨⟨service, buckets⟩, entry, member⟩
    exact ((mem_serviceGaps (sorted_keys _) (each entry)).mp member).2
  · intro gap
    obtain ⟨a, -, active, -⟩ := gap.several
    rw [← mem_counted] at active
    cases found : (spans.foldl (countSpan bucket) .empty).get? g.service with
    | none =>
      rw [found, Option.getD_none] at active
      exact absurd active List.not_mem_nil
    | some buckets =>
      have entry := (Dict.mem_items_iff _).mpr found
      exact ⟨(g.service, buckets), entry, (mem_serviceGaps (sorted_keys _) (each entry)).mpr ⟨rfl, gap⟩⟩

theorem service_of_mem {active : List ℤ} {g : EmissionGap}
    (member : g ∈ serviceGaps bucket window service active) : g.service = service := by
  unfold serviceGaps at member
  split at member
  · cases member
  · rcases List.mem_append.mp member with between | after
    · obtain ⟨_, _, rfl⟩ := List.mem_map.mp between
      rfl
    · obtain ⟨_, _, rfl⟩ := Option.map_eq_some_iff.mp (Option.mem_toList.mp after)
      rfl

theorem findGaps_nodup (positive : 0 < bucket) : (findGaps bucket window spans).Nodup := by
  rw [findGaps, List.nodup_flatMap]
  refine ⟨fun (service, buckets) _ => serviceGaps_nodup (sorted_keys _) positive, ?_⟩
  have distinct := (spans.foldl (countSpan bucket) .empty).unique
  refine (List.pairwise_map.mp distinct).imp fun {a b} apart g inA inB => ?_
  exact apart ((service_of_mem inA).symm.trans (service_of_mem inB))

/-- A gap covers some time, in which the service emits nothing. -/
theorem IsGap.silent {g : EmissionGap} (positive : 0 < bucket) (gap : IsGap bucket window spans g) :
    g.gapStartSecond < g.gapEndSecond ∧
      ∀ s ∈ spans, s.service = g.service → ¬ (g.gapStartSecond ≤ s.time ∧ s.time < g.gapEndSecond) := by
  cases gap with
  | @between service prev nxt before after apart empty =>
    refine ⟨Int.mul_lt_mul_of_pos_right apart positive, fun s member same inside => ?_⟩
    refine empty (s.time / bucket) ?_ ?_ ⟨s, member, same, rfl⟩
    · exact Int.lt_of_add_one_le ((Int.le_ediv_iff_mul_le positive).mpr inside.1)
    · exact (Int.ediv_lt_iff_lt_mul positive).mpr inside.2
  | @trailing service other last whole earlier before several empty after inside =>
    have room : (last + 1) * bucket < window.stop := by
      have next : last + 1 < window.stop / bucket := by omega
      calc (last + 1) * bucket < window.stop / bucket * bucket :=
              Int.mul_lt_mul_of_pos_right next positive
        _ ≤ window.stop := Int.ediv_mul_le _ positive.ne'
    refine ⟨room, fun s member same inside => ?_⟩
    refine empty (s.time / bucket) ?_ ⟨s, member, same, rfl⟩
    exact Int.lt_of_add_one_le ((Int.le_ediv_iff_mul_le positive).mpr inside.1)

end

/-- Every gap is found, once, and covers time in which the service emits nothing. Where
there are more than thirty, none of those kept is shorter than one left out. -/
theorem tracesEmissionGaps_spec (params : EmissionGapsInput) (window : TimeWindow)
    (spans : List TraceRow) :
    ∃ gaps dropped, (tracesEmissionGaps params window spans).gaps = gaps ∧
      (gaps ++ dropped).Nodup ∧
      (∀ g, g ∈ gaps ++ dropped ↔ IsGap params.bucketSeconds window spans g) ∧
      (∀ g ∈ gaps, g.gapStartSecond < g.gapEndSecond ∧
        ∀ s ∈ spans, s.service = g.service → ¬ (g.gapStartSecond ≤ s.time ∧ s.time < g.gapEndSecond)) ∧
      gaps.length = min 30 (gaps ++ dropped).length ∧
      ∀ kept ∈ gaps, ∀ cut ∈ dropped, cut.length ≤ kept.length := by
  have positive : 0 < params.bucketSeconds := by
    have := params.bounds.1
    omega
  set all := findGaps params.bucketSeconds window spans with allIs
  set sorted := sortedBy (fun g : EmissionGap => -g.length) all with sortedIs
  have whole : sorted.take 30 ++ sorted.drop 30 = sorted := List.take_append_drop 30 sorted
  have same : sorted.Perm all := sortedBy_perm _ _
  have found (g : EmissionGap) : g ∈ sorted ↔ IsGap params.bucketSeconds window spans g :=
    mem_sortedBy.trans mem_findGaps
  refine ⟨sorted.take 30, sorted.drop 30, rfl, ?_, fun g => ?_, fun g member => ?_, ?_, ?_⟩
  · rw [whole]
    exact same.nodup_iff.mpr (findGaps_nodup positive)
  · rw [whole]
    exact found g
  · exact ((found g).mp (List.mem_of_mem_take member)).silent positive
  · rw [whole, List.length_take]
  · intro kept inKept cut inCut
    have le := take_sortedBy_le inKept inCut
    omega

end Sentinel.Tools
