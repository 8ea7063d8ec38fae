import Sentinel.Python.Rounding
import Sentinel.Tools.Store

/-! The ranking of the changes before an onset. A change on the suspected service scores
above all others, and then the nearer one; scores are rounded to thousandths before they
are compared. -/
namespace Sentinel.Tools
open Python Fixtures

structure ChangesRankCulpritInput where
  onsetSecond : ℤ
  suspectedService : Option String := none
  nonneg : 0 ≤ onsetSecond := by decide

structure CulpritCandidate where
  changeId : String
  service : String
  time : ℤ
  score : ℚ
  reason : String

/-- `round(x, 3)`, without the last division. -/
def thousandths (x : ℚ) : ℤ := roundEven (1000 * x)

def roundThree (x : ℚ) : ℚ := rnd (thousandths x / 1000)

namespace ChangesRankCulpritInput

variable (p : ChangesRankCulpritInput)

def lead (c : ChangeEvent) : ℤ := p.onsetSecond - c.time

def serviceMatch (c : ChangeEvent) : Bool := p.suspectedService = some c.service

/-- `max(..) or 1` over the leads. -/
def span (candidates : List ChangeEvent) : ℤ :=
  let farthest := ((candidates.map p.lead).max?).getD 0
  if farthest = 0 then 1 else farthest

/-- The score of a candidate by its lead, when the farthest one has the lead `span`. -/
def score (span : ℤ) (c : ChangeEvent) : ℚ :=
  let proximity := rnd (1 - rnd (p.lead c / span))
  rnd ((if p.serviceMatch c then 10 else 1) + proximity)

def candidate (span : ℤ) (c : ChangeEvent) : CulpritCandidate where
  changeId := c.id
  service := c.service
  time := c.time
  score := roundThree (p.score span c)
  reason := (if p.serviceMatch c then "on suspected service " ++ c.service ++ "; " else "") ++
    toString (p.lead c) ++ "s before onset"

def candidates (s : FixtureStore) : List ChangeEvent :=
  (s.listChanges {}).filter fun c => c.time < p.onsetSecond

end ChangesRankCulpritInput

def changesRankCulprit (p : ChangesRankCulpritInput) (s : FixtureStore) : List CulpritCandidate :=
  let candidates := p.candidates s
  if candidates.isEmpty then []
  else sortedBy (fun r => OrderDual.toDual r.score) (candidates.map (p.candidate (p.span candidates)))

theorem changesRankCulprit_eq (p : ChangesRankCulpritInput) (s : FixtureStore) :
    changesRankCulprit p s = sortedBy (fun r => OrderDual.toDual r.score)
      ((p.candidates s).map (p.candidate (p.span (p.candidates s)))) := by
  unfold changesRankCulprit
  dsimp only
  cases p.candidates s <;> rfl

/-! ### The scores -/

namespace ChangesRankCulpritInput

variable {p : ChangesRankCulpritInput} {s : FixtureStore} {c d : ChangeEvent}

theorem mem_candidates : c ∈ p.candidates s ↔ c ∈ s.fixture.changes ∧ c.time < p.onsetSecond := by
  simp [candidates, FixtureStore.listChanges, ChangeFilter.wants]

theorem candidates_perm :
    (p.candidates s).Perm (s.fixture.changes.filter fun c => c.time < p.onsetSecond) := by
  refine ((sortedBy_perm _ _).filter _).trans (.of_eq ?_)
  simp [ChangeFilter.wants]

theorem candidates_pairwise : (p.candidates s).Pairwise fun c d => c.time ≤ d.time :=
  (sortedBy_pairwise ChangeEvent.time _).filter _

theorem lead_pos (member : c ∈ p.candidates s) : 0 < p.lead c :=
  Int.sub_pos.mpr (mem_candidates.mp member).2

theorem lead_le_span (member : c ∈ p.candidates s) : p.lead c ≤ p.span (p.candidates s) := by
  obtain ⟨farthest, largest⟩ : ∃ farthest, ((p.candidates s).map p.lead).max? = some farthest := by
    refine Option.ne_none_iff_exists'.mp fun none => ?_
    rw [List.max?_eq_none_iff, List.map_eq_nil_iff] at none
    rw [none] at member
    cases member
  have bound := (List.max?_eq_some_iff.mp largest).2 _ (List.mem_map_of_mem member)
  have positive := lead_pos member
  rw [span, largest, Option.getD_some, if_neg (by omega)]
  exact bound

theorem span_pos (member : c ∈ p.candidates s) : 0 < p.span (p.candidates s) :=
  (lead_pos member).trans_le (lead_le_span member)

/-- The share of the span that a candidate stands away from the onset. -/
theorem share_bounds (member : c ∈ p.candidates s) :
    0 ≤ rnd (p.lead c / p.span (p.candidates s)) ∧ rnd (p.lead c / p.span (p.candidates s)) ≤ 1 := by
  have lead : (0 : ℚ) < p.lead c := by exact_mod_cast lead_pos member
  have span : (0 : ℚ) < p.span (p.candidates s) := by exact_mod_cast span_pos member
  have within : (p.lead c / p.span (p.candidates s) : ℚ) ≤ 1 := by
    rw [div_le_one span]
    exact_mod_cast lead_le_span member
  have start : (0 : ℚ) ≤ p.lead c / p.span (p.candidates s) := (div_pos lead span).le
  refine ⟨rnd_nonneg start, (rnd_mono start within).trans (le_of_eq ?_)⟩
  exact_mod_cast rnd_intCast (n := 1) (by norm_num)

theorem proximity_bounds (member : c ∈ p.candidates s) :
    0 ≤ rnd (1 - rnd (p.lead c / p.span (p.candidates s))) ∧
      rnd (1 - rnd (p.lead c / p.span (p.candidates s))) ≤ 1 := by
  obtain ⟨low, high⟩ := share_bounds member
  refine ⟨rnd_nonneg (by linarith), (rnd_mono (by linarith) (by linarith : _ ≤ (1 : ℚ))).trans
    (le_of_eq ?_)⟩
  exact_mod_cast rnd_intCast (n := 1) (by norm_num)

/-- A score lies within one of its base. -/
theorem score_bounds (base : ℤ) (of : base = if p.serviceMatch c then 10 else 1)
    (member : c ∈ p.candidates s) :
    base ≤ p.score (p.span (p.candidates s)) c ∧
      p.score (p.span (p.candidates s)) c ≤ base + 1 := by
  obtain ⟨low, high⟩ := proximity_bounds member
  have small : 1 ≤ base ∧ base ≤ 10 := by
    rw [of]
    split <;> decide
  have positive : (1 : ℚ) ≤ base := by exact_mod_cast small.1
  have cast : (if p.serviceMatch c then 10 else 1 : ℚ) = base := by
    rw [of]
    split <;> norm_num
  have whole := rnd_intCast (n := base) (by rw [abs_lt]; omega)
  have next := rnd_intCast (n := base + 1) (by rw [abs_lt]; omega)
  unfold score
  rw [cast]
  constructor
  · exact whole.symm.le.trans (rnd_mono (by linarith) (by linarith))
  · refine (rnd_mono (by linarith) (by push_cast; linarith)).trans (next.le.trans (le_of_eq ?_))
    push_cast
    rfl

theorem score_nonneg (member : c ∈ p.candidates s) : 0 ≤ p.score (p.span (p.candidates s)) c := by
  obtain ⟨low, -⟩ := score_bounds _ rfl member
  refine le_trans ?_ low
  split <;> norm_num

/-- The nearer of two changes with one base does not score less. -/
theorem score_mono (alike : p.serviceMatch c = p.serviceMatch d) (inC : c ∈ p.candidates s)
    (inD : d ∈ p.candidates s) (nearer : c.time ≤ d.time) :
    p.score (p.span (p.candidates s)) c ≤ p.score (p.span (p.candidates s)) d := by
  have span : (0 : ℚ) < p.span (p.candidates s) := by exact_mod_cast span_pos inC
  have leads : (p.lead d : ℚ) ≤ p.lead c := by
    exact_mod_cast (by simp only [lead]; omega : p.lead d ≤ p.lead c)
  have shares : rnd (p.lead d / p.span (p.candidates s)) ≤ rnd (p.lead c / p.span (p.candidates s)) := by
    refine rnd_mono (div_nonneg ?_ span.le) (div_le_div_of_nonneg_right leads span.le)
    exact_mod_cast (lead_pos inD).le
  have proximities := rnd_mono (sub_nonneg.mpr (share_bounds inC).2) (sub_le_sub_left shares 1)
  unfold score
  rw [alike]
  refine rnd_mono (add_nonneg ?_ (proximity_bounds inC).1) (by linarith)
  split <;> norm_num

theorem thousandths_bounds (member : c ∈ p.candidates s) :
    0 ≤ thousandths (p.score (p.span (p.candidates s)) c) ∧
      thousandths (p.score (p.span (p.candidates s)) c) < 2 ^ 30 := by
  obtain ⟨-, high⟩ := score_bounds _ rfl member
  constructor
  · refine le_roundEven ?_
    have := score_nonneg member
    push_cast
    linarith
  · refine lt_of_le_of_lt (roundEven_le (n := 11000) ?_) (by norm_num)
    have top : ((if p.serviceMatch c then 10 else 1 : ℤ) : ℚ) ≤ 10 := by split <;> norm_num
    push_cast at high top ⊢
    linarith

/-- What rounds to more thousandths scores more. -/
theorem roundThree_lt (inC : c ∈ p.candidates s) (inD : d ∈ p.candidates s)
    (more : thousandths (p.score (p.span (p.candidates s)) c) <
      thousandths (p.score (p.span (p.candidates s)) d)) :
    roundThree (p.score (p.span (p.candidates s)) c) <
      roundThree (p.score (p.span (p.candidates s)) d) :=
  rnd_thousandths_lt (thousandths_bounds inC).1 more (thousandths_bounds inD).2

/-- A change on the suspected service outscores one that is not. -/
theorem roundThree_lt_of_match (inC : c ∈ p.candidates s) (inD : d ∈ p.candidates s)
    (other : p.serviceMatch c = false) (suspected : p.serviceMatch d = true) :
    roundThree (p.score (p.span (p.candidates s)) c) <
      roundThree (p.score (p.span (p.candidates s)) d) := by
  have low := (score_bounds 10 (by simp [suspected]) inD).1
  have high := (score_bounds 1 (by simp [other]) inC).2
  refine roundThree_lt inC inD ((roundEven_le (n := 2000) ?_).trans_lt
    (lt_of_lt_of_le (by norm_num) (le_roundEven (n := 10000) ?_)))
  · push_cast at high ⊢
    linarith
  · push_cast at low ⊢
    linarith

end ChangesRankCulpritInput

/-! ### The order of the ranking -/

section
variable (p : ChangesRankCulpritInput) (s : FixtureStore)

/-- The changes before the onset, each once, those on the suspected service first and
the nearer ones first within each group. -/
structure RanksByProximity (ranked : List CulpritCandidate) : Prop where
  each : (ranked.map fun r => (r.changeId, r.service, r.time)).Perm
    ((s.fixture.changes.filter fun c => c.time < p.onsetSecond).map fun c => (c.id, c.service, c.time))
  suspectedFirst : ranked.Pairwise fun a b =>
    p.suspectedService = some b.service → p.suspectedService = some a.service
  nearerFirst : ranked.Pairwise fun a b =>
    (p.suspectedService = some a.service ↔ p.suspectedService = some b.service) → b.time ≤ a.time

/-- Two changes of one group at different times that round to one score. -/
def Blurred (c d : ChangeEvent) : Prop :=
  p.serviceMatch c = p.serviceMatch d ∧ c.time ≠ d.time ∧
    thousandths (p.score (p.span (p.candidates s)) c) = thousandths (p.score (p.span (p.candidates s)) d)

variable {p s}

theorem mem_changesRankCulprit {r : CulpritCandidate} (member : r ∈ changesRankCulprit p s) :
    ∃ c ∈ p.candidates s, p.candidate (p.span (p.candidates s)) c = r := by
  rw [changesRankCulprit_eq, mem_sortedBy] at member
  exact List.mem_map.mp member

theorem changesRankCulprit_each :
    ((changesRankCulprit p s).map fun r => (r.changeId, r.service, r.time)).Perm
      ((s.fixture.changes.filter fun c => c.time < p.onsetSecond).map
        fun c => (c.id, c.service, c.time)) := by
  rw [changesRankCulprit_eq]
  refine ((sortedBy_perm _ _).map _).trans ?_
  rw [List.map_map]
  exact ChangesRankCulpritInput.candidates_perm.map _

theorem changesRankCulprit_pairwise :
    (changesRankCulprit p s).Pairwise fun a b => b.score ≤ a.score := by
  rw [changesRankCulprit_eq]
  exact sortedBy_pairwise (fun r : CulpritCandidate => OrderDual.toDual r.score) _

theorem changesRankCulprit_suspectedFirst : (changesRankCulprit p s).Pairwise fun a b =>
    p.suspectedService = some b.service → p.suspectedService = some a.service := by
  refine changesRankCulprit_pairwise.imp_of_mem fun inA inB scores suspected => ?_
  obtain ⟨c, inC, rfl⟩ := mem_changesRankCulprit inA
  obtain ⟨d, inD, rfl⟩ := mem_changesRankCulprit inB
  by_contra other
  have less := ChangesRankCulpritInput.roundThree_lt_of_match inC inD (decide_eq_false other)
    (decide_eq_true suspected)
  exact absurd scores (not_le.mpr less)

theorem changesRankCulprit_nearerFirst
    (clear : ∀ c ∈ p.candidates s, ∀ d ∈ p.candidates s, ¬ Blurred p s c d) :
    (changesRankCulprit p s).Pairwise fun a b =>
      (p.suspectedService = some a.service ↔ p.suspectedService = some b.service) →
        b.time ≤ a.time := by
  refine changesRankCulprit_pairwise.imp_of_mem fun inA inB scores alike => ?_
  obtain ⟨c, inC, rfl⟩ := mem_changesRankCulprit inA
  obtain ⟨d, inD, rfl⟩ := mem_changesRankCulprit inB
  have alike : p.serviceMatch c = p.serviceMatch d := decide_eq_decide.mpr alike
  by_contra farther
  have nearer : c.time < d.time := not_le.mp farther
  have counts : thousandths (p.score (p.span (p.candidates s)) c) ≤
      thousandths (p.score (p.span (p.candidates s)) d) :=
    roundEven_mono (by linarith [ChangesRankCulpritInput.score_mono alike inC inD nearer.le])
  have differ : thousandths (p.score (p.span (p.candidates s)) c) ≠
      thousandths (p.score (p.span (p.candidates s)) d) :=
    fun same => clear c inC d inD ⟨alike, nearer.ne, same⟩
  have less := ChangesRankCulpritInput.roundThree_lt inC inD (lt_of_le_of_ne counts differ)
  exact absurd scores (not_le.mpr less)

/-- Of two changes that round to one score, the farther one comes first. -/
theorem not_nearerFirst_of_blurred {c d : ChangeEvent} (inC : c ∈ p.candidates s)
    (inD : d ∈ p.candidates s) (blurred : Blurred p s c d) (nearer : c.time < d.time) :
    ¬ (changesRankCulprit p s).Pairwise fun a b =>
      (p.suspectedService = some a.service ↔ p.suspectedService = some b.service) →
        b.time ≤ a.time := by
  intro ordered
  obtain ⟨alike, -, counts⟩ := blurred
  have listed := sublist_of_key_lt ChangesRankCulpritInput.candidates_pairwise inC inD nearer
  have placed : [p.candidate (p.span (p.candidates s)) c, p.candidate (p.span (p.candidates s)) d].Sublist
      (changesRankCulprit p s) := by
    rw [changesRankCulprit_eq]
    refine sortedBy_stable ?_ (listed.map _)
    simp only [ChangesRankCulpritInput.candidate, roundThree, counts, le_refl]
  have pair := ordered.sublist placed
  rw [List.pairwise_pair] at pair
  exact absurd (pair (decide_eq_decide.mp alike)) (not_le.mpr nearer)

/-- The ranking is by proximity exactly when no two of its changes blur. -/
theorem changesRankCulprit_by_proximity_iff (p : ChangesRankCulpritInput) (s : FixtureStore) :
    RanksByProximity p s (changesRankCulprit p s) ↔
      ∀ c ∈ p.candidates s, ∀ d ∈ p.candidates s, ¬ Blurred p s c d := by
  constructor
  · intro ranks c inC d inD blurred
    rcases lt_or_gt_of_ne blurred.2.1 with nearer | farther
    · exact not_nearerFirst_of_blurred inC inD blurred nearer ranks.nearerFirst
    · exact not_nearerFirst_of_blurred inD inC
        ⟨blurred.1.symm, blurred.2.1.symm, blurred.2.2.symm⟩ farther ranks.nearerFirst
  · exact fun clear => ⟨changesRankCulprit_each, changesRankCulprit_suspectedFirst,
      changesRankCulprit_nearerFirst clear⟩

end

def changeAt (id : String) (time : ℤ) (valid : id ≠ "" ∧ 0 ≤ time := by decide) : ChangeEvent where
  id
  time
  service := "cart"
  kind := "deploy"
  summary := "release"
  named := ⟨valid.1, by decide, by decide, by decide⟩
  nonneg := valid.2

def closeChanges : FixtureStore :=
  .init { changes := [changeAt "first" 0, changeAt "decoy" 50000, changeAt "culprit" 50001] }

def lateOnset : ChangesRankCulpritInput := { onsetSecond := 100000 }

/-- A second in a day is lost to the rounding. -/
theorem nearer_change_ranked_second :
    (changesRankCulprit lateOnset closeChanges).map CulpritCandidate.changeId =
        ["decoy", "culprit", "first"] ∧
      ¬ RanksByProximity lateOnset closeChanges (changesRankCulprit lateOnset closeChanges) := by
  refine ⟨by decide +kernel, fun ranks => ?_⟩
  have listed : lateOnset.candidates closeChanges =
      [changeAt "first" 0, changeAt "decoy" 50000, changeAt "culprit" 50001] := rfl
  refine not_nearerFirst_of_blurred (c := changeAt "decoy" 50000) (d := changeAt "culprit" 50001)
    (by rw [listed]; simp) (by rw [listed]; simp) ⟨rfl, by decide, ?_⟩ (by decide) ranks.nearerFirst
  rw [listed]
  decide +kernel

end Sentinel.Tools
