import Sentinel.Oss.Presentation
import Sentinel.Python.Grouping

/-! Where the ranking depends on the presentation of the graph: on which of several
families attains the largest effect first, and on which of several callees shows the
largest distress first. Both are taken in the iteration order of a set. -/
namespace Sentinel.Oss
open Python Tools

section Regimes
variable [SetOrder] [FloatArith] (edges : List (String × String)) (effects : Effects)

/-- The order of the regime that a dominant family selects. -/
def regime : Family → List String
  | .resource => resourceOrder edges effects
  | .latency => latencyOrder edges effects
  | .error => errorOrder edges effects

/-- The family attains the largest effect of the graph, and that effect is a step. -/
def Dominates (fam : Family) : Prop :=
  ∃ s z, (∃ e ∈ edges, s = e.1 ∨ s = e.2) ∧ Effect effects s fam z ∧ zMin ≤ z ∧
    ∀ t fam' z', (∃ e ∈ edges, t = e.1 ∨ t = e.2) → Effect effects t fam' z' → z' ≤ z

variable {edges effects}

theorem rank_cases :
    (∃ fam, Dominates edges effects fam ∧ rank edges effects = regime edges effects fam) ∨
      (¬ ∃ fam, Dominates edges effects fam) ∧ rank edges effects = stableOrder edges effects := by
  rcases found : dominant effects (services edges) with ⟨dom, domZ⟩
  obtain ⟨bound, attained⟩ := dominant_spec found
  by_cases low : domZ < zMin
  · refine .inr ⟨?_, by simp [rank, found, low]⟩
    rintro ⟨fam, s, z, member, effect, high, -⟩
    exact absurd (high.trans (bound s (mem_services.mpr member) fam z effect)) (not_le.mpr low)
  · have high := not_lt.mp low
    obtain ⟨s, member, value⟩ := attained high
    have present : zf effects s dom ≠ 0 := by
      rw [value]
      exact ne_of_gt (lt_of_lt_of_le (by decide) high)
    have effect := effect_of_zf_ne_zero present
    rw [value] at effect
    refine .inl ⟨dom, ⟨s, domZ, mem_services.mp member, effect, high, fun t fam z inside other =>
      bound t (mem_services.mpr inside) fam z other⟩, ?_⟩
    simp only [rank, found, low, if_false]
    cases dom <;> rfl

omit [FloatArith] in
theorem sortedServices_nodup (key : String → List ℚ) : (sortedServices edges key).Nodup :=
  (sortedBy_perm _ _).nodup_iff.mpr (services_nodup edges)

omit [FloatArith] in
theorem errorOrder_nodup : (errorOrder edges effects).Nodup := by
  have order : (callersOrder edges effects).Nodup := sortedServices_nodup _
  unfold errorOrder
  dsimp only
  split
  · exact order
  · split
    · split
      · exact order
      · exact List.nodup_cons.mpr ⟨order.not_mem_erase, order.erase _⟩
    · exact order

theorem rank_nodup : (rank edges effects).Nodup := by
  unfold rank
  dsimp only
  split
  · exact sortedServices_nodup _
  · split
    · exact sortedServices_nodup _
    · exact sortedServices_nodup _
    · exact errorOrder_nodup

end Regimes

variable {edges edges' : List (String × String)} {effects effects' : Effects} {o u : SetOrder}

theorem SameGraph.dominates (same : SameGraph edges edges' effects effects') {fam : Family} :
    Dominates edges effects fam ↔ Dominates edges' effects' fam := by
  simp only [Dominates, same.edge, same.effect]

/-- A callee that the descent may take as the origin. -/
def Descends (edges : List (String × String)) (effects : Effects) (c : String) : Prop :=
  ∃ deepest, (@callersOrder listed edges effects).head? = some deepest ∧
    deepest ∈ @stepped listed edges effects .error ∧ c ∈ @transit listed edges effects deepest ∧
      ∀ d ∈ @transit listed edges effects deepest, distress effects d ≤ distress effects c

/-- In any presentation the descent takes one of these callees, if there is one. -/
theorem errorOrder_cases (same : SameGraph edges edges' effects effects') :
    (∃ c, Descends edges effects c ∧
      @errorOrder o edges' effects' = c :: (@callersOrder listed edges effects).erase c) ∨
      (¬ ∃ c, Descends edges effects c) ∧
        @errorOrder o edges' effects' = @callersOrder listed edges effects := by
  have order := callersOrder_congr (o := listed) (u := o) same
  have anom := fun s => (same.stepped (o := listed) (u := o) .error).mem_iff (a := s)
  unfold errorOrder
  rw [← order]
  dsimp only
  cases head : (@callersOrder listed edges effects).head? with
  | none =>
    refine .inr ⟨?_, rfl⟩
    rintro ⟨c, deepest, first, -⟩
    rw [head] at first
    cases first
  | some deepest =>
    dsimp only
    by_cases failing : deepest ∈ @stepped listed edges effects .error
    · rw [if_pos ((anom deepest).mp failing)]
      have perm := same.transit (o := listed) (u := o) deepest
      cases best : (@transit o edges' effects' deepest).argmax (distress effects') with
      | none =>
        refine .inr ⟨?_, rfl⟩
        rintro ⟨c, deepest', first, -, member, -⟩
        obtain rfl := Option.some.inj (head.symm.trans first)
        rw [List.argmax_eq_none.mp best] at perm
        exact List.not_mem_nil (perm.mem_iff.mp member)
      | some c =>
        refine .inl ⟨c, ⟨deepest, head, failing, perm.mem_iff.mpr (List.argmax_mem best), ?_⟩, rfl⟩
        intro d member
        have least := List.le_of_mem_argmax (perm.mem_iff.mp member) best
        rwa [← same.distress, ← same.distress] at least
    · rw [if_neg fun failing' => failing ((anom deepest).mpr failing')]
      refine .inr ⟨?_, rfl⟩
      rintro ⟨c, deepest', first, failing', -⟩
      obtain rfl := Option.some.inj (head.symm.trans first)
      exact failing failing'

section Exact
attribute [local instance] FloatArith.exact

/-- Neither tie decides anything: families that share the largest effect sort the
services alike, and the descent has one callee to take. -/
structure Determined (edges : List (String × String)) (effects : Effects) : Prop where
  alike : ∀ fam fam', Dominates edges effects fam → Dominates edges effects fam' →
    @regime listed _ edges effects fam = @regime listed _ edges effects fam'
  descent : Dominates edges effects .error →
    ∀ c d, Descends edges effects c → Descends edges effects d → c = d

/-- The ranking is the same for all presentations of the graph. -/
def GraphFunction (edges : List (String × String)) (effects : Effects) : Prop :=
  ∀ (o u : SetOrder) edges₁ edges₂ effects₁ effects₂,
    SameGraph edges edges₁ effects effects₁ → SameGraph edges edges₂ effects effects₂ →
      @rank o edges₁ effects₁ _ = @rank u edges₂ effects₂ _

theorem regime_congr (same : SameGraph edges edges' effects effects') {fam : Family}
    (descent : fam = .error → ∀ c d, Descends edges effects c → Descends edges effects d → c = d) :
    @regime listed _ edges effects fam = @regime o _ edges' effects' fam := by
  cases fam with
  | resource => exact resourceOrder_congr same
  | latency => exact latencyOrder_congr same
  | error =>
    show @errorOrder listed edges effects = @errorOrder o edges' effects'
    rcases errorOrder_cases (o := listed) (.refl edges effects) with ⟨c, takes, order⟩ | ⟨none, order⟩
    · rcases errorOrder_cases (o := o) same with ⟨d, takes', order'⟩ | ⟨none, -⟩
      · rw [order, order', descent rfl c d takes takes']
      · exact absurd ⟨c, takes⟩ none
    · rcases errorOrder_cases (o := o) same with ⟨d, takes', -⟩ | ⟨-, order'⟩
      · exact absurd ⟨d, takes'⟩ none
      · rw [order, order']

theorem rank_determined (determined : Determined edges effects)
    (same : SameGraph edges edges' effects effects') :
    (∃ fam, Dominates edges effects fam ∧
      @rank o edges' effects' _ = @regime listed _ edges effects fam) ∨
      (¬ ∃ fam, Dominates edges effects fam) ∧
        @rank o edges' effects' _ = @stableOrder listed edges effects := by
  rcases @rank_cases o _ edges' effects' with ⟨fam, dominates, ranked⟩ | ⟨none, ranked⟩
  · have dominates' := same.dominates.mpr dominates
    refine .inl ⟨fam, dominates', ranked.trans (regime_congr same ?_).symm⟩
    rintro rfl
    exact determined.descent dominates'
  · refine .inr ⟨fun ⟨fam, dominates⟩ => none ⟨fam, same.dominates.mp dominates⟩, ?_⟩
    exact ranked.trans (stableOrder_congr same).symm

theorem graphFunction_of_determined (determined : Determined edges effects) :
    GraphFunction edges effects := by
  intro o u edges₁ edges₂ effects₁ effects₂ same₁ same₂
  rcases rank_determined (o := o) determined same₁ with ⟨fam, dominates, ranked⟩ | ⟨none, ranked⟩
  · rcases rank_determined (o := u) determined same₂ with ⟨fam', dominates', ranked'⟩ | ⟨none, -⟩
    · rw [ranked, ranked', determined.alike fam fam' dominates dominates']
    · exact absurd ⟨fam, dominates⟩ none
  · rcases rank_determined (o := u) determined same₂ with ⟨fam', dominates', -⟩ | ⟨-, ranked'⟩
    · exact absurd ⟨fam', dominates'⟩ none
    · rw [ranked, ranked']

end Exact

/-- The elements, the given ones first. -/
def placed (first xs : List String) : List String :=
  keepFirst id [] (first.filter (fun s => s ∈ xs) ++ xs)

theorem mem_placed {first xs : List String} {s : String} : s ∈ placed first xs ↔ s ∈ xs := by
  have apart : ∀ a ∈ first.filter (fun s => s ∈ xs) ++ xs,
      ∀ b ∈ first.filter (fun s => s ∈ xs) ++ xs, id a = id b → a = b := fun _ _ _ _ same => same
  rw [placed, mem_keepFirst_iff apart]
  simp only [List.mem_append, List.mem_filter, decide_eq_true_eq]
  tauto

/-- The set order that puts the given elements first. -/
@[reducible] def placing (first : List String) : SetOrder where
  iter := placed first
  iter_nodup xs := by simpa [placed] using keepFirst_nodup id [] (first.filter (fun s => s ∈ xs) ++ xs)
  mem_iter _ _ := mem_placed

theorem placed_head {s c : String} {xs : List String} (member : s ∈ xs) :
    ∃ rest, placed [s, c] xs = s :: rest := by
  simp [placed, keepFirst, member]

/-- Without the first element, the second comes first. -/
theorem placed_filter {s c : String} {xs : List String} {p : String → Bool} (refused : p s = false)
    (passed : p c = true) (member : c ∈ xs) :
    ∃ rest, (placed [s, c] xs).filter p = c :: rest := by
  have other : c ≠ s := by
    rintro rfl
    rw [refused] at passed
    cases passed
  by_cases inXs : s ∈ xs <;>
    simp [placed, keepFirst, member, inXs, other, refused, passed]

/-- The entries of a service with one of them in front. -/
def promoted (eff : Dict Family ℚ) (fam : Family) (z : ℚ) : Dict Family ℚ where
  items := (fam, z) :: eff.items.filter fun entry => entry.1 ≠ fam
  unique := by
    rw [List.map_cons, List.nodup_cons]
    refine ⟨?_, eff.unique.sublist (List.filter_sublist.map _)⟩
    intro again
    obtain ⟨entry, kept, same⟩ := List.mem_map.mp again
    simpa [same] using (List.mem_filter.mp kept).2

theorem get?_promoted {eff : Dict Family ℚ} {fam : Family} {z : ℚ} (present : eff.get? fam = some z)
    (fam' : Family) : (promoted eff fam z).get? fam' = eff.get? fam' := by
  refine Option.ext fun v => ?_
  rw [← Dict.mem_items_iff, ← Dict.mem_items_iff]
  simp only [promoted, List.mem_cons, List.mem_filter, decide_eq_true_eq, Prod.mk.injEq]
  rw [← Dict.mem_items_iff] at present
  constructor
  · rintro (⟨rfl, rfl⟩ | ⟨member, -⟩)
    · exact present
    · exact member
  · intro member
    by_cases same : fam' = fam
    · subst same
      have value := (eff.mem_items_iff.mp member).symm.trans (eff.mem_items_iff.mp present)
      exact .inl ⟨rfl, Option.some.inj value⟩
    · exact .inr ⟨member, same⟩

theorem strictest_keeps {entries : List (Family × ℚ)} {best : Family × ℚ}
    (bound : ∀ entry ∈ entries, entry.2 ≤ best.2) :
    entries.foldl (fun best entry => if entry.2 > best.2 then entry else best) best = best := by
  induction entries with
  | nil => rfl
  | cons entry rest ih =>
    rw [List.forall_mem_cons] at bound
    rw [List.foldl_cons, if_neg (not_lt.mpr bound.1), ih bound.2]

/-- The entry that is met first stays if no other is larger. -/
theorem dominant_first {s : String} {rest : List String} {eff : Dict Family ℚ} {fam : Family} {z : ℚ}
    {tail : List (Family × ℚ)} (entry : effects.get? s = some eff) (first : eff.items = (fam, z) :: tail)
    (positive : 0 < z)
    (bound : ∀ t ∈ s :: rest, ∀ fam' z', Effect effects t fam' z' → z' ≤ z) :
    dominant effects (s :: rest) = (fam, z) := by
  have all : ∀ found ∈ ((s :: rest).flatMap fun t => ((effects.get? t).getD Dict.empty).items),
      found.2 ≤ z := by
    intro found member
    obtain ⟨t, inside, inItems⟩ := List.mem_flatMap.mp member
    exact bound t inside found.1 found.2 (effect_of_mem_items inItems)
  rw [List.flatMap_cons, entry, Option.getD_some, first, List.cons_append, List.forall_mem_cons] at all
  rw [dominant, List.flatMap_cons, entry, Option.getD_some, first, List.cons_append, List.foldl_cons,
    if_pos positive]
  exact strictest_keeps all.2

section Exact
attribute [local instance] FloatArith.exact

/-- Each family that shares the largest effect dominates in some presentation, and with
it each callee that the descent may take is taken in some. -/
theorem rank_presented {fam : Family} (dominates : Dominates edges effects fam) (c : String) :
    ∃ (o : SetOrder) (effects' : Effects), SameGraph edges edges effects effects' ∧
      @rank o edges effects' _ = @regime o _ edges effects' fam ∧
      (fam = .error → Descends edges effects c → (@rank o edges effects' _).head? = some c) := by
  obtain ⟨s, z, service, effect, high, bound⟩ := dominates
  obtain ⟨eff, entry, value⟩ := effect
  let effects' := effects.set s (promoted eff fam z)
  have same : SameGraph edges edges effects effects' := by
    refine ⟨fun _ => .rfl, fun t fam' => ?_⟩
    rw [Dict.get?_set]
    split
    · rename_i here
      rw [here, entry, Option.bind_some, Option.bind_some, get?_promoted value]
    · rfl
  have stored : effects'.get? s = some (promoted eff fam z) := by
    rw [Dict.get?_set, if_pos rfl]
  obtain ⟨rest, first⟩ : ∃ rest, @services (placing [s, c]) edges = s :: rest :=
    placed_head (by
      obtain ⟨e, edge, at_e⟩ := service
      exact List.mem_flatMap.mpr ⟨e, edge, by simpa using at_e⟩)
  have dom : dominant effects' (@services (placing [s, c]) edges) = (fam, z) := by
    rw [first]
    refine dominant_first stored rfl (lt_of_lt_of_le (by decide) high) ?_
    rw [← first]
    intro t inside fam' z' other
    exact bound t fam' z' ((@mem_services (placing [s, c]) edges t).mp inside) (same.effect.mpr other)
  have ranked : @rank (placing [s, c]) edges effects' _ = @regime (placing [s, c]) _ edges effects' fam := by
    simp only [rank, dom, not_lt.mpr high, if_false]
    cases fam <;> rfl
  refine ⟨placing [s, c], effects', same, ranked, ?_⟩
  rintro rfl ⟨deepest, head, failing, callee, greatest⟩
  have anom : s ∈ @stepped (placing [s, c]) edges effects' .error := by
    refine (@mem_stepped (placing [s, c]) edges effects' .error s).mpr
      ⟨(@mem_services (placing [s, c]) edges s).mpr service, ?_⟩
    rwa [← same.zf, zf_of_effect ⟨eff, entry, value⟩]
  have perm := same.transit (o := listed) (u := placing [s, c]) deepest
  obtain ⟨others, order⟩ : ∃ others, @transit (placing [s, c]) edges effects' deepest = c :: others := by
    obtain ⟨inCallees, passes⟩ := List.mem_filter.mp (perm.mem_iff.mp callee)
    exact placed_filter (by simp [anom]) passes ((@SetOrder.mem_iter (placing [s, c]) _ _).mp inCallees)
  have best : (@transit (placing [s, c]) edges effects' deepest).argmax (distress effects') = some c := by
    rw [order]
    refine argmax_cons_of_le fun d member => ?_
    rw [← same.distress, ← same.distress]
    exact greatest d (perm.mem_iff.mpr (order ▸ List.mem_cons_of_mem c member))
  have head' : (@callersOrder (placing [s, c]) edges effects').head? = some deepest := by
    rw [← head, callersOrder_congr same]
  have failing' : deepest ∈ @stepped (placing [s, c]) edges effects' .error :=
    (same.stepped .error).mem_iff.mp failing
  rw [ranked]
  show (@errorOrder (placing [s, c]) edges effects').head? = some c
  simp only [errorOrder, head', if_pos failing', best, List.head?_cons]

theorem determined_of_graphFunction (function : GraphFunction edges effects) :
    Determined edges effects := by
  have descent : Dominates edges effects .error →
      ∀ c d, Descends edges effects c → Descends edges effects d → c = d := by
    intro dominates c d takes takes'
    obtain ⟨o, effects₁, same₁, -, head⟩ := rank_presented dominates c
    obtain ⟨u, effects₂, same₂, -, head'⟩ := rank_presented dominates d
    have ranked := function o u edges edges effects₁ effects₂ same₁ same₂
    have heads := (head rfl takes).symm.trans ((congrArg List.head? ranked).trans (head' rfl takes'))
    exact Option.some.inj heads
  refine ⟨fun fam fam' dominates dominates' => ?_, descent⟩
  obtain ⟨o, effects₁, same₁, ranked, -⟩ := rank_presented dominates ""
  obtain ⟨u, effects₂, same₂, ranked', -⟩ := rank_presented dominates' ""
  have unique : ∀ {fam}, Dominates edges effects fam → fam = .error →
      ∀ c d, Descends edges effects c → Descends edges effects d → c = d := by
    rintro _ dominates rfl
    exact descent dominates
  rw [regime_congr same₁ (unique dominates), regime_congr same₂ (unique dominates'), ← ranked, ← ranked']
  exact function o u edges edges effects₁ effects₂ same₁ same₂

theorem effect_of_distress {s : String} (high : zMin ≤ distress effects s) :
    ∃ fam, Effect effects s fam (distress effects s) := by
  have positive : distress effects s ≠ 0 := ne_of_gt (lt_of_lt_of_le (by decide) high)
  rcases max_choice (zf effects s .latency) (zf effects s .resource) with latency | resource
  · have value : distress effects s = zf effects s .latency := latency
    exact ⟨.latency, value ▸ effect_of_zf_ne_zero (value ▸ positive)⟩
  · have value : distress effects s = zf effects s .resource := resource
    exact ⟨.resource, value ▸ effect_of_zf_ne_zero (value ▸ positive)⟩

/-- No two steps of one size are enough. -/
theorem graphFunction_of_distinct
    (distinct : ∀ s t fam fam' z, zMin ≤ z → Effect effects s fam z → Effect effects t fam' z →
      s = t ∧ fam = fam') : GraphFunction edges effects := by
  refine graphFunction_of_determined ⟨fun fam fam' dominates dominates' => ?_, ?_⟩
  · obtain ⟨s, z, service, effect, high, bound⟩ := dominates
    obtain ⟨t, z', service', effect', -, bound'⟩ := dominates'
    obtain rfl := le_antisymm (bound' s fam z service effect) (bound t fam' z' service' effect')
    rw [(distinct s t fam fam' z high effect effect').2]
  · rintro - c d ⟨deepest, head, -, callee, greatest⟩ ⟨deepest', head', -, callee', greatest'⟩
    obtain rfl := Option.some.inj (head.symm.trans head')
    have equal := le_antisymm (greatest' c callee) (greatest d callee')
    have passes := (List.mem_filter.mp callee).2
    simp only [decide_eq_true_eq] at passes
    obtain ⟨fam, effect⟩ := effect_of_distress passes.1
    obtain ⟨fam', effect'⟩ := effect_of_distress (equal ▸ passes.1 : zMin ≤ distress effects d)
    exact (distinct c d fam fam' _ passes.1 effect (equal ▸ effect')).1

/-- The ranking is a function of the graph exactly where no tie decides; and it lists
each service once in any case. -/
theorem rank_presentation_iff (edges : List (String × String)) (effects : Effects) :
    (GraphFunction edges effects ↔ Determined edges effects) ∧
      ∀ o : SetOrder, (@rank o edges effects _).Nodup ∧
        ∀ s, s ∈ @rank o edges effects _ ↔ ∃ e ∈ edges, s = e.1 ∨ s = e.2 :=
  ⟨⟨determined_of_graphFunction, graphFunction_of_determined⟩, fun o =>
    ⟨@rank_nodup o _ edges effects, fun _ =>
      (@mem_rank o edges effects _ _).trans (@mem_services o edges _)⟩⟩

/-- A failing service with two callees in equal distress. -/
def tiedEdges : List (String × String) := [("checkout", "cart"), ("checkout", "payment")]

def tiedEffects : Effects :=
  ((Dict.empty.set "checkout" (Dict.empty.set .error 9)).set "cart"
    (Dict.empty.set .latency 5)).set "payment" (Dict.empty.set .latency 5)

/-- Whichever callee is met first becomes the root cause. -/
theorem rank_order_dependent : ¬ GraphFunction tiedEdges tiedEffects := by
  intro function
  have ranked := function (placing ["cart"]) (placing ["payment"]) tiedEdges tiedEdges tiedEffects
    tiedEffects (.refl _ _) (.refl _ _)
  have cart : (@rank (placing ["cart"]) tiedEdges tiedEffects _).head? = some "cart" := by
    decide +kernel
  have payment : (@rank (placing ["payment"]) tiedEdges tiedEffects _).head? = some "payment" := by
    decide +kernel
  rw [ranked, payment] at cart
  exact absurd cart (by decide)

end Exact

end Sentinel.Oss
