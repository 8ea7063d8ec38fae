import Sentinel.Oss.RankHead

/-! Two presentations of one graph: edges in another order and number, other iteration
orders of the sets, effect entries in another order. The keys of each regime are the
same in both, so the regimes sort alike. -/
namespace Sentinel.Oss
open Python Tools

/-- The same edges and the same effect values, however they are listed. -/
structure SameGraph (edges edges' : List (String × String)) (effects effects' : Effects) : Prop where
  edge : ∀ e, e ∈ edges ↔ e ∈ edges'
  value : ∀ s fam, (effects.get? s).bind (fun eff => eff.get? fam) =
    (effects'.get? s).bind fun eff => eff.get? fam

/-- An iteration order of sets: without repetition, as they are listed. -/
@[reducible] def listed : SetOrder where
  iter := List.dedup
  iter_nodup := List.nodup_dedup
  mem_iter _ _ := List.mem_dedup

variable {edges edges' : List (String × String)} {effects effects' : Effects} {o u : SetOrder}

theorem SameGraph.refl (edges : List (String × String)) (effects : Effects) :
    SameGraph edges edges effects effects :=
  ⟨fun _ => .rfl, fun _ _ => rfl⟩

theorem iter_perm {xs ys : List String} (same : ∀ s, s ∈ xs ↔ s ∈ ys) :
    (@SetOrder.iter o xs).Perm (@SetOrder.iter u ys) := by
  refine (List.perm_ext_iff_of_nodup (@SetOrder.iter_nodup o xs) (@SetOrder.iter_nodup u ys)).mpr
    fun s => ?_
  rw [@SetOrder.mem_iter o, @SetOrder.mem_iter u, same]

theorem SameGraph.services (same : SameGraph edges edges' effects effects') :
    (@services o edges).Perm (@services u edges') :=
  iter_perm fun s => by simp only [List.mem_flatMap, same.edge]

theorem SameGraph.callees (same : SameGraph edges edges' effects effects') (s : String) :
    (@callees o edges s).Perm (@callees u edges' s) :=
  iter_perm fun c => by simp only [List.mem_map, List.mem_filter, same.edge]

theorem SameGraph.neigh (same : SameGraph edges edges' effects effects') (s : String) :
    (@neigh o edges s).Perm (@neigh u edges' s) :=
  iter_perm fun c => by simp only [List.mem_flatMap, same.edge]

theorem SameGraph.isDemoted (same : SameGraph edges edges' effects effects') (s : String) :
    isDemoted edges s = isDemoted edges' s := by
  have rooted : indeg edges s = 0 ↔ indeg edges' s = 0 := by
    simp only [indeg, List.countP_eq_zero, same.edge]
  simp only [Oss.isDemoted, rooted]

theorem SameGraph.zf (same : SameGraph edges edges' effects effects') (s : String) (fam : Family) :
    zf effects s fam = zf effects' s fam := by
  rw [Oss.zf, Oss.zf, same.value]

theorem SameGraph.effect (same : SameGraph edges edges' effects effects') {s : String} {fam : Family}
    {z : ℚ} : Effect effects s fam z ↔ Effect effects' s fam z := by
  have bound : ∀ effects : Effects, Effect effects s fam z ↔
      (effects.get? s).bind (fun eff => eff.get? fam) = some z := fun effects => by
    simp [Effect, Option.bind_eq_some_iff]
  rw [bound, bound, same.value]

theorem SameGraph.entries (same : SameGraph edges edges' effects effects') (s : String) :
    ((effects.get? s).getD Dict.empty).items.Perm ((effects'.get? s).getD Dict.empty).items := by
  refine (List.perm_ext_iff_of_nodup (Dict.unique _).of_map (Dict.unique _).of_map).mpr ?_
  rintro ⟨fam, z⟩
  exact ⟨fun member => mem_items_of_effect (same.effect.mp (effect_of_mem_items member)),
    fun member => mem_items_of_effect (same.effect.mpr (effect_of_mem_items member))⟩

theorem SameGraph.zTot (same : SameGraph edges edges' effects effects') (s : String) :
    zTot effects s = zTot effects' s := by
  have values := max?_congr fun z => ((same.entries s).map Prod.snd).mem_iff (a := z)
  exact congrArg (Option.getD · 0) values

theorem SameGraph.stepped (same : SameGraph edges edges' effects effects') (fam : Family) :
    (@stepped o edges effects fam).Perm (@stepped u edges' effects' fam) := by
  simp only [Oss.stepped, same.zf]
  exact (same.services).filter _

theorem indicator_congr {p q : Prop} [Decidable p] [Decidable q] (same : p ↔ q) :
    indicator p = indicator q := by
  unfold indicator
  exact if_congr same rfl rfl

theorem sortedServices_congr (same : SameGraph edges edges' effects effects') {key key' : String → List ℚ}
    (keys : ∀ s, key s = key' s) :
    @sortedServices o edges key = @sortedServices u edges' key' :=
  sortedBy_congr same.services (fun s _ => by rw [keys]) fun _ _ equal => (Prod.ext_iff.mp equal).2

theorem stableOrder_congr (same : SameGraph edges edges' effects effects') :
    @stableOrder o edges effects = @stableOrder u edges' effects' :=
  sortedServices_congr same fun s => by simp only [same.zTot, same.isDemoted]

theorem resourceOrder_congr (same : SameGraph edges edges' effects effects') :
    @resourceOrder o edges effects = @resourceOrder u edges' effects' :=
  sortedServices_congr same fun s => by simp only [same.zf, same.zTot]

section Exact
attribute [local instance] FloatArith.exact

/-- Exact sums do not depend on the order of the terms. -/
theorem SameGraph.sum (same : SameGraph edges edges' effects effects') {xs ys : List String}
    (perm : xs.Perm ys) :
    FloatArith.sum (xs.map fun s => Oss.zf effects s .latency) =
      FloatArith.sum (ys.map fun s => Oss.zf effects' s .latency) := by
  simp only [same.zf]
  exact (perm.map _).sum_eq

theorem SameGraph.coverage (same : SameGraph edges edges' effects effects') (s : String) :
    @coverage o edges effects _ s = @coverage u edges' effects' _ s := by
  have total : @latencyTotal o edges effects _ = @latencyTotal u edges' effects' _ := by
    simp only [latencyTotal, same.sum (same.stepped .latency)]
  have members : ∀ n, n ∈ (@Oss.stepped o edges effects .latency).filter
        (fun n => n = s ∨ n ∈ @Oss.neigh o edges s) ↔
      n ∈ (@Oss.stepped u edges' effects' .latency).filter
        fun n => n = s ∨ n ∈ @Oss.neigh u edges' s := fun n => by
    simp only [List.mem_filter, (same.stepped .latency).mem_iff, (same.neigh s).mem_iff]
  have around := iter_perm (o := o) (u := u) members
  simp only [Oss.coverage, total, same.sum around]

theorem latencyOrder_congr (same : SameGraph edges edges' effects effects') :
    @latencyOrder o edges effects _ = @latencyOrder u edges' effects' _ := by
  have anom := fun s => (same.stepped (o := o) (u := u) .latency).mem_iff (a := s)
  have covs : ∀ s, @cov o edges effects _ s = @cov u edges' effects' _ s := fun s => by
    unfold cov
    exact if_congr (anom s) (same.coverage s) rfl
  have best : ((@Oss.stepped o edges effects .latency).map (@Oss.coverage o edges effects _)).max? =
      ((@Oss.stepped u edges' effects' .latency).map (@Oss.coverage u edges' effects' _)).max? := by
    refine max?_congr fun z => ?_
    rw [funext fun s => same.coverage (o := o) (u := u) s]
    exact ((same.stepped .latency).map _).mem_iff
  refine sortedServices_congr same fun s => ?_
  rw [best, covs s, same.isDemoted, same.zTot, indicator_congr (not_congr (anom s))]

end Exact

theorem SameGraph.isDeepest (same : SameGraph edges edges' effects effects') (s : String) :
    @isDeepest o edges effects s = @isDeepest u edges' effects' s := by
  have anom := fun s => (same.stepped (o := o) (u := u) .error).mem_iff (a := s)
  rw [Bool.eq_iff_iff]
  simp only [Oss.isDeepest, Bool.and_eq_true, decide_eq_true_eq, Bool.not_eq_true', List.any_eq_false,
    anom, (same.callees s).mem_iff]

theorem callersOrder_congr (same : SameGraph edges edges' effects effects') :
    @callersOrder o edges effects = @callersOrder u edges' effects' := by
  refine sortedServices_congr same fun s => ?_
  have anom := (same.stepped (o := o) (u := u) .error).mem_iff (a := s)
  simp only [same.isDeepest (o := o) (u := u), same.isDemoted, same.zf, indicator_congr (not_congr anom)]

theorem SameGraph.distress (same : SameGraph edges edges' effects effects') (s : String) :
    distress effects s = distress effects' s := by
  rw [Oss.distress, Oss.distress, same.zf, same.zf]

theorem SameGraph.transit (same : SameGraph edges edges' effects effects') (deepest : String) :
    (@transit o edges effects deepest).Perm (@transit u edges' effects' deepest) := by
  have anom := fun s => (same.stepped (o := o) (u := u) .error).mem_iff (a := s)
  simp only [Oss.transit, same.distress, anom]
  exact (same.callees deepest).filter _

end Sentinel.Oss
