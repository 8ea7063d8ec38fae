import Sentinel.Oss.Topology

/-! Every regime of the ranking puts a service first whose own effect stepped,
as soon as some effect did; and the ranking lists exactly the graph's services. -/
namespace Sentinel.Oss
open Python Tools

section Dominant

theorem strictest_spec (entries : List (Family × ℚ)) (best : Family × ℚ) :
    let found := entries.foldl (fun best entry => if entry.2 > best.2 then entry else best) best
    (found = best ∨ found ∈ entries) ∧ best.2 ≤ found.2 ∧ ∀ entry ∈ entries, entry.2 ≤ found.2 := by
  induction entries generalizing best with
  | nil => simp
  | cons entry rest ih =>
    simp only [List.foldl_cons, List.mem_cons, forall_eq_or_imp]
    split
    · rename_i larger
      obtain ⟨chosen, least, bound⟩ := ih entry
      refine ⟨?_, (le_of_lt larger).trans least, least, bound⟩
      rcases chosen with same | later
      · exact .inr (.inl same)
      · exact .inr (.inr later)
    · rename_i smaller
      obtain ⟨chosen, least, bound⟩ := ih best
      refine ⟨?_, least, (not_lt.mp smaller).trans least, bound⟩
      rcases chosen with same | later
      · exact .inl same
      · exact .inr (.inr later)

variable {effects : Effects} {s : String} {fam : Family} {z : ℚ}

/-- An effect of a service among the given ones. -/
def Effect (effects : Effects) (s : String) (fam : Family) (z : ℚ) : Prop :=
  ∃ eff, effects.get? s = some eff ∧ eff.get? fam = some z

theorem mem_items_of_effect (effect : Effect effects s fam z) :
    (fam, z) ∈ ((effects.get? s).getD Dict.empty).items := by
  obtain ⟨eff, entry, value⟩ := effect
  rw [entry]
  exact eff.mem_items_iff.mpr value

theorem effect_of_mem_items (member : (fam, z) ∈ ((effects.get? s).getD Dict.empty).items) :
    Effect effects s fam z := by
  cases entry : effects.get? s with
  | none =>
    rw [entry] at member
    cases member
  | some eff =>
    rw [entry] at member
    exact ⟨eff, entry, eff.mem_items_iff.mp member⟩

theorem zf_of_effect (effect : Effect effects s fam z) : zf effects s fam = z := by
  obtain ⟨eff, entry, value⟩ := effect
  simp [zf, entry, value]

theorem effect_of_zf_ne_zero (present : zf effects s fam ≠ 0) :
    Effect effects s fam (zf effects s fam) := by
  cases entry : effects.get? s with
  | none => simp [zf, entry] at present
  | some eff =>
    cases value : eff.get? fam with
    | none => simp [zf, entry, value] at present
    | some z => exact ⟨eff, entry, by simp [zf, entry, value]⟩

theorem max?_getD_ge {values : List ℚ} {v : ℚ} (member : v ∈ values) : v ≤ values.max?.getD 0 := by
  cases largest : values.max? with
  | none => simp [List.max?_eq_none_iff.mp largest] at member
  | some m => exact (List.max?_le_iff largest).mp le_rfl v member

theorem effect_le_zTot (effect : Effect effects s fam z) : z ≤ zTot effects s :=
  max?_getD_ge (List.mem_map.mpr ⟨_, mem_items_of_effect effect, rfl⟩)

/-- A family that stepped makes its service anomalous. -/
theorem zTot_of_zf (high : zMin ≤ zf effects s fam) : zMin ≤ zTot effects s := by
  have present : zf effects s fam ≠ 0 := by
    intro zero
    rw [zero] at high
    exact absurd high (by decide)
  exact high.trans (effect_le_zTot (effect_of_zf_ne_zero present))

/-- An anomalous service has an effect that stepped. -/
theorem effect_of_zTot (high : zMin ≤ zTot effects s) : ∃ fam z, Effect effects s fam z ∧ zMin ≤ z := by
  unfold zTot at high
  cases largest : ((effects.get? s).getD Dict.empty).values.max? with
  | none =>
    rw [largest] at high
    exact absurd high (by decide)
  | some m =>
    rw [largest] at high
    obtain ⟨⟨fam, z⟩, member, rfl⟩ := List.mem_map.mp (List.max?_mem largest)
    exact ⟨fam, z, effect_of_mem_items member, high⟩

theorem dominant_spec {members : List String} {dom : Family} {domZ : ℚ}
    (result : dominant effects members = (dom, domZ)) :
    (∀ s ∈ members, ∀ fam z, Effect effects s fam z → z ≤ domZ) ∧
      (zMin ≤ domZ → ∃ s ∈ members, zf effects s dom = domZ) := by
  unfold dominant at result
  obtain ⟨chosen, -, bound⟩ := strictest_spec
    (members.flatMap fun s => ((effects.get? s).getD Dict.empty).items) (.resource, 0)
  rw [result] at chosen bound
  constructor
  · intro s member fam z effect
    exact bound (fam, z) (List.mem_flatMap.mpr ⟨s, member, mem_items_of_effect effect⟩)
  · intro high
    rcases chosen with start | found
    · cases start
      exact absurd high (by decide)
    · obtain ⟨s, member, entry⟩ := List.mem_flatMap.mp found
      exact ⟨s, member, zf_of_effect (effect_of_mem_items entry)⟩

theorem distress_stepped (high : zMin ≤ distress effects s) :
    zMin ≤ zTot effects s := by
  rcases le_max_iff.mp high with latency | resource
  · exact zTot_of_zf latency
  · exact zTot_of_zf resource

end Dominant

/-- The tuples compare by their first numbers first. -/
theorem first_le_of_key_le {x y : ℚ} {xs ys : List ℚ} {s t : String}
    (le : toLex (x :: xs, s) ≤ toLex (y :: ys, t)) : x ≤ y := by
  rcases Prod.Lex.le_iff.mp le with less | ⟨same, -⟩
  · rcases List.cons_lt_cons_iff.mp less with less | ⟨same, -⟩
    · exact le_of_lt less
    · exact le_of_eq same
  · exact le_of_eq (List.cons.inj same).1

theorem of_indicator_not_le {p q : Prop} [Decidable p] [Decidable q]
    (le : indicator (¬ p) ≤ indicator (¬ q)) (holds : q) : p := by
  by_contra fails
  simp only [indicator, fails, holds, not_true_eq_false, not_false_eq_true, if_true, if_false] at le
  exact absurd le (by decide)

section Ranking
variable [SetOrder] {edges : List (String × String)} {effects : Effects}

theorem mem_services {s : String} :
    s ∈ services edges ↔ ∃ e ∈ edges, s = e.1 ∨ s = e.2 := by
  simp [services, SetOrder.mem_iter]

theorem callees_subset {s c : String} (member : c ∈ callees edges s) : c ∈ services edges := by
  simp only [callees, SetOrder.mem_iter, List.mem_map, List.mem_filter] at member
  obtain ⟨e, ⟨edge, -⟩, rfl⟩ := member
  exact mem_services.mpr ⟨e, edge, .inr rfl⟩

theorem mem_stepped {fam : Family} {s : String} :
    s ∈ stepped edges effects fam ↔ s ∈ services edges ∧ zMin ≤ zf effects s fam := by
  simp [stepped]

@[simp] theorem mem_sortedServices {key : String → List ℚ} {s : String} :
    s ∈ sortedServices edges key ↔ s ∈ services edges :=
  mem_sortedBy

theorem sortedServices_head (first : String → ℚ) (others : String → List ℚ) {s : String}
    (member : s ∈ services edges) :
    ∃ root ∈ services edges,
      (sortedServices edges fun s => first s :: others s).head? = some root ∧
        first root ≤ first s := by
  obtain ⟨root, head⟩ := sortedBy_head_of_mem (fun s => toLex (first s :: others s, s)) member
  have least := head_sortedBy_le head member
  exact ⟨root, mem_of_head_sortedBy head, head, first_le_of_key_le least⟩

/-- An order that asks for membership in the stepped services first is headed by
one of them. -/
theorem head_stepped {fam : Family} (others : String → List ℚ) {s : String}
    (member : s ∈ stepped edges effects fam) :
    ∃ root ∈ stepped edges effects fam,
      (sortedServices edges fun s =>
        indicator (s ∉ stepped edges effects fam) :: others s).head? = some root := by
  obtain ⟨root, -, head, least⟩ := sortedServices_head
    (fun s => indicator (s ∉ stepped edges effects fam)) others (mem_stepped.mp member).1
  exact ⟨root, of_indicator_not_le least member, head⟩

/-- The transit descent moves one of the services to the front. -/
theorem mem_errorOrder {s : String} : s ∈ errorOrder edges effects ↔ s ∈ services edges := by
  unfold errorOrder
  dsimp only
  split
  · exact mem_sortedServices
  · split
    · split
      · exact mem_sortedServices
      · rename_i origin best
        have inside : origin ∈ services edges :=
          callees_subset (List.mem_filter.mp (List.argmax_mem best)).1
        by_cases same : s = origin
        · simp [same, inside]
        · simp [same, List.mem_erase_of_ne same, callersOrder]
    · exact mem_sortedServices

theorem mem_rank [FloatArith] {s : String} : s ∈ rank edges effects ↔ s ∈ services edges := by
  unfold rank
  dsimp only
  split
  · exact mem_sortedServices
  · split
    · exact mem_sortedServices
    · exact mem_sortedServices
    · exact mem_errorOrder

theorem resourceOrder_head {s : String} (member : s ∈ services edges)
    (high : zMin ≤ zf effects s .resource) :
    ∃ root ∈ services edges, (resourceOrder edges effects).head? = some root ∧
      zMin ≤ zTot effects root := by
  obtain ⟨root, inside, head, least⟩ := sortedServices_head (fun s => -zf effects s .resource)
    (fun s => [indicator (s ∈ syntheticRoles), -zTot effects s]) member
  exact ⟨root, inside, head, zTot_of_zf (high.trans (neg_le_neg_iff.mp least))⟩

theorem latencyOrder_head [FloatArith] {s : String} (member : s ∈ stepped edges effects .latency) :
    ∃ root ∈ services edges, (latencyOrder edges effects).head? = some root ∧
      zMin ≤ zTot effects root := by
  obtain ⟨root, anomalous, head⟩ := head_stepped _ member
  obtain ⟨inside, high⟩ := mem_stepped.mp anomalous
  exact ⟨root, inside, head, zTot_of_zf high⟩

theorem errorOrder_head {s : String} (member : s ∈ stepped edges effects .error) :
    ∃ root ∈ services edges, (errorOrder edges effects).head? = some root ∧
      zMin ≤ zTot effects root := by
  obtain ⟨deepest, anomalous, head⟩ := head_stepped _ member
  change (callersOrder edges effects).head? = some deepest at head
  simp only [errorOrder, head, if_pos anomalous]
  cases best : (transit edges effects deepest).argmax (distress effects) with
  | none =>
    obtain ⟨inside, high⟩ := mem_stepped.mp anomalous
    exact ⟨deepest, inside, head, zTot_of_zf high⟩
  | some origin =>
    obtain ⟨callee, kept⟩ := List.mem_filter.mp (List.argmax_mem best)
    simp only [decide_eq_true_eq] at kept
    exact ⟨origin, callees_subset callee, rfl, distress_stepped kept.1⟩

/-- In each regime the first service is anomalous. -/
theorem rank_head [FloatArith] {s : String} {fam : Family} {z : ℚ} (member : s ∈ services edges)
    (effect : Effect effects s fam z) (high : zMin ≤ z) :
    ∃ root ∈ services edges, (rank edges effects).head? = some root ∧ zMin ≤ zTot effects root := by
  unfold rank
  rcases found : dominant effects (services edges) with ⟨dom, domZ⟩
  obtain ⟨bound, attained⟩ := dominant_spec found
  have domHigh : zMin ≤ domZ := high.trans (bound s member fam z effect)
  obtain ⟨top, inside, value⟩ := attained domHigh
  have topHigh : zMin ≤ zf effects top dom := value ▸ domHigh
  simp only [not_lt.mpr domHigh, if_false]
  cases dom with
  | resource => exact resourceOrder_head inside topHigh
  | latency => exact latencyOrder_head (mem_stepped.mpr ⟨inside, topHigh⟩)
  | error => exact errorOrder_head (mem_stepped.mpr ⟨inside, topHigh⟩)

end Ranking
end Sentinel.Oss
