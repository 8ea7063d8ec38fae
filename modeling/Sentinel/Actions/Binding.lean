import Sentinel.Actions.Models
import Sentinel.Python.JsonProofs

/-! What a params hash binds: actions with equal hashes have the same kind,
target and parameters, as dicts compare them. Only the digest is assumed to be
collision-free; that the hashed text determines its payload is proved. -/
namespace Sentinel.Actions
open Python

section
variable [FloatRepr] [Hashlib]

theorem paramsHash_binds (collisionFree : CollisionFree) {kind kind' target target' : String}
    {params params' : List (String × Json)}
    (same : paramsHash kind target params = paramsHash kind' target' params') :
    kind = kind' ∧ target = target' ∧ sortKeys (.dict params) = sortKeys (.dict params') := by
  have order : ∀ a b c : Json, sortEntries [("kind", a), ("target_service", b), ("params", c)] =
      [("kind", a), ("params", c), ("target_service", b)] := by
    intro a b c
    simp only [sortEntries, List.insertionSort_cons, List.insertionSort_nil, List.orderedInsert]
    rw [if_neg (by decide)]
    simp only [List.orderedInsert]
    rw [if_pos (by decide)]
  have payloads := dumps_injective (collisionFree same)
  simp only [hashPayload, sortKeys, sortValues, order, Json.dict.injEq, List.cons.injEq,
    Prod.mk.injEq, Json.str.injEq, true_and, and_true] at payloads
  obtain ⟨kinds, params, targets⟩ := payloads
  refine ⟨kinds, targets, ?_⟩
  rw [← sortKeys_sorted, ← sortKeys_sorted params']
  simpa only [sortKeys, Json.dict.injEq] using params

end

theorem kind_text_injective : Function.Injective ActionKind.text := by
  intro a b same
  cases a <;> cases b <;> first | rfl | (exact absurd same (by decide))

theorem toJson_injective : Function.Injective ParamValue.toJson := by
  intro a b same
  cases a <;> cases b <;> simp_all [ParamValue.toJson]

/-- `(kind, target_service, params)` compared as Python compares them. -/
def SameContent (a b : SuggestedAction) : Prop :=
  a.kind = b.kind ∧ a.targetService = b.targetService ∧ ∀ k, a.params.get? k = b.params.get? k

theorem sortValues_params (params : Params) : sortValues params.toJson = params.toJson := by
  rw [sortValues_eq_map, Params.toJson, List.map_map]
  apply List.map_congr_left
  rintro ⟨k, v⟩ _
  cases v <;> rfl

theorem params_eq_of_sorted {a b : Params}
    (same : sortKeys (.dict a.toJson) = sortKeys (.dict b.toJson)) (k : String) :
    a.get? k = b.get? k := by
  simp only [sortKeys, sortValues_params, Json.dict.injEq] at same
  have perm : a.toJson.Perm b.toJson :=
    (sortEntries_perm a.toJson).symm.trans (same ▸ sortEntries_perm b.toJson)
  have members : ∀ {p : Params} {v : ParamValue}, (k, v.toJson) ∈ p.toJson ↔ p.get? k = some v := by
    intro p v
    rw [← Dict.mem_items_iff]
    simp only [Params.toJson, List.mem_map, Prod.mk.injEq, Prod.exists]
    constructor
    · rintro ⟨j, w, member, rfl, values⟩
      exact toJson_injective values ▸ member
    · exact fun member => ⟨k, v, member, rfl, rfl⟩
  ext v
  rw [← members, ← members]
  exact perm.mem_iff

theorem computeHash_binds [FloatRepr] [Hashlib] (collisionFree : CollisionFree)
    {a b : SuggestedAction} (same : a.computeHash = b.computeHash) : SameContent a b := by
  obtain ⟨kinds, targets, params⟩ := paramsHash_binds collisionFree same
  exact ⟨kind_text_injective kinds, targets, params_eq_of_sorted params⟩

/-- The hashed text of a parameterless restart. -/
def restartPayload (target : String) : List Char :=
  "\x7b\"kind\": \"restart\", \"params\": \x7b\x7d, \"target_service\": \"".toList ++
    target.toList ++ "\"\x7d".toList

/-- A digest that is SHA-256 on two restarts and keeps all other texts apart. -/
@[reducible] def pinnedHashlib : Hashlib where
  sha256 text :=
    if text = restartPayload "orders" then
      "0a9496365936297580634c693b733b473dca9907ef8b71e429024b33dc450f93"
    else if text = restartPayload "payments" then
      "53594a5959c518a06b64a45464c527ad7e26eb7a52ea427c93bbc0ea80443e0c"
    else String.ofList ('#' :: text)

theorem pinnedHashlib_collisionFree : @CollisionFree pinnedHashlib := by
  intro a b same
  have chars := congrArg String.toList same
  simp only [Hashlib.sha256] at chars
  split_ifs at chars with ordersA ordersB paymentsB paymentsA ordersB paymentsB ordersB paymentsB
  · exact ordersA.trans ordersB.symm
  · exact absurd chars (by decide)
  · simp at chars
  · exact absurd chars (by decide)
  · exact paymentsA.trans paymentsB.symm
  · simp at chars
  · simp at chars
  · simp at chars
  · simpa using chars

end Sentinel.Actions
