import Sentinel.Labs.Otel.Flagd
import Sentinel.Transition.ReadModifyWrite

/-! Concurrent calls of `FlagdClient.set_flag_variant`. Each reads the whole document and
writes it back, so a call that read before another one wrote takes that one's update back. -/
namespace Sentinel.Labs.Otel
open Python Transition

/-- The arguments of a call. -/
structure FlagCall where
  rawFlagKey : String
  variant : String

/-- What a call does with the document that it has read. -/
def FlagCall.edit (call : FlagCall) (document : Json) : Py Json :=
  setFlagVariant document call.rawFlagKey call.variant

/-- The flag of a document. -/
def flagOf (document : Json) (key : String) : Option Json :=
  ((document.lookup "flags").getD .null).lookup key

/-- The document with the call's default variant. -/
def FlagCall.apply (call : FlagCall) (document : Json) : Json :=
  .dict (assign "flags"
    (.dict (assign call.rawFlagKey
      (withDefault ((flagOf document call.rawFlagKey).getD .null) call.variant)
      ((document.lookup "flags").getD .null).entries)) document.entries)

theorem lookup_apply {call : FlagCall} {document : Json} {name : String} (other : name ≠ "flags") :
    (call.apply document).lookup name = document.lookup name := by
  simp only [FlagCall.apply, Json.lookup, Json.entries, lookup_assign, if_neg other]

theorem flagOf_apply (call : FlagCall) (document : Json) (key : String) :
    flagOf (call.apply document) key =
      if key = call.rawFlagKey then
        some (withDefault ((flagOf document call.rawFlagKey).getD .null) call.variant)
      else flagOf document key := by
  have flags : (call.apply document).lookup "flags" = some (.dict (assign call.rawFlagKey
      (withDefault ((flagOf document call.rawFlagKey).getD .null) call.variant)
      ((document.lookup "flags").getD .null).entries)) := by
    rw [FlagCall.apply, Json.lookup, Json.entries, lookup_assign, if_pos rfl]
  rw [flagOf, flags, Option.getD_some, Json.lookup, Json.entries, lookup_assign]
  rfl

theorem assign_assign (k : String) (v w : Json) (entries : List (String × Json)) :
    assign k v (assign k w entries) = assign k v entries := by
  induction entries with
  | nil => simp [assign]
  | cons entry rest ih =>
    obtain ⟨j, u⟩ := entry
    by_cases same : j = k
    · simp [assign, same]
    · simp [assign, same, ih]

theorem withDefault_withDefault (flag : Json) (v w : String) :
    withDefault (withDefault flag w) v = withDefault flag v := by
  simp only [withDefault, Json.entries, assign_assign]

section
variable {ι : Type} {calls : ι → FlagCall} {document : Json}

/-- Every call is on a flag of the document, with one of its variants. -/
def Targets (calls : ι → FlagCall) (document : Json) : Prop :=
  ∃ entries, document.lookup "flags" = some (.dict entries) ∧
    ∀ i, ∃ flag, entries.lookup (calls i).rawFlagKey = some flag ∧ Offers flag (calls i).variant

theorem Targets.offers (targets : Targets calls document) (i : ι) :
    ∃ flag, flagOf document (calls i).rawFlagKey = some flag ∧ Offers flag (calls i).variant := by
  obtain ⟨entries, listed, each⟩ := targets
  obtain ⟨flag, named, offers⟩ := each i
  refine ⟨flag, ?_, offers⟩
  rw [flagOf, listed]
  exact named

theorem edits (calls : ι → FlagCall) :
    Edits (fun i => (calls i).edit) (fun i => (calls i).apply) (Targets calls) where
  succeeds i document targets := by
    obtain ⟨flag, found, offers⟩ := targets.offers i
    obtain ⟨entries, listed, -⟩ := targets
    cases document with
    | dict fields =>
      have held : fields.lookup "flags" = some (.dict entries) := listed
      have named : entries.lookup (calls i).rawFlagKey = some flag := by
        rw [flagOf, listed] at found
        exact found
      simp only [FlagCall.edit, setFlagVariant_ok held named offers, FlagCall.apply, found, listed,
        Option.getD_some, Json.entries]
    | _ => cases listed
  keeps i document targets := by
    have own := targets.offers i
    obtain ⟨entries, listed, each⟩ := targets
    refine ⟨_, by rw [FlagCall.apply, Json.lookup, Json.entries, lookup_assign, if_pos rfl], fun j => ?_⟩
    obtain ⟨flag, named, offers⟩ := each j
    rw [lookup_assign, listed]
    by_cases same : (calls j).rawFlagKey = (calls i).rawFlagKey
    · rw [if_pos same]
      have found : flagOf document (calls i).rawFlagKey = some flag := by
        rw [flagOf, listed, ← same]
        exact named
      rw [found]
      exact ⟨_, rfl, offers.afterDefault⟩
    · rw [if_neg same]
      exact ⟨flag, named, offers⟩

/-- Applying calls leaves everything but the default variants of their flags. -/
theorem lookup_foldl {name : String} (other : name ≠ "flags") (applied : List ι) :
    (applied.foldl (fun d i => (calls i).apply d) document).lookup name = document.lookup name := by
  induction applied generalizing document with
  | nil => rfl
  | cons i rest ih => exact ih.trans (lookup_apply other)

theorem flagOf_foldl_other {key : String} (other : ∀ i, (calls i).rawFlagKey ≠ key)
    (applied : List ι) :
    flagOf (applied.foldl (fun d i => (calls i).apply d) document) key = flagOf document key := by
  induction applied generalizing document with
  | nil => rfl
  | cons i rest ih =>
    rw [List.foldl_cons, ih, flagOf_apply, if_neg fun same => other i same.symm]

variable [DecidableEq ι]

theorem flagOf_foldl (distinct : Function.Injective fun i => (calls i).rawFlagKey) {i : ι}
    {flag : Json} (found : flagOf document (calls i).rawFlagKey = some flag) (applied : List ι) :
    flagOf (applied.foldl (fun d i => (calls i).apply d) document) (calls i).rawFlagKey =
      some (if i ∈ applied then withDefault flag (calls i).variant else flag) := by
  induction applied generalizing document flag with
  | nil => exact found
  | cons j rest ih =>
    by_cases same : i = j
    · subst same
      have next : flagOf ((calls i).apply document) (calls i).rawFlagKey =
          some (withDefault flag (calls i).variant) := by
        rw [flagOf_apply, if_pos rfl, found, Option.getD_some]
      rw [List.foldl_cons, ih next, if_pos List.mem_cons_self, withDefault_withDefault, ite_self]
    · have other : (calls i).rawFlagKey ≠ (calls j).rawFlagKey := fun h => same (distinct h)
      have next : flagOf ((calls j).apply document) (calls i).rawFlagKey = some flag := by
        rw [flagOf_apply, if_neg other, found]
      rw [List.foldl_cons, ih next]
      simp only [List.mem_cons, same, false_or]

/-- All calls have gone through both of their requests. -/
def Finished (requests : List (Request ι)) : Prop := ∀ i, .write i ∈ requests

/-- Whatever the interleaving, the calls return and nothing but the default variants of
their flags changes. The update of a call is kept if the last write carries it, as it does
when every call that writes after it also reads after it, and lost otherwise. -/
theorem flag_updates (distinct : Function.Injective fun i => (calls i).rawFlagKey)
    (targets : Targets calls document) {requests : List (Request ι)} {t : Shared Json Exn ι}
    (run : Shared.Runs (fun i => (calls i).edit) (.start document) requests t)
    (finished : Finished requests) :
    (∀ i, t.phase i = .returned) ∧
      (∀ name, name ≠ "flags" → t.document.lookup name = document.lookup name) ∧
      (∀ key, (∀ i, (calls i).rawFlagKey ≠ key) → flagOf t.document key = flagOf document key) ∧
      (∀ i flag, flagOf document (calls i).rawFlagKey = some flag →
        flagOf t.document (calls i).rawFlagKey =
          some (if i ∈ carried requests then withDefault flag (calls i).variant else flag)) ∧
      ∀ i earlier later, requests = earlier ++ .write i :: later →
        (∀ j, .write j ∈ later → .read j ∈ later) → i ∈ carried requests := by
  obtain ⟨holds, whole⟩ := document_of_run (edits calls) targets run
  refine ⟨fun i => ?_, fun name other => ?_, fun key other => ?_, fun i flag found => ?_, ?_⟩
  · have settled := settled_of_write run (finished i)
    cases phase : t.phase i with
    | returned => rfl
    | raised e => exact absurd phase (whole i e)
    | ready | holding => simp only [phase, Phase.Settled] at settled
  · rw [holds]
    exact lookup_foldl other _
  · rw [holds]
    exact flagOf_foldl_other other _
  · rw [holds]
    exact flagOf_foldl distinct found _
  · rintro i earlier later rfl fresh
    exact mem_carried run fresh

end

/-- A call on each of two flags. -/
def turnOn (first : Bool) : FlagCall :=
  ⟨if first then "cartFailure" else "paymentFailure", "on"⟩

def switch (variant : String) : Json :=
  .dict [("variants", .dict [("on", .bool true), ("off", .bool false)]),
    ("defaultVariant", .str variant)]

def switches (cart payment : String) : Json :=
  .dict [("flags", .dict [("cartFailure", switch cart), ("paymentFailure", switch payment)])]

theorem turnOn_distinct : Function.Injective fun first => (turnOn first).rawFlagKey := by
  intro a b same
  cases a <;> cases b <;> first | rfl | simp [turnOn] at same

theorem turnOn_targets : Targets turnOn (switches "off" "off") := by
  have offers : Offers (switch "off") "on" := ⟨rfl, _, rfl, by decide⟩
  refine ⟨_, rfl, fun first => ⟨switch "off", ?_, offers⟩⟩
  cases first <;> rfl

theorem updates_in_turn_kept : ∃ t : Shared Json Exn Bool,
    Shared.Runs (fun i => (turnOn i).edit) (.start (switches "off" "off"))
        [.read true, .write true, .read false, .write false] t ∧
      (∀ i, t.phase i = .returned) ∧
      ∀ i, flagOf t.document (turnOn i).rawFlagKey = some (withDefault (switch "off") "on") := by
  have run : Shared.Runs (fun i => (turnOn i).edit) (.start (switches "off" "off"))
      [.read true, .write true, .read false, .write false] _ :=
    .next rfl (.next rfl (.next rfl (.next rfl (.refl _))))
  obtain ⟨returned, -, -, kept, -⟩ := flag_updates turnOn_distinct turnOn_targets run
    (fun i => by cases i <;> simp)
  refine ⟨_, run, returned, fun i => ?_⟩
  have carries : i ∈ carried [.read true, .write true, .read false, .write false] := by
    cases i <;> decide
  have found : flagOf (switches "off" "off") (turnOn i).rawFlagKey = some (switch "off") := by
    cases i <;> rfl
  rw [kept i _ found, if_pos carries]
  rfl

/-- Both calls read before either writes: the update of the first one is lost. -/
theorem overlapped_update_lost : ¬ ∀ (ι : Type) (_ : DecidableEq ι) (calls : ι → FlagCall)
    (document : Json) (requests : List (Request ι)) (t : Shared Json Exn ι),
    Function.Injective (fun i => (calls i).rawFlagKey) → Targets calls document →
    Shared.Runs (fun i => (calls i).edit) (.start document) requests t → Finished requests →
      ∀ i flag, flagOf document (calls i).rawFlagKey = some flag →
        flagOf t.document (calls i).rawFlagKey = some (withDefault flag (calls i).variant) := by
  intro kept
  have run : Shared.Runs (fun i => (turnOn i).edit) (.start (switches "off" "off"))
      [.read true, .read false, .write true, .write false] _ :=
    .next rfl (.next rfl (.next rfl (.next rfl (.refl _))))
  have wanted := kept Bool inferInstance turnOn _ _ _ turnOn_distinct turnOn_targets run
    (fun i => by cases i <;> simp) true _ rfl
  have variant := congrArg (fun flag => (flag.getD .null).lookup "defaultVariant") wanted
  change some (Json.str "off") = some (Json.str "on") at variant
  simp at variant

end Sentinel.Labs.Otel
