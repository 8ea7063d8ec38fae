import Sentinel.Actions.Binding
import Sentinel.Actions.Catalog

/-! The suggestions of the catalog are drafted row by row. They are well formed whenever
they are drafted at all, and the lookup of a blank fault type is the one that is not. -/
namespace Sentinel.Actions
open Python

/-- What a list of suggestions promises to the gate and to the card. -/
structure WellFormed [FloatRepr] [Hashlib] (executor : Executor) (confident : Bool)
    (actions : List SuggestedAction) : Prop where
  nonempty : actions ≠ []
  reversibleFirst : actions.Pairwise fun a b => b.reversible = true → a.reversible = true
  sure : ∀ a ∈ actions, a.effect = .mutate → confident = true
  effects : ∀ a ∈ actions, a.effect = a.kind.effect
  hashed : ∀ a ∈ actions, a.paramsHash = a.computeHash
  previewed : ∀ a ∈ actions, executor.render a = .ok a.preview

/-- A fault type that is not empty and has no word. -/
def Blank (faultType : Option String) : Prop :=
  ∃ text, faultType = some text ∧ text ≠ "" ∧ ∀ c ∈ text.toList, isSpace c = true

/-! ### The lookup -/

theorem isSpace_of_visible {c : Char} (low : 33 ≤ c.toNat) (high : c.toNat ≤ 127) :
    isSpace c = false := by
  simp only [isSpace, Bool.or_eq_false_iff, Bool.and_eq_false_iff, decide_eq_false_iff_not,
    beq_eq_false_iff_ne]
  omega

theorem isSpace_toLower (c : Char) : isSpace c.toLower = isSpace c := by
  unfold Char.toLower
  split
  · rename_i capital
    have low : 65 ≤ c.toNat := UInt32.le_iff_toNat_le.mp capital.1
    have high : c.toNat ≤ 90 := UInt32.le_iff_toNat_le.mp capital.2
    have shifted : (c.val + ('a'.val - 'A'.val)).toNat = c.toNat + 32 := by
      rw [UInt32.toNat_add]
      exact Nat.mod_eq_of_lt (show c.toNat + 32 < 2 ^ 32 by omega)
    rw [isSpace_of_visible (c := c) (by omega) (by omega)]
    apply isSpace_of_visible
    · rw [Char.toNat, shifted]
      omega
    · rw [Char.toNat, shifted]
      omega
  · rfl

theorem exists_visible_lower (text : String) :
    (∃ c ∈ lower text, isSpace c = false) ↔ ∃ c ∈ text.toList, isSpace c = false := by
  have each (c : Char) : isSpace (if c = '\u212a' then 'k' else c.toLower) = isSpace c := by
    split
    · rename_i kelvin
      rw [kelvin]
      rfl
    · exact isSpace_toLower c
  simp only [lower, List.mem_map, exists_exists_and_eq_and, each]

theorem firstWord_returns_iff (text : List Char) :
    Returns (firstWord text) ↔ ∃ c ∈ text, isSpace c = false := by
  induction text with
  | nil => simp [firstWord, not_returns_error]
  | cons c rest ih =>
    cases space : isSpace c with
    | true =>
      have same : firstWord (c :: rest) = firstWord rest := by
        simp [firstWord, List.dropWhile_cons_of_pos, space]
      rw [same, ih]
      simp [space]
    | false =>
      refine iff_of_true ?_ ⟨c, List.mem_cons_self, space⟩
      simp [firstWord, List.dropWhile_cons_of_neg, List.takeWhile_cons_of_pos, space, returns_ok]

/-- Looking up a fault raises for a blank one only. -/
theorem catalogKey_returns_iff (faultType signature : Option String) :
    Returns (catalogKey faultType signature) ↔ ¬ Blank faultType := by
  cases faultType with
  | none =>
    refine iff_of_true ?_ ?_
    · simp only [catalogKey, pure_bind]
      exact returns_ok _
    · rintro ⟨text, named, -⟩
      cases named
  | some text =>
    by_cases empty : text = ""
    · refine iff_of_true ?_ ?_
      · simp only [catalogKey, if_pos empty, pure_bind]
        exact returns_ok _
      · rintro ⟨text, named, filled, -⟩
        exact filled ((Option.some.inj named).symm.trans empty)
    · have word := firstWord_returns_iff (lower text)
      rw [exists_visible_lower] at word
      have blank : Blank (some text) ↔ ¬ ∃ c ∈ text.toList, isSpace c = false := by
        simp [Blank, empty]
      rw [blank, not_not, ← word]
      simp only [catalogKey, if_neg empty]
      cases firstWord (lower text) with
      | error e => simp [Returns, bind, Except.bind]
      | ok word =>
        simp only [Returns, bind, Except.bind, pure, Except.pure]
        refine iff_of_true ?_ ⟨word, rfl⟩
        split <;> exact ⟨_, rfl⟩

/-! ### The drafts -/

/-- The action of a row before it has a preview and a hash. -/
def CatalogRow.draft (row : CatalogRow) (id targetService : String) (citations : List String) :
    SuggestedAction :=
  { id, kind := row.kind, effect := row.kind.effect, targetService, params := row.params
    description := row.description targetService, risk := row.risk, reversible := row.reversible
    citations }

/-- The rows that are found for a diagnosis. -/
def foundRows (confident : Bool) (faultType signature : Option String) : Py (List CatalogRow) :=
  if confident then catalogKey faultType signature else .ok []

theorem foundRows_returns_iff (confident : Bool) (faultType signature : Option String) :
    Returns (foundRows confident faultType signature) ↔ ¬ (confident = true ∧ Blank faultType) := by
  cases confident with
  | false => simp [foundRows, returns_ok]
  | true => simp [foundRows, catalogKey_returns_iff]

def CatalogRow.mutates (row : CatalogRow) : Bool := row.kind.effect = .mutate

theorem rankedRows_perm (found : List CatalogRow) :
    (rankedRows found).Perm (if found.isEmpty then notifyOnly else found) :=
  List.filter_append_perm _ _

theorem rankedRows_nonempty (found : List CatalogRow) : rankedRows found ≠ [] := by
  intro empty
  have perm := rankedRows_perm found
  rw [empty, List.nil_perm] at perm
  split at perm
  · cases perm
  · rename_i filled
    exact filled (List.isEmpty_iff.mpr perm)

theorem rankedRows_reversibleFirst (found : List CatalogRow) :
    (rankedRows found).Pairwise fun a b => b.reversible = true → a.reversible = true := by
  rw [rankedRows, List.pairwise_append]
  refine ⟨?_, ?_, ?_⟩
  · apply List.pairwise_of_forall_mem_list
    intro a inA b inB _
    exact (List.mem_filter.mp inA).2
  · apply List.pairwise_of_forall_mem_list
    intro a inA b inB reversible
    simp [reversible] at inB
  · intro a inA b inB _
    exact (List.mem_filter.mp inA).2

/-- What is suggested in place of remedies only notifies. -/
theorem rankedRows_mutations (found : List CatalogRow) :
    (rankedRows found).countP CatalogRow.mutates = found.countP CatalogRow.mutates := by
  rw [(rankedRows_perm found).countP_eq]
  cases found with
  | nil => decide
  | cons row rest => rfl

section
variable [FloatRepr] [Hashlib] {uuids : ℕ → String} {rows : List CatalogRow}
  {targetService : String} {citations : List String} {executor : Executor}
  {actions : List SuggestedAction}

omit [FloatRepr] [Hashlib] in
theorem map_eq_of_forall₂ {α β γ : Type} {f : α → γ} {g : β → γ} {xs : List α} {ys : List β}
    (related : List.Forall₂ (fun a b => g b = f a) xs ys) : ys.map g = xs.map f := by
  induction related with
  | nil => rfl
  | cons head _ ih => rw [List.map_cons, List.map_cons, head, ih]

/-- What `f` reads of a draft and `g` of its row. -/
theorem map_draftActions {γ : Type} (f : SuggestedAction → γ) (g : CatalogRow × ℕ → γ)
    (drafted : draftActions uuids rows targetService citations executor = .ok actions)
    (each : ∀ row n action, row.suggest (uuids n) targetService citations executor = .ok action →
      f action = g (row, n)) : actions.map f = rows.zipIdx.map g := by
  apply map_eq_of_forall₂
  exact (mapM_ok_iff.mp drafted).imp fun {entry action} suggested =>
    each entry.1 entry.2 action suggested

/-- What neither the preview nor the hash changes is read off the rows. -/
theorem map_draftActions_row {γ : Type} (f : SuggestedAction → γ) (g : CatalogRow → γ)
    (drafted : draftActions uuids rows targetService citations executor = .ok actions)
    (each : ∀ row id preview,
      f { row.draft id targetService citations with preview }.withHash = g row) :
    actions.map f = rows.map g := by
  rw [← List.zipIdx_map_fst 0 rows, List.map_map]
  refine map_draftActions _ _ drafted fun row n action suggested => ?_
  obtain ⟨preview, -, finished⟩ := bind_ok_iff.mp suggested
  obtain rfl := Except.ok.inj finished
  exact each row (uuids n) preview

/-- Each suggestion is the draft of a row, with the preview that the draft renders to. -/
theorem mem_draftActions
    (drafted : draftActions uuids rows targetService citations executor = .ok actions)
    (action : SuggestedAction) : action ∈ actions ↔
      ∃ entry ∈ rows.zipIdx, ∃ preview,
        executor.render (entry.1.draft (uuids entry.2) targetService citations) = .ok preview ∧
          { entry.1.draft (uuids entry.2) targetService citations with preview }.withHash =
            action := by
  rw [mem_of_mapM drafted action]
  refine exists_congr fun entry => and_congr_right fun _ => ?_
  exact bind_ok_iff.trans (exists_congr fun preview => and_congr_right fun _ =>
    iff_of_eq (Except.ok.injEq _ _))

/-- An executor with a total `render` lets every row be drafted. -/
theorem draftActions_returns (total : ∀ action, Returns (executor.render action)) :
    Returns (draftActions uuids rows targetService citations executor) := by
  apply mapM_returns_iff.mpr
  intro entry _
  obtain ⟨preview, rendered⟩ := total (entry.1.draft (uuids entry.2) targetService citations)
  exact ⟨_, bind_ok_iff.mpr ⟨preview, rendered, rfl⟩⟩

/-- The executor renders the draft alike with its preview and its hash filled in. -/
def Settled (executor : Executor) (draft : SuggestedAction) : Prop :=
  ∀ preview, executor.render draft = .ok preview →
    executor.render { draft with preview }.withHash = .ok preview

theorem wellFormed_of_drafted {found : List CatalogRow} {confident : Bool}
    (unsure : confident = false → found = [])
    (drafted : draftActions uuids (rankedRows found) targetService citations executor = .ok actions)
    (settled : ∀ entry ∈ (rankedRows found).zipIdx,
      Settled executor (entry.1.draft (uuids entry.2) targetService citations)) :
    WellFormed executor confident actions := by
  have reversible : actions.map SuggestedAction.reversible =
      (rankedRows found).map CatalogRow.reversible :=
    map_draftActions_row _ _ drafted fun _ _ _ => rfl
  constructor
  case nonempty =>
    intro empty
    rw [empty, List.map_nil, eq_comm, List.map_eq_nil_iff] at reversible
    exact rankedRows_nonempty found reversible
  case reversibleFirst =>
    have rows : ((rankedRows found).map CatalogRow.reversible).Pairwise
        fun a b => b = true → a = true :=
      List.pairwise_map.mpr (rankedRows_reversibleFirst found)
    rw [← reversible] at rows
    exact List.pairwise_map.mp rows
  case sure =>
    intro action member mutate
    obtain ⟨⟨row, n⟩, inRows, preview, -, rfl⟩ := (mem_draftActions drafted action).mp member
    by_contra unsettled
    have none_ : (rankedRows found).countP CatalogRow.mutates = 0 := by
      rw [rankedRows_mutations, unsure (by simpa using unsettled), List.countP_nil]
    have quiet := List.countP_eq_zero.mp none_ row (List.fst_mem_of_mem_zipIdx inRows)
    exact quiet (decide_eq_true mutate)
  case effects =>
    intro action member
    obtain ⟨⟨row, n⟩, -, preview, -, rfl⟩ := (mem_draftActions drafted action).mp member
    rfl
  case hashed =>
    intro action member
    obtain ⟨⟨row, n⟩, -, preview, -, rfl⟩ := (mem_draftActions drafted action).mp member
    rfl
  case previewed =>
    intro action member
    obtain ⟨⟨row, n⟩, inRows, preview, rendered, rfl⟩ := (mem_draftActions drafted action).mp member
    exact settled _ inRows preview rendered

/-- Suggestions are well formed exactly if the fault type of a confident diagnosis is not
blank, and the executor renders no draft otherwise once its preview and hash are there. -/
theorem suggestActions_wellFormed_iff (uuids : ℕ → String) (targetService : String)
    (faultType signature : Option String) (citations : List String) (confident : Bool)
    {executor : Executor} (total : ∀ action, Returns (executor.render action)) :
    (∃ actions, suggestActions uuids targetService faultType signature citations confident executor =
        .ok actions ∧ WellFormed executor confident actions) ↔
      ¬ (confident = true ∧ Blank faultType) ∧
        ∀ found, foundRows confident faultType signature = .ok found →
          ∀ entry ∈ (rankedRows found).zipIdx,
            Settled executor (entry.1.draft (uuids entry.2) targetService citations) := by
  rw [← foundRows_returns_iff confident faultType signature, suggestActions_eq]
  constructor
  · rintro ⟨actions, suggested, formed⟩
    obtain ⟨found, looked, drafted⟩ := bind_ok_iff.mp suggested
    refine ⟨⟨found, looked⟩, fun found' looked' entry member preview rendered => ?_⟩
    obtain rfl := Except.ok.inj (looked.symm.trans looked')
    exact formed.previewed _ ((mem_draftActions drafted _).mpr ⟨entry, member, preview, rendered, rfl⟩)
  · rintro ⟨⟨found, looked⟩, settled⟩
    obtain ⟨actions, drafted⟩ :
        Returns (draftActions uuids (rankedRows found) targetService citations executor) :=
      draftActions_returns total
    refine ⟨actions, bind_ok_iff.mpr ⟨found, looked, drafted⟩, ?_⟩
    refine wellFormed_of_drafted ?_ drafted (settled found looked)
    rintro rfl
    exact (Except.ok.inj looked).symm

end

section Samples
attribute [local instance] fractionRepr pinnedHashlib

theorem dryRun_total (action : SuggestedAction) : Returns ((dryRunExecutor 0).render action) :=
  returns_ok _

theorem settled_dryRun (draft : SuggestedAction) : Settled (dryRunExecutor 0) draft := by
  intro preview rendered
  exact rendered

/-- A cpu fault in mixed case. -/
theorem cpu_suggestions_wellFormed : ∃ actions,
    suggestActions (fun n => s!"a{n}") "checkout" (some "CPU load") none [] true (dryRunExecutor 0) =
      .ok actions ∧ WellFormed (dryRunExecutor 0) true actions := by
  refine (suggestActions_wellFormed_iff _ _ _ _ _ _ dryRun_total).mpr ⟨?_, ?_⟩
  · rintro ⟨-, text, named, -, blank⟩
    obtain rfl := Option.some.inj named
    exact absurd (blank 'C' (by decide)) (by decide)
  · intro found _ entry _
    exact settled_dryRun _

/-- A fault type of one blank makes the suggestions of a confident diagnosis raise. -/
theorem blank_fault_raises : ¬ ∀ (uuids : ℕ → String) (targetService : String)
    (faultType signature : Option String) (citations : List String) (confident : Bool)
    (executor : Executor), (∀ action, Returns (executor.render action)) →
      ∃ actions, suggestActions uuids targetService faultType signature citations confident
        executor = .ok actions ∧ WellFormed executor confident actions := by
  intro formed
  obtain ⟨actions, suggested, -⟩ := formed (fun n => s!"a{n}") "checkout" (some " ") none [] true
    (dryRunExecutor 0) dryRun_total
  cases suggested

end Samples

end Sentinel.Actions
