import Mathlib.Data.Bool.AllAny
import Sentinel.Agent.Hooks
import Sentinel.Python.EscapedReplace

/-! Redaction of tool outputs. `seal_guard` replaces banned tokens in the dump of
an output and reads the result back. That is the output with its strings
redacted, unless a match begins inside an escape of the dump. -/
namespace Sentinel.Agent
open Python

/-- No banned token occurs in `s`. -/
def TokenFree (s : String) : Prop := ∀ t ∈ bannedTokens, ¬ t.toList <:+: s.toList

/-- The redaction returns: no string of what it returns holds a banned token, and
an output without banned tokens is returned as it is. -/
def Redacts (output : Json) (result : Py (Json × RunContext)) : Prop :=
  ∃ v ctx, result = .ok (v, ctx) ∧ (∀ s ∈ v.strings, TokenFree s) ∧
    ((∀ s ∈ output.strings, TokenFree s) → v = output)

def banned : List (List Char) := bannedTokens.map String.toList

def mark : List Char := "[redacted]".toList

/-- Every replacement in the literal of `s` takes out whole characters. -/
def Redactable (s : String) : Prop := unbroken mark banned s.toList

def redact (s : String) : String := String.ofList (replaceEach banned mark s.toList)

theorem banned_sealed : ∀ t ∈ banned, Sealed t := by
  have plain : ∀ t ∈ banned, t ≠ [] ∧ (t.all fun c => escape c = [c]) ∧ '[' ∉ t ∧
      (separators.all fun c => c ∉ t) ∧ (t.any fun c => isToken c = false) ∧ 5 < t.length := by
    decide +kernel
  intro t member
  obtain ⟨nonempty, unescaped, unbracketed, unseparated, wordy, long⟩ := plain t member
  exact ⟨⟨nonempty, List.all_iff_forall_prop.mp unescaped, unbracketed⟩,
    List.all_iff_forall_prop.mp unseparated, List.any_iff_exists_prop.mp wordy, long⟩

theorem mark_shown : ∀ c ∈ mark, escape c = [c] :=
  List.all_iff_forall_prop.mp (by decide +kernel)

theorem mark_marks : ∀ t ∈ banned, Marks mark t ∧ t ≠ [] := by
  have ends : ∀ t ∈ banned, '[' ∉ t ∧ ']' ∉ t ∧ ¬ t <:+: "[redacted".toList ∧ t ≠ [] := by
    decide +kernel
  intro t member
  obtain ⟨first, last, outside, nonempty⟩ := ends t member
  exact ⟨⟨'[', "redacted".toList, ']', by decide +kernel, first, last, outside⟩, nonempty⟩

theorem tokenFree_iff {s : String} : TokenFree s ↔ ∀ t ∈ banned, ¬ t <:+: s.toList := by
  simp [TokenFree, banned]

theorem redact_tokenFree (s : String) : TokenFree (redact s) := by
  rw [tokenFree_iff, redact, String.toList_ofList]
  exact replaceEach_removes mark_marks

section Guard
variable [FloatRepr] [FloatReader]

/-- `json.loads` as the reader does it. -/
@[reducible] def jsonLoads : JsonLoads := ⟨loads⟩

attribute [local instance] jsonLoads

omit [FloatReader] in
theorem redacted_dump (v : Json) : replaceEach banned mark (dumps v) =
    encode (fun s => replaceEach banned mark (s.toList.flatMap escape)) v := by
  rw [dumps_eq_encode, replaceEach_encode banned_sealed]

/-- The redacted dump is read back exactly when every string is redactable. -/
theorem loads_redacted (v : Json) : Reads (∀ s ∈ v.strings, Redactable s) (v.mapStrings redact)
    (loads (replaceEach banned mark (dumps v))) := by
  rw [redacted_dump]
  refine loads_encode (fun s rest => ?_) v
  rcases replaceEach_flatMap_escape (m := "redacted]".toList)
    (fun t member => (banned_sealed t member).toPlain) mark_shown s.toList with
    ⟨whole, literal⟩ | ⟨cut, broken⟩
  · change replaceEach banned mark _ = (replaceEach banned mark _).flatMap escape at literal
    rw [literal, scanString_body, redact, String.toList_ofList]
    exact .value whole
  · obtain ⟨msg, fails⟩ := broken.scanString rest
    change scanString none (replaceEach banned mark _ ++ _) = _ at fails
    rw [fails]
    exact .error cut

omit [FloatReader] in
/-- A dump that the redaction leaves alone holds no banned token. -/
theorem tokenFree_of_unchanged {v : Json}
    (unchanged : replaceEach banned mark (dumps v) = dumps v) : ∀ s ∈ v.strings, TokenFree s := by
  intro s member
  rw [tokenFree_iff]
  intro t inside found
  have part : ∀ body : String → List Char, body s <:+: encode body v :=
    fun _ => infix_encode v s member
  have literal := part fun s => s.toList.flatMap escape
  rw [← dumps_eq_encode, ← unchanged] at literal
  refine replaceEach_removes mark_marks t inside (.trans ?_ literal)
  obtain ⟨before, after, same⟩ := found
  refine ⟨before.flatMap escape, after.flatMap escape, ?_⟩
  rw [← same, List.flatMap_append, List.flatMap_append,
    flatMap_escape_of_unescaped (banned_sealed t inside).unescaped]

omit [FloatReader] in
/-- The redaction leaves the dump of an output alone that holds no banned token,
if it cuts no escape of it. -/
theorem unchanged_of_tokenFree {v : Json} (redactable : ∀ s ∈ v.strings, Redactable s)
    (clean : ∀ s ∈ v.strings, TokenFree s) : replaceEach banned mark (dumps v) = dumps v := by
  rw [redacted_dump, dumps_eq_encode]
  refine encode_congr v fun s member => ?_
  rcases replaceEach_flatMap_escape (m := "redacted]".toList)
    (fun t member => (banned_sealed t member).toPlain) mark_shown s.toList with
    ⟨-, literal⟩ | ⟨cut, -⟩
  · change replaceEach banned mark _ = (replaceEach banned mark _).flatMap escape at literal
    rw [literal, replaceEach_of_not_infix (tokenFree_iff.mp (clean s member))]
  · exact absurd (redactable s member) cut

omit [FloatRepr] [FloatReader] in
theorem foldl_bannedTokens (text : List Char) : bannedTokens.foldl
    (fun text token => replaceAll token.toList "[redacted]".toList text) text =
      replaceEach banned mark text := by
  rw [replaceEach, banned, List.foldl_map]
  rfl

theorem postToolUse_eq (call : ToolCall) (output : Json) (ctx : RunContext) :
    sealGuard.postToolUse call output ctx =
      if replaceEach banned mark (dumps output) = dumps output then .ok (output, ctx)
      else match loads (replaceEach banned mark (dumps output)) with
        | .error e => .error e
        | .ok output => .ok (output, { ctx with redactions := ctx.redactions + 1 }) := by
  simp only [sealGuard, foldl_bannedTokens]
  rfl

/-- A match inside an escape makes the guard raise. -/
theorem postToolUse_raises {output : Json} (cut : ∃ s ∈ output.strings, ¬ Redactable s)
    (call : ToolCall) (ctx : RunContext) :
    ∃ msg, sealGuard.postToolUse call output ctx = .error (decodeError msg) := by
  obtain ⟨s, member, broken⟩ := cut
  have reads := loads_redacted output
  have changed : replaceEach banned mark (dumps output) ≠ dumps output := by
    intro unchanged
    rw [unchanged, loads_dumps] at reads
    exact broken (reads.holds s member)
  rw [postToolUse_eq, if_neg changed]
  generalize loads (replaceEach banned mark (dumps output)) = result at reads
  cases reads with
  | value whole => exact absurd (whole s member) broken
  | error _ => exact ⟨_, rfl⟩

theorem postToolUse_redacts {output : Json} (redactable : ∀ s ∈ output.strings, Redactable s)
    (call : ToolCall) (ctx : RunContext) : Redacts output (sealGuard.postToolUse call output ctx) := by
  rw [postToolUse_eq]
  split
  · rename_i unchanged
    exact ⟨output, ctx, rfl, tokenFree_of_unchanged unchanged, fun _ => rfl⟩
  · rename_i changed
    have reads := loads_redacted output
    generalize loads (replaceEach banned mark (dumps output)) = result at reads
    cases reads with
    | error cut => exact absurd redactable cut
    | value _ =>
      refine ⟨_, _, rfl, ?_, fun clean => absurd (unchanged_of_tokenFree redactable clean) changed⟩
      intro s member
      obtain ⟨t, -, rfl⟩ := mem_strings_mapStrings output s member
      exact redact_tokenFree t

/-- The guard redacts an output exactly when no replacement, at its turn, cuts an
escape in the literal of one of its strings. -/
theorem sealGuard_redacts_iff (call : ToolCall) (output : Json) (ctx : RunContext) :
    Redacts output (sealGuard.postToolUse call output ctx) ↔
      ∀ s ∈ output.strings, Redactable s := by
  constructor
  · rintro ⟨v, ctx', returned, -⟩
    by_contra cut
    obtain ⟨msg, raised⟩ := postToolUse_raises (by simpa using cut) call ctx
    rw [returned] at raised
    cases raised
  · exact fun redactable => postToolUse_redacts redactable call ctx

end Guard

section Sample

attribute [local instance] fractionRepr fractionReader jsonLoads

/-- A form feed before the rest of a banned token. -/
def formFeed : String := "\x0ceature_flag"

/-- The form feed's escape ends in the letter that the token opens with. -/
theorem sealGuard_cuts_escape : ¬ Redacts (.dict [("title", .str formFeed)])
    (sealGuard.postToolUse ⟨"search_logs", .dict []⟩ (.dict [("title", .str formFeed)]) {}) := by
  rintro ⟨v, ctx, returned, -⟩
  have cut : ¬ Redactable formFeed := fun whole =>
    whole.1 (.inl ⟨['f'], by decide, by decide, by decide +kernel⟩)
  have holds : ∃ s ∈ (Json.dict [("title", .str formFeed)]).strings, ¬ Redactable s :=
    ⟨formFeed, by simp [Json.strings, entryStrings], cut⟩
  obtain ⟨msg, raised⟩ := postToolUse_raises holds ⟨"search_logs", .dict []⟩ {}
  rw [returned] at raised
  cases raised

end Sample

end Sentinel.Agent
