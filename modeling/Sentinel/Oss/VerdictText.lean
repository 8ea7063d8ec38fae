import Sentinel.Oss.Worker
import Sentinel.Python.JsonLines
import Sentinel.Python.JsonRoundtrip

/-! The verdict of a worker in its output: `finish` prints a tagged line after whatever the
code has printed, and the first line that starts with the tag is read back. -/
namespace Sentinel.Oss
open Python Agent

/-- Ends of a line that make a tag of their own with the one that follows. -/
def overlaps : List (List Char) := ["__VERDICT".toList, "__VERDICT_".toList]

theorem verdictText_append {lines rest : List Char} (untagged : ¬ verdictTag.toList <:+: lines)
    (split : splitlines (lines ++ rest) = splitlines lines ++ splitlines rest) :
    verdictText (String.ofList (lines ++ rest)) = verdictText (String.ofList rest) := by
  have none : (splitlines lines).find? (fun line => verdictTag.toList <+: line) = none := by
    refine List.find?_eq_none.mpr fun line member tagged => untagged ?_
    exact (of_decide_eq_true tagged).isInfix.trans (infix_of_mem_splitlines member)
  simp only [verdictText, String.toList_ofList, split, List.find?_append, none, Option.none_or]

/-- A line without the tag starts with one after the tag is printed on it only if it is
empty or overlaps with it. -/
theorem tagged_line_iff {line r : List Char} (untagged : ¬ verdictTag.toList <:+: line) :
    verdictTag.toList <+: line ++ (verdictTag.toList ++ r) ↔ line = [] ∨ line ∈ overlaps := by
  constructor
  · intro tagged
    have short : line.length < verdictTag.toList.length := by
      by_contra long
      exact untagged (List.prefix_of_prefix_length_le tagged (List.prefix_append _ _) (not_lt.mp long)).isInfix
    have start : line = verdictTag.toList.take line.length := by
      have opens := List.prefix_of_prefix_length_le (List.prefix_append line _) tagged short.le
      exact List.prefix_iff_eq_take.mp opens
    have periods : ∀ n < verdictTag.toList.length,
        verdictTag.toList.drop n <+: verdictTag.toList →
          verdictTag.toList.take n = [] ∨ verdictTag.toList.take n ∈ overlaps := by decide
    rw [start]
    refine periods line.length short ?_
    have again : verdictTag.toList.drop line.length <+: verdictTag.toList ++ r := by
      have dropped := tagged.drop line.length
      rwa [List.drop_left] at dropped
    exact List.prefix_of_prefix_length_le again (List.prefix_append _ _) (by simp)
  · rintro (rfl | overlap)
    · exact List.prefix_append _ _
    · have periods : ∀ line ∈ overlaps, verdictTag.toList <+: line ++ verdictTag.toList := by decide
      rw [← List.append_assoc]
      exact (periods line overlap).trans (List.prefix_append _ _)

section
variable [FloatRepr]

/-- What `finish(verdict)` prints. -/
def finishText (verdict : Json) : List Char := verdictTag.toList ++ (dumps verdict ++ ['\n'])

theorem finishText_plain (v : Json) :
    ∀ c ∈ verdictTag.toList ++ dumps v, isLineBreak c = false := by
  intro c member
  rcases List.mem_append.mp member with tag | dump
  · exact printable_not_break (printable_of_all (by decide) c tag)
  · exact printable_not_break (printable_dumps v c dump)

/-- The line that the tag is printed on is the first of the rest. -/
theorem verdictText_line {line after : List Char} (plain : ∀ c ∈ line, isLineBreak c = false) (v : Json) :
    verdictText (String.ofList (line ++ (finishText v ++ after))) =
      if verdictTag.toList <+: line ++ (verdictTag.toList ++ dumps v) then
        some ((line ++ (verdictTag.toList ++ dumps v)).drop verdictTag.toList.length)
      else verdictText (String.ofList after) := by
  have whole : ∀ c ∈ line ++ (verdictTag.toList ++ dumps v), isLineBreak c = false := by
    intro c member
    exact (List.mem_append.mp member).elim (plain c) (finishText_plain v c)
  have text : line ++ (finishText v ++ after) = line ++ (verdictTag.toList ++ dumps v) ++ '\n' :: after := by
    simp [finishText]
  rw [text, verdictText, String.toList_ofList, splitlines_line whole]
  split_ifs with tagged
  · rw [List.find?_cons_of_pos (by simpa using tagged), Option.map_some]
  · rw [List.find?_cons_of_neg (by simpa using tagged), verdictText, String.toList_ofList]

variable [FloatReader]

@[reducible] def jsonLoads : JsonLoads := ⟨loads⟩

attribute [local instance] jsonLoads

/-- The first tagged line of the text holds the value. -/
def Carries (text : String) (v : Json) : Prop :=
  ∃ held, verdictText text = some held ∧ loads held = .ok v

theorem extractVerdict_eq_some {text : String} {entries : List (String × Json)} :
    extractVerdict text = .ok (some (.dict entries)) ↔ Carries text (.dict entries) := by
  unfold extractVerdict Carries readVerdict
  cases verdictText text with
  | none => simp
  | some held =>
    dsimp only [JsonLoads.loads]
    cases read : loads held with
    | ok v => cases v <;> simp [read]
    | error e => by_cases decode : isDecodeError e = true <;> simp [decode, read]

/-- What follows the tag on an overlapping line is no JSON. -/
theorem loads_overlap {line rest : List Char} (overlap : line ∈ overlaps) (v : Json) :
    loads ((line ++ (verdictTag.toList ++ rest)).drop verdictTag.toList.length) ≠ .ok v := by
  have opens : ∃ c more, (c = 'V' ∨ c = '_') ∧
      (line ++ (verdictTag.toList ++ rest)).drop verdictTag.toList.length = c :: more := by
    simp only [overlaps, List.mem_cons, List.not_mem_nil, or_false] at overlap
    rcases overlap with rfl | rfl
    · exact ⟨'V', _, .inl rfl, rfl⟩
    · exact ⟨'_', _, .inr rfl, rfl⟩
  obtain ⟨c, more, letter, text⟩ := opens
  rw [text]
  rcases letter with rfl | rfl <;>
    simp [loads, skipSpace, isJsonSpace, scanOnce, scanNumber, scanInt, bind, Except.bind, throw,
      throwThe, MonadExceptOf.throw]

/-- A verdict is read back exactly when the text before it ends its line, or, unless it
overlaps with the tag, when the text after it carries the verdict once more. -/
theorem extractVerdict_roundtrip_iff {s after : String} {entries : List (String × Json)}
    (untagged : ¬ verdictTag.toList <:+: s.toList) (keyed : (Json.dict entries).keyed = true) :
    extractVerdict (s ++ String.ofList (finishText (.dict entries)) ++ after) =
        .ok (some (.dict entries)) ↔
      lastLine s.toList = [] ∨
        lastLine s.toList ∉ overlaps ∧ Carries after (.dict entries) := by
  obtain ⟨lines, ends, split⟩ := exists_lastLine s.toList
  have plain := lastLine_plain s.toList
  have within : lines <:+: s.toList := ⟨[], lastLine s.toList, by rw [List.nil_append, ← split]⟩
  have untagged' : ¬ verdictTag.toList <:+: lastLine s.toList := fun tagged =>
    untagged (tagged.trans ⟨lines, [], by rw [List.append_nil, ← split]⟩)
  have apart : ∀ c ∈ (lastLine s.toList ++ (finishText (.dict entries) ++ after.toList)).head?, c ≠ '\n' := by
    intro c head
    rintro rfl
    cases open_ : lastLine s.toList with
    | nil =>
      rw [open_] at head
      cases head
    | cons d line =>
      rw [open_, List.cons_append, List.head?_cons, Option.mem_def, Option.some.injEq] at head
      exact absurd (plain d (by simp [open_])) (by rw [head]; decide)
  have text : verdictText (s ++ String.ofList (finishText (.dict entries)) ++ after) =
      verdictText (String.ofList (lastLine s.toList ++ (finishText (.dict entries) ++ after.toList))) := by
    rw [← verdictText_append (fun tagged => untagged (tagged.trans within)) (splitlines_append ends apart)]
    congr 1
    rw [← String.toList_inj]
    simp only [String.toList_append, String.toList_ofList, List.append_assoc]
    rw [← List.append_assoc lines, ← split]
  have tagged := tagged_line_iff (r := dumps (.dict entries)) untagged'
  rw [extractVerdict_eq_some, Carries, text, verdictText_line plain, String.ofList_toList]
  by_cases ended : lastLine s.toList = []
  · rw [if_pos (tagged.mpr (.inl ended)), ended, List.nil_append, List.drop_left]
    exact iff_of_true ⟨_, rfl, loads_dumps_keyed keyed⟩ (.inl rfl)
  · by_cases overlap : lastLine s.toList ∈ overlaps
    · rw [if_pos (tagged.mpr (.inr overlap))]
      refine iff_of_false ?_ (by simp [ended, overlap])
      rintro ⟨held, same, read⟩
      cases same
      exact loads_overlap overlap _ read
    · rw [if_neg fun line => (tagged.mp line).elim ended overlap]
      simp [ended, overlap, Carries]

end

section Sample
attribute [local instance] fractionRepr fractionReader jsonLoads

def unsupported : List (String × Json) := [("supported", .bool false)]

theorem extractVerdict_roundtrip_line :
    ¬ verdictTag.toList <:+: "cpu is flat\n".toList ∧ (Json.dict unsupported).keyed = true ∧
      extractVerdict ("cpu is flat\n" ++ String.ofList (finishText (.dict unsupported)) ++ "done\n") =
        .ok (some (.dict unsupported)) :=
  ⟨by decide, by decide,
    (extractVerdict_roundtrip_iff (by decide) (by decide)).mpr (.inl (by decide))⟩

/-- Where the code has left its line open, the verdict is lost. -/
theorem open_line_loses_verdict : ¬ ∀ (s after : String) (entries : List (String × Json)),
    ¬ verdictTag.toList <:+: s.toList → (Json.dict entries).keyed = true →
      extractVerdict (s ++ String.ofList (finishText (.dict entries)) ++ after) =
        .ok (some (.dict entries)) := by
  intro readBack
  have found := readBack "cpu is flat" "" unsupported (by decide) (by decide)
  have lost : verdictText ("cpu is flat" ++ String.ofList (finishText (.dict unsupported)) ++ "") = none := by
    decide +kernel
  rw [extractVerdict, lost] at found
  cases found

end Sample

end Sentinel.Oss
