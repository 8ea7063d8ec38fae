import Sentinel.Oss.Worker
import Sentinel.Python.JsonPrefix
import Sentinel.Python.Substring

/-! JSON answers of a model: the object is cut out of a code fence or of prose, read and
checked against a schema, and asked for again where that fails. The conversation only
reaches the model, whose replies are the input here. -/
namespace Sentinel.Oss
open Python

def fence : List Char := ['`', '`', '`']

def jsonTag : List Char := ['j', 's', 'o', 'n']

/-- `text.split("```", 2)[1]`, of a text that starts with a fence. -/
def betweenFences (text : List Char) : List Char :=
  let rest := text.drop fence.length
  match find fence rest with
  | some n => rest.take n
  | none => rest

def dropTag (text : List Char) : List Char :=
  let shown := text.dropWhile isSpace
  if jsonTag <+: shown then shown.drop 4 else text

/-- From the first opening brace to the last closing one. -/
def sliceBraces (text : List Char) : List Char :=
  match find ['{'] text, rfind ['}'] text with
  | some start, some stop => if start < stop then (text.take (stop + 1)).drop start else text
  | _, _ => text

/-- `_extract_json`. -/
def extractJson (text : List Char) : List Char :=
  let text := strip text
  sliceBraces (if fence <+: text then dropTag (betweenFences text) else text)

structure Reply where
  content : Option String := none
  reasoning : String := ""
  usage : Usage := {}

/-- `msg.content or ""`. -/
def Reply.text (reply : Reply) : List Char := (reply.content.getD "").toList

section
variable [FloatRepr] [FloatReader] {M : Type}

/-- The instance that an answer stands for, or what is wrong with it. -/
def attempt (validate : Json → Except String M) (text : List Char) : Py (Except String M) :=
  match loads (extractJson text) with
  | .ok v => .ok (validate v)
  | .error e => if isDecodeError e then .ok (.error e.message) else .error e

/-- The attempts that are left, after `i` of them. -/
def structuredFrom (validate : Json → Except String M) (replies : ℕ → Py Reply) :
    ℕ → ℕ → Usage → String → Py (M × Usage × String)
  | 0, _, _, lastErr => .error ⟨"RuntimeError", "structured output failed after retries: " ++ lastErr, false⟩
  | left + 1, i, usage, _ => do
    let reply ← replies i
    let usage := usage.add reply.usage
    match ← attempt validate reply.text with
    | .ok m => .ok (m, usage, reply.reasoning)
    | .error err => structuredFrom validate replies left (i + 1) usage err

def structured (validate : Json → Except String M) (replies : ℕ → Py Reply) (retries : ℕ) :
    Py (M × Usage × String) :=
  structuredFrom validate replies (retries + 1) 0 {} "None"

end

/-! ### Wrappings -/

/-- How a model puts a JSON text: as it is, in a fence with blanks around, or in prose. -/
inductive Wrapping where
  | asIs
  | fenced (tagged : Bool) (outer inner inner' outer' : List Char)
  | prose (before after : List Char)

def Wrapping.tag (tagged : Bool) : List Char := if tagged then jsonTag else []

def Wrapping.wrap (t : List Char) : Wrapping → List Char
  | asIs => t
  | fenced tagged outer inner inner' outer' =>
    outer ++ fence ++ (tag tagged ++ inner ++ t ++ inner') ++ fence ++ outer'
  | prose before after => before ++ t ++ after

def Blank (text : List Char) : Prop := ∀ c ∈ text, isSpace c = true

/-- A fence stands among blanks, and prose has no braces and no fence. -/
def Wrapping.Proper : Wrapping → Prop
  | asIs => True
  | fenced _ outer inner inner' outer' => Blank outer ∧ Blank inner ∧ Blank inner' ∧ Blank outer'
  | prose before after =>
    (∀ c ∈ before ++ after, c ≠ '{' ∧ c ≠ '}') ∧ ¬ fence <:+: before ∧ ¬ fence <:+: after

def Wrapping.IsFenced : Wrapping → Prop
  | fenced .. => True
  | _ => False

/-! ### Braces -/

theorem isSpace_of_isJsonSpace {c : Char} (space : isJsonSpace c = true) : isSpace c = true := by
  simp only [isJsonSpace, Bool.or_eq_true, beq_iff_eq, or_assoc] at space
  rcases space with rfl | rfl | rfl | rfl <;> decide

theorem not_mem_of_blank {text : List Char} {c : Char} (blank : Blank text) (shown : isSpace c = false) :
    c ∉ text := by
  intro member
  rw [blank c member] at shown
  cases shown

/-- Around an object without further braces, the slice is the object. -/
theorem sliceBraces_object {before after inner : List Char} (opens : '{' ∉ before)
    (closes : '}' ∉ after) :
    sliceBraces (before ++ ('{' :: (inner ++ ['}'])) ++ after) = '{' :: (inner ++ ['}']) := by
  have start : find ['{'] (before ++ ('{' :: (inner ++ ['}'])) ++ after) = some before.length := by
    have text : before ++ ('{' :: (inner ++ ['}'])) ++ after =
        before ++ '{' :: (inner ++ ['}'] ++ after) := by simp
    rw [text, find_first opens]
  have stop : rfind ['}'] (before ++ ('{' :: (inner ++ ['}'])) ++ after) =
      some (before ++ '{' :: inner).length := by
    have text : before ++ ('{' :: (inner ++ ['}'])) ++ after =
        (before ++ '{' :: inner) ++ '}' :: after := by simp
    rw [text, rfind_last closes]
  have order : before.length < (before ++ '{' :: inner).length := by simp
  have whole : (before ++ '{' :: inner).length + 1 = (before ++ ('{' :: (inner ++ ['}']))).length := by
    simp
    omega
  rw [sliceBraces, start, stop]
  simp only [if_pos order]
  rw [whole, List.take_left, List.drop_left]

/-- The slice of an object that is cut off is a shorter text, or has no closing brace. -/
theorem sliceBraces_cut {before : List Char} (opens : '{' ∉ before) (inner : List Char) :
    (∃ short rest, inner = short ++ '}' :: rest ∧
      sliceBraces (before ++ '{' :: inner) = '{' :: (short ++ ['}'])) ∨
    '}' ∉ inner ∧ (sliceBraces (before ++ '{' :: inner) = before ++ '{' :: inner ∨ '}' ∈ before) := by
  by_cases member : '}' ∈ inner
  · obtain ⟨rest, short, turned, absent⟩ := List.eq_append_cons_of_mem (List.mem_reverse.mpr member)
    have split : inner = short.reverse ++ '}' :: rest.reverse := by
      rw [← List.reverse_reverse inner, turned]
      simp
    refine .inl ⟨short.reverse, rest.reverse, split, ?_⟩
    have text : before ++ '{' :: inner = before ++ ('{' :: (short.reverse ++ ['}'])) ++ rest.reverse := by
      rw [split]
      simp
    rw [text, sliceBraces_object opens (by simpa using absent)]
  · refine .inr ⟨member, ?_⟩
    by_cases early : '}' ∈ before
    · exact .inr early
    · have none : rfind ['}'] (before ++ '{' :: inner) = none := rfind_absent (by simp [member, early])
      refine .inl ?_
      rw [sliceBraces, none]
      cases find ['{'] (before ++ '{' :: inner) <;> rfl

/-! ### Extraction -/

/-- An object in prose without braces or a fence is cut out as it is. -/
theorem extractJson_prose {before after : List Char} (opens : '{' ∉ before) (closes : '}' ∉ after)
    (unfenced : ¬ fence <:+: before) (inner : List Char) :
    extractJson (before ++ ('{' :: (inner ++ ['}'])) ++ after) = '{' :: (inner ++ ['}']) := by
  have start : ¬ fence <+: before.dropWhile isSpace ++ ('{' :: (inner ++ ['}'])) ++
      (after.reverse.dropWhile isSpace).reverse := by
    rw [List.append_assoc]
    intro opened
    have early : fence <+: before.dropWhile isSpace := prefix_left opened (by simp [fence])
    exact unfenced (early.isInfix.trans (List.dropWhile_suffix isSpace).isInfix)
  have opens' : '{' ∉ before.dropWhile isSpace := fun member => opens ((List.dropWhile_subset _) member)
  have closes' : '}' ∉ (after.reverse.dropWhile isSpace).reverse := fun member =>
    closes (List.mem_reverse.mp ((List.dropWhile_subset _) (List.mem_reverse.mp member)))
  rw [extractJson, strip_around (by decide) (by decide), if_neg start, sliceBraces_object opens' closes']

theorem extractJson_fenced {outer outer' : List Char} (blank : Blank outer) (blank' : Blank outer')
    (body : List Char) :
    extractJson (outer ++ fence ++ body ++ fence ++ outer') =
      sliceBraces (dropTag (betweenFences (fence ++ (body ++ fence)))) := by
  have text : outer ++ fence ++ body ++ fence ++ outer' =
      outer ++ ('`' :: (['`', '`'] ++ body ++ ['`', '`'] ++ ['`'])) ++ outer' := by simp [fence]
  have inside : '`' :: (['`', '`'] ++ body ++ ['`', '`'] ++ ['`']) = fence ++ (body ++ fence) := by
    simp [fence]
  have blanks : ∀ c ∈ outer'.reverse, isSpace c = true := fun c member =>
    blank' c (List.mem_reverse.mp member)
  rw [extractJson, text, strip_around (by decide) (by decide), dropWhile_blank blank,
    dropWhile_blank blanks, inside]
  simp

theorem betweenFences_append (body : List Char) :
    betweenFences (fence ++ (body ++ fence)) =
      match find fence (body ++ fence) with
      | some n => (body ++ fence).take n
      | none => body ++ fence := by
  rw [betweenFences, List.drop_left]

/-- The tag of a fence is dropped, whether it is there or not. -/
theorem dropTag_tag (tagged : Bool) {blank rest : List Char} (spaces : Blank blank) :
    dropTag (Wrapping.tag tagged ++ (blank ++ '{' :: rest)) = blank ++ '{' :: rest := by
  cases tagged with
  | true =>
    have shown : (jsonTag ++ (blank ++ '{' :: rest)).dropWhile isSpace = jsonTag ++ (blank ++ '{' :: rest) :=
      List.dropWhile_cons_of_neg (by decide)
    rw [Wrapping.tag, if_pos rfl, dropTag, shown, if_pos (List.prefix_append _ _)]
    rfl
  | false =>
    have shown : (blank ++ '{' :: rest).dropWhile isSpace = '{' :: rest := by
      rw [List.dropWhile_append_of_pos spaces, List.dropWhile_cons_of_neg (by decide)]
    rw [Wrapping.tag, if_neg Bool.false_ne_true, List.nil_append, dropTag, shown,
      if_neg (by simp [jsonTag])]

theorem apart_of_not_mem {text : List Char} (absent : '`' ∉ text) : ∀ c ∈ text, c ∉ fence := by
  intro c member inside
  have tick : c = '`' := by simpa [fence] using inside
  exact absent (tick ▸ member)

theorem tag_apart (tagged : Bool) : ∀ c ∈ Wrapping.tag tagged, c ∉ fence := by
  cases tagged <;> exact apart_of_not_mem (by decide)

theorem blank_apart {text : List Char} (blank : Blank text) : ∀ c ∈ text, c ∉ fence :=
  apart_of_not_mem (not_mem_of_blank blank (by decide))

/-- In a fence of its own, an object without one inside is cut out as it is. -/
theorem extractJson_fenced_object {tagged : Bool} {outer before inner after outer' : List Char}
    (blankOuter : Blank outer) (blankBefore : Blank before) (blankAfter : Blank after)
    (blankOuter' : Blank outer') (unfenced : ¬ fence <:+: inner) :
    extractJson (outer ++ fence ++ (Wrapping.tag tagged ++ (before ++ ('{' :: (inner ++ ['}'])) ++ after)) ++
      fence ++ outer') = '{' :: (inner ++ ['}']) := by
  have text : Wrapping.tag tagged ++ (before ++ ('{' :: (inner ++ ['}'])) ++ after) =
      (Wrapping.tag tagged ++ before ++ ['{']) ++ (inner ++ '}' :: after) := by simp
  have absent : ¬ fence <:+: Wrapping.tag tagged ++ (before ++ ('{' :: (inner ++ ['}'])) ++ after) := by
    rw [text]
    intro inside
    have late := infix_right (by simp [fence]) (List.forall_mem_append.mpr
      ⟨List.forall_mem_append.mpr ⟨tag_apart tagged, blank_apart blankBefore⟩, by simp [fence]⟩) inside
    exact unfenced (infix_left (by simp [fence])
      (List.forall_mem_cons.mpr ⟨by simp [fence], blank_apart blankAfter⟩) late)
  have last : ∀ c ∈ (Wrapping.tag tagged ++ (before ++ ('{' :: (inner ++ ['}'])) ++ after)).getLast?,
      c ∉ fence := by
    have text' : Wrapping.tag tagged ++ (before ++ ('{' :: (inner ++ ['}'])) ++ after) =
        (Wrapping.tag tagged ++ before ++ '{' :: inner) ++ '}' :: after := by simp
    intro c ends
    rw [text', List.getLast?_append_cons] at ends
    rcases List.mem_cons.mp (List.mem_of_getLast? ends) with rfl | member
    · simp [fence]
    · exact blank_apart blankAfter c member
  rw [extractJson_fenced blankOuter blankOuter', betweenFences_append, find_append_self absent last]
  dsimp only
  rw [List.take_left]
  have text' : before ++ ('{' :: (inner ++ ['}'])) ++ after = before ++ '{' :: (inner ++ ['}'] ++ after) := by
    simp
  rw [text', dropTag_tag tagged blankBefore, ← text']
  exact sliceBraces_object (not_mem_of_blank blankBefore (by decide)) (not_mem_of_blank blankAfter (by decide))

/-- A fence inside of the object is taken for the closing one. -/
theorem extractJson_fenced_cut {outer before inner outer' : List Char} (blankOuter : Blank outer)
    (blankBefore : Blank before) (blankOuter' : Blank outer') (fenced : fence <:+: inner)
    (tagged : Bool) (after : List Char) :
    ∃ n, extractJson (outer ++ fence ++
      (Wrapping.tag tagged ++ (before ++ ('{' :: (inner ++ ['}'])) ++ after)) ++ fence ++ outer') =
        sliceBraces (before ++ '{' :: inner.take n) := by
  obtain ⟨n, found⟩ : ∃ n, find fence inner = some n := by
    refine Option.ne_none_iff_exists'.mp fun none => ?_
    exact find_eq_none.mp none fenced
  have short : n + 3 ≤ inner.length := (find_eq_some found).2
  refine ⟨n, ?_⟩
  have text : Wrapping.tag tagged ++ (before ++ ('{' :: (inner ++ ['}'])) ++ after) ++ fence =
      (Wrapping.tag tagged ++ before ++ ['{']) ++ (inner ++ ('}' :: after ++ fence)) := by simp
  have apart : ∀ c ∈ Wrapping.tag tagged ++ before ++ ['{'], c ∉ fence :=
    List.forall_mem_append.mpr
      ⟨List.forall_mem_append.mpr ⟨tag_apart tagged, blank_apart blankBefore⟩, by simp [fence]⟩
  have place : find fence ((Wrapping.tag tagged ++ before ++ ['{']) ++ (inner ++ ('}' :: after ++ fence))) =
      some ((Wrapping.tag tagged ++ before ++ ['{']).length + n) := by
    rw [find_append_apart (by simp [fence]) apart, find_append found]
    rfl
  have cut : (Wrapping.tag tagged ++ before ++ ['{']) ++ inner.take n =
      Wrapping.tag tagged ++ (before ++ '{' :: inner.take n) := by simp
  rw [extractJson_fenced blankOuter blankOuter', betweenFences_append, text, place]
  dsimp only
  rw [List.take_length_add_append, List.take_append_of_le_length (by omega), cut,
    dropTag_tag tagged blankBefore]

theorem fence_infix_iff {before inner after : List Char} (blankBefore : Blank before)
    (blankAfter : Blank after) :
    fence <:+: before ++ ('{' :: (inner ++ ['}'])) ++ after ↔ fence <:+: inner := by
  have text : before ++ ('{' :: (inner ++ ['}'])) ++ after = (before ++ ['{']) ++ (inner ++ '}' :: after) := by
    simp
  rw [text]
  constructor
  · intro fenced
    have late := infix_right (by simp [fence])
      (List.forall_mem_append.mpr ⟨blank_apart blankBefore, by simp [fence]⟩) fenced
    exact infix_left (by simp [fence])
      (List.forall_mem_cons.mpr ⟨by simp [fence], blank_apart blankAfter⟩) late
  · exact fun fenced => fenced.trans ⟨before ++ ['{'], '}' :: after, by simp⟩

/-! ### Acceptance -/

section
variable [FloatRepr] [FloatReader]

/-- The object is read, and `structured` takes it from the first reply that is not
malformed, if it matches the schema. -/
structure Recovered (answer : List Char) (o : List (String × Json)) : Prop where
  reads : loads (extractJson answer) = .ok (.dict o)
  accepted : ∀ {M : Type} (validate : Json → Except String M) (m : M), validate (.dict o) = .ok m →
    ∀ (replies : ℕ → Py Reply) (reply : Reply) (i retries : ℕ), i ≤ retries →
      (∀ j < i, ∃ earlier err, replies j = .ok earlier ∧ attempt validate earlier.text = .ok (.error err)) →
      replies i = .ok reply → reply.text = answer →
      ∃ usage, structured validate replies retries = .ok (m, usage, reply.reasoning)

theorem structuredFrom_accepts {M : Type} {validate : Json → Except String M} {replies : ℕ → Py Reply}
    {reply : Reply} {m : M} (accepted : attempt validate reply.text = .ok (.ok m)) {k left i : ℕ}
    (within : k < left) (answer : replies (i + k) = .ok reply)
    (malformed : ∀ j < k, ∃ earlier err, replies (i + j) = .ok earlier ∧
      attempt validate earlier.text = .ok (.error err)) (usage : Usage) (lastErr : String) :
    ∃ usage', structuredFrom validate replies left i usage lastErr = .ok (m, usage', reply.reasoning) := by
  induction k generalizing left i usage lastErr with
  | zero =>
    obtain ⟨left, rfl⟩ := Nat.exists_eq_add_of_le' within
    rw [Nat.add_zero] at answer
    refine ⟨usage.add reply.usage, ?_⟩
    simp only [Nat.succ_eq_add_one, Nat.zero_add]
    simp [structuredFrom, answer, accepted, bind, Except.bind]
  | succ k ih =>
    obtain ⟨left, rfl⟩ := Nat.exists_eq_add_of_le' (Nat.one_le_of_lt within)
    obtain ⟨earlier, err, first, bad⟩ := malformed 0 (Nat.succ_pos k)
    rw [Nat.add_zero] at first
    have later : ∀ j < k, ∃ earlier err, replies (i + 1 + j) = .ok earlier ∧
        attempt validate earlier.text = .ok (.error err) := by
      intro j below
      have next := malformed (j + 1) (by omega)
      rwa [show i + (j + 1) = i + 1 + j by omega] at next
    rw [show i + (k + 1) = i + 1 + k by omega] at answer
    have fewer : k < left := by omega
    obtain ⟨usage', rest⟩ := ih fewer answer later (usage.add earlier.usage) err
    refine ⟨usage', ?_⟩
    simp [structuredFrom, first, bad, bind, Except.bind, rest]

theorem recovered_of_reads {answer : List Char} {o : List (String × Json)}
    (reads : loads (extractJson answer) = .ok (.dict o)) : Recovered answer o where
  reads
  accepted validate m valid replies reply i retries within malformed arrives same := by
    have accepted : attempt validate reply.text = .ok (.ok m) := by rw [attempt, same, reads, ← valid]
    exact structuredFrom_accepts accepted (Nat.lt_succ_of_le within) (by rwa [Nat.zero_add])
      (by simpa using malformed) {} "None"

/-- An object that is cut off in a value is not read as an object. -/
theorem cut_not_read {before inner : List Char} {o o' : List (String × Json)} {n : ℕ}
    (blank : Blank before) (whole : ObjectText ('{' :: (inner ++ ['}'])) o) :
    loads (sliceBraces (before ++ '{' :: inner.take n)) ≠ .ok (.dict o') := by
  intro reads
  rcases sliceBraces_cut (not_mem_of_blank blank (by decide)) (inner.take n) with
    ⟨first, rest, split, slice⟩ | ⟨unclosed, slice⟩
  · rw [slice] at reads
    have text : '{' :: (inner ++ ['}']) = '{' :: (first ++ ['}']) ++ (rest ++ inner.drop n ++ ['}']) := by
      conv_lhs => rw [← List.take_append_drop n inner, split]
      simp
    rw [text] at whole
    have empty := whole.not_prefix (ObjectText.of_loads reads)
    simp at empty
  · have early : '}' ∉ before := not_mem_of_blank blank (by decide)
    rw [slice.resolve_right early] at reads
    obtain ⟨blanks, object, after, text, -, -, ⟨⟨body, rfl⟩, -⟩⟩ := loads_dict_iff.mp reads
    have closed : '}' ∈ before ++ '{' :: inner.take n := by rw [text]; simp
    simp [early, unclosed] at closed

/-- The text of an object with blanks around it. -/
structure Spaced (t before inner after : List Char) (o : List (String × Json)) : Prop where
  text : t = before ++ ('{' :: (inner ++ ['}'])) ++ after
  before : Blank before
  after : Blank after
  isObject : ObjectText ('{' :: (inner ++ ['}'])) o

theorem exists_spaced {t : List Char} {o : List (String × Json)} (reads : loads t = .ok (.dict o)) :
    ∃ before inner after, Spaced t before inner after o := by
  obtain ⟨before, object, after, text, spacesBefore, spacesAfter, isObject⟩ := loads_dict_iff.mp reads
  obtain ⟨inner, rfl⟩ := isObject.braces
  exact ⟨before, inner, after, text, fun c member => isSpace_of_isJsonSpace (spacesBefore c member),
    fun c member => isSpace_of_isJsonSpace (spacesAfter c member), isObject⟩

theorem recovered_prose {t first last : List Char} {o : List (String × Json)}
    (reads : loads t = .ok (.dict o)) (braces : ∀ c ∈ first ++ last, c ≠ '{' ∧ c ≠ '}')
    (unfenced : ¬ fence <:+: first) : Recovered (first ++ t ++ last) o := by
  obtain ⟨before, inner, after, rfl, blankBefore, blankAfter, isObject⟩ := exists_spaced reads
  have apart : ¬ fence <:+: first ++ before := fun fenced =>
    unfenced (infix_left (by simp [fence]) (blank_apart blankBefore) fenced)
  have opens : '{' ∉ first ++ before := by
    intro member
    rcases List.mem_append.mp member with member | member
    · exact (braces _ (List.mem_append_left _ member)).1 rfl
    · exact not_mem_of_blank blankBefore (by decide) member
  have closes : '}' ∉ after ++ last := by
    intro member
    rcases List.mem_append.mp member with member | member
    · exact not_mem_of_blank blankAfter (by decide) member
    · exact (braces _ (List.mem_append_right _ member)).2 rfl
  have text : first ++ (before ++ ('{' :: (inner ++ ['}'])) ++ after) ++ last =
      first ++ before ++ ('{' :: (inner ++ ['}'])) ++ (after ++ last) := by simp
  apply recovered_of_reads
  rw [text, extractJson_prose opens closes apart]
  exact isObject.loads_self

theorem recovered_fenced_iff {tagged : Bool} {t outer blank blank' outer' : List Char} {o : List (String × Json)}
    (reads : loads t = .ok (.dict o)) (proper : (Wrapping.fenced tagged outer blank blank' outer').Proper) :
    Recovered ((Wrapping.fenced tagged outer blank blank' outer').wrap t) o ↔ ¬ fence <:+: t := by
  obtain ⟨before, inner, after, rfl, blankBefore, blankAfter, isObject⟩ := exists_spaced reads
  obtain ⟨blankOuter, blankIn, blankIn', blankOuter'⟩ := proper
  have blankFirst : Blank (blank ++ before) := List.forall_mem_append.mpr ⟨blankIn, blankBefore⟩
  have blankLast : Blank (after ++ blank') := List.forall_mem_append.mpr ⟨blankAfter, blankIn'⟩
  have text : Wrapping.tag tagged ++ blank ++ (before ++ ('{' :: (inner ++ ['}'])) ++ after) ++ blank' =
      Wrapping.tag tagged ++ (blank ++ before ++ ('{' :: (inner ++ ['}'])) ++ (after ++ blank')) := by simp
  rw [Wrapping.wrap, text, fence_infix_iff blankBefore blankAfter]
  by_cases fenced : fence <:+: inner
  · obtain ⟨n, cut⟩ := extractJson_fenced_cut blankOuter blankFirst blankOuter' fenced tagged
      (after ++ blank')
    refine iff_of_false (fun recovered => ?_) (not_not.mpr fenced)
    have wrong := recovered.reads
    rw [cut] at wrong
    exact cut_not_read blankFirst isObject wrong
  · refine iff_of_true (recovered_of_reads ?_) fenced
    rw [extractJson_fenced_object blankOuter blankFirst blankLast blankOuter' fenced]
    exact isObject.loads_self

/-- An object is recovered from every wrapping but a fence around an object with three
backticks in it, which is cut off there. -/
theorem extractJson_recovers_iff {t : List Char} {o : List (String × Json)} {w : Wrapping}
    (reads : loads t = .ok (.dict o)) (proper : w.Proper) :
    Recovered (w.wrap t) o ↔ ¬ (w.IsFenced ∧ fence <:+: t) := by
  cases w with
  | asIs =>
    have alone : Recovered ([] ++ t ++ []) o := recovered_prose reads (by simp) (by simp [fence])
    rw [List.nil_append, List.append_nil] at alone
    exact iff_of_true alone (fun fenced => fenced.1)
  | prose first last =>
    exact iff_of_true (recovered_prose reads proper.1 proper.2.1) (fun fenced => fenced.1)
  | fenced tagged outer blank blank' outer' =>
    rw [Wrapping.IsFenced, true_and]
    exact recovered_fenced_iff reads proper

end

section Sample
attribute [local instance] fractionRepr fractionReader

/-- The JSON text of an object with one entry. -/
def sampleText (value : List Char) : List Char :=
  ['{', '"', 'a', '"', ':', ' ', '"'] ++ value ++ ['"', '}']

theorem extractJson_recovers_json :
    Recovered ((Wrapping.fenced true [] ['\n'] ['\n'] []).wrap (sampleText jsonTag)) [("a", .str "json")] := by
  have proper : (Wrapping.fenced true [] ['\n'] ['\n'] []).Proper := by
    simp [Wrapping.Proper, Blank, isSpace]
  exact (extractJson_recovers_iff rfl proper).mpr fun fenced => absurd fenced.2 (by decide)

/-- Three backticks in a value end the fence, and what is left has no closing brace. -/
theorem quoted_fence_not_recovered :
    loads (sampleText fence) = .ok (.dict [("a", .str "```")]) ∧
      ¬ Recovered ((Wrapping.fenced true [] ['\n'] ['\n'] []).wrap (sampleText fence)) [("a", .str "```")] := by
  refine ⟨rfl, fun recovered => ?_⟩
  have cut : loads (extractJson ((Wrapping.fenced true [] ['\n'] ['\n'] []).wrap (sampleText fence))) =
      .error (decodeError "Unterminated string starting at") := rfl
  have reads := recovered.reads
  rw [cut] at reads
  cases reads

end Sample

end Sentinel.Oss
