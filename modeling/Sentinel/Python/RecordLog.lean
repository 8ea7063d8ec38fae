import Sentinel.Python.JsonLines
import Sentinel.Python.JsonPrefix
import Sentinel.Python.JsonRoundtrip

/-! A log of records, each the dump of an object on a line of its own. It reads back as the
records, and cut anywhere it reads as the first of them or does not read at all. -/
namespace Python

/-- An object that is not empty, in which no key is given twice. -/
structure Record (v : Json) : Prop where
  filled : ∃ entry entries, v = .dict (entry :: entries)
  keyed : v.keyed = true

section
variable [FloatRepr]

/-- The line that is appended for a record. -/
def recordLine (v : Json) : List Char := dumps v ++ ['\n']

def logText (records : List Json) : List Char := records.flatMap recordLine

theorem logText_append (earlier later : List Json) :
    logText (earlier ++ later) = logText earlier ++ logText later := List.flatMap_append

theorem dumps_plain (v : Json) : ∀ c ∈ dumps v, isLineBreak c = false := fun c member =>
  printable_not_break (printable_dumps v c member)

theorem dumps_dict_opens (entries : List (String × Json)) :
    ∃ rest, dumps (.dict entries) = '{' :: (rest ++ ['}']) := by
  have closes : ∀ entries : List (String × Json), ∃ rest, dumpsEntries entries = rest ++ ['}'] := by
    intro entries
    induction entries with
    | nil => exact ⟨[], rfl⟩
    | cons entry entries ih =>
      obtain ⟨rest, same⟩ := ih
      refine ⟨',' :: ' ' :: (quote entry.1 ++ ':' :: ' ' :: (dumps entry.2 ++ rest)), ?_⟩
      rw [dumpsEntries, same]
      simp
  cases entries with
  | nil => exact ⟨[], by rw [dumps]; rfl⟩
  | cons entry entries =>
    obtain ⟨rest, same⟩ := closes entries
    refine ⟨quote entry.1 ++ ':' :: ' ' :: (dumps entry.2 ++ rest), ?_⟩
    rw [dumps, same]
    simp

variable [FloatReader]

/-- The records of the lines that are not blank; the newlines of the file make no other
lines. -/
def readRecords (text : List Char) : Py (List Json) :=
  ((splitlines text).filter fun line => strip line ≠ []).mapM loads

/-- A record at the head of a log is read off it. -/
theorem readRecords_line {v : Json} (record : Record v) (text : List Char) :
    readRecords (recordLine v ++ text) = (readRecords text).map fun records => v :: records := by
  obtain ⟨⟨entry, entries, rfl⟩, keyed⟩ := record
  obtain ⟨rest, opens⟩ := dumps_dict_opens (entry :: entries)
  have visible : strip (dumps (.dict (entry :: entries))) ≠ [] := by
    rw [opens]
    exact strip_ne_nil (by decide)
  rw [readRecords, recordLine, List.append_assoc, List.singleton_append, splitlines_line (dumps_plain _),
    List.filter_cons_of_pos (by simpa using visible), List.mapM_cons, loads_dumps_keyed keyed]
  change (readRecords text >>= fun records => pure (_ :: records)) = _
  cases readRecords text <;> rfl

/-- A log reads back as its records. -/
theorem readRecords_logText {records : List Json} (each : ∀ v ∈ records, Record v) :
    readRecords (logText records) = .ok records := by
  induction records with
  | nil => rfl
  | cons v records ih =>
    rw [List.forall_mem_cons] at each
    rw [logText, List.flatMap_cons, readRecords_line each.1]
    change Except.map _ (readRecords (logText records)) = _
    rw [ih each.2]
    rfl

/-! ### A log that is cut -/

theorem objectText_dumps {entries : List (String × Json)} (keyed : (Json.dict entries).keyed = true) :
    ObjectText (dumps (.dict entries)) entries := by
  obtain ⟨rest, opens⟩ := dumps_dict_opens entries
  have reads := loads_dumps_keyed keyed
  rw [opens] at reads ⊢
  exact ObjectText.of_loads reads

/-- A text that opens an object is read as one. -/
theorem dict_of_loads {rest : List Char} {v : Json} (reads : loads ('{' :: rest) = .ok v) :
    ∃ entries, v = .dict entries := by
  obtain ⟨⟨w, after⟩, scanned, returned⟩ := bind_ok_iff.mp reads
  have shown : skipSpace ('{' :: rest) = '{' :: rest := skipSpace_of_head (by simp [isJsonSpace])
  rw [shown, scanOnce] at scanned
  dsimp only at returned
  split_ifs at returned
  cases returned
  split at scanned
  · cases scanned
    exact ⟨[], rfl⟩
  · obtain ⟨⟨pairs, more⟩, -, last⟩ := bind_ok_iff.mp scanned
    cases last
    exact ⟨_, rfl⟩

/-- No part of an object's dump is read. -/
theorem not_returns_torn {entries : List (String × Json)} (keyed : (Json.dict entries).keyed = true)
    {torn rest : List Char} (split : dumps (.dict entries) = torn ++ rest) (started : torn ≠ [])
    (cut : rest ≠ []) : ¬ Returns (loads torn) := by
  rintro ⟨v, reads⟩
  obtain ⟨inner, opens⟩ := dumps_dict_opens entries
  obtain ⟨c, more, rfl⟩ := List.exists_cons_of_ne_nil started
  have brace : c = '{' := by
    rw [opens, List.cons_append] at split
    exact (List.cons.inj split).1.symm
  subst brace
  obtain ⟨entries', rfl⟩ := dict_of_loads reads
  obtain ⟨before, object, after, text, spacesBefore, spacesAfter, isObject⟩ := loads_dict_iff.mp reads
  have start : before = [] := by
    cases before with
    | nil => rfl
    | cons d before =>
      have same : '{' = d := (List.cons.inj text).1
      have space := spacesBefore d List.mem_cons_self
      rw [← same] at space
      exact absurd space (by decide)
  have whole : dumps (.dict entries) = object ++ (after ++ rest) := by
    rw [split, text, start, List.nil_append, List.append_assoc]
  have ends := ObjectText.not_prefix (whole ▸ objectText_dumps keyed) isObject
  exact cut (List.append_eq_nil_iff.mp ends).2

/-- What is read of a line that is not ended. -/
theorem readRecords_unended {v : Json} (record : Record v) (n : ℕ) (within : n ≤ (dumps v).length) :
    ¬ Returns (readRecords ((dumps v).take n)) ∨
      readRecords ((dumps v).take n) = .ok (if n = 0 then [] else [v]) := by
  obtain ⟨⟨entry, entries, rfl⟩, keyed⟩ := record
  obtain ⟨inner, opens⟩ := dumps_dict_opens (entry :: entries)
  rcases Nat.eq_zero_or_pos n with rfl | positive
  · exact .inr rfl
  obtain ⟨m, rfl⟩ := Nat.exists_eq_add_of_le' positive
  have started : (dumps (.dict (entry :: entries))).take (m + 1) ≠ [] := by
    rw [opens, List.take_succ_cons]
    exact List.cons_ne_nil _ _
  have visible : strip ((dumps (.dict (entry :: entries))).take (m + 1)) ≠ [] := by
    rw [opens, List.take_succ_cons]
    exact strip_ne_nil (by decide)
  have line : readRecords ((dumps (.dict (entry :: entries))).take (m + 1)) =
      (loads ((dumps (.dict (entry :: entries))).take (m + 1))).map fun v => [v] := by
    rw [readRecords, splitlines_plain (fun c member => dumps_plain _ c (List.mem_of_mem_take member)) started,
      List.filter_cons_of_pos (by simpa using visible), List.filter_nil, List.mapM_cons, List.mapM_nil]
    cases loads ((dumps (.dict (entry :: entries))).take (m + 1)) <;> rfl
  rcases within.eq_or_lt with whole | cut
  · rw [line, whole, List.take_length, loads_dumps_keyed keyed, ← whole]
    exact .inr rfl
  · refine .inl ?_
    rintro ⟨records, returned⟩
    have parts : dumps (.dict (entry :: entries)) = (dumps (.dict (entry :: entries))).take (m + 1) ++
        (dumps (.dict (entry :: entries))).drop (m + 1) := (List.take_append_drop _ _).symm
    refine not_returns_torn keyed parts started ?_ ?_
    · exact fun none => absurd (List.drop_eq_nil_iff.mp none) (not_le.mpr cut)
    · rw [line] at returned
      cases read : loads ((dumps (.dict (entry :: entries))).take (m + 1)) with
      | ok v => exact returns_ok v
      | error e =>
        rw [read] at returned
        cases returned

/-- A log that is cut reads as its first records, each that was written whole among them,
or does not read. -/
theorem readRecords_take {records : List Json} (each : ∀ v ∈ records, Record v) (n : ℕ) :
    ¬ Returns (readRecords ((logText records).take n)) ∨
      ∃ k, readRecords ((logText records).take n) = .ok (records.take k) ∧
        ∀ j ≤ records.length, (logText (records.take j)).length ≤ n → j ≤ k := by
  induction records generalizing n with
  | nil =>
    refine .inr ⟨0, ?_, fun j within _ => within⟩
    rw [logText, List.flatMap_nil, List.take_nil]
    rfl
  | cons v records ih =>
    rw [List.forall_mem_cons] at each
    have length : (recordLine v).length = (dumps v).length + 1 := by simp [recordLine]
    have split : logText (v :: records) = recordLine v ++ logText records := List.flatMap_cons
    have taken (j : ℕ) : (logText ((v :: records).take (j + 1))).length =
        (recordLine v).length + (logText (records.take j)).length := by
      rw [List.take_succ_cons, logText, List.flatMap_cons, List.length_append]
      rfl
    by_cases ended : (recordLine v).length ≤ n
    · -- the first line is whole
      obtain ⟨m, rfl⟩ := Nat.exists_eq_add_of_le ended
      rw [split, List.take_length_add_append, readRecords_line each.1]
      rcases ih each.2 m with unread | ⟨k, reads, whole⟩
      · refine .inl ?_
        rintro ⟨_, returned⟩
        cases read : readRecords ((logText records).take m) with
        | ok vs => exact unread ⟨vs, read⟩
        | error e =>
          rw [read] at returned
          cases returned
      · refine .inr ⟨k + 1, by rw [reads]; rfl, fun j within fits => ?_⟩
        cases j with
        | zero => exact Nat.zero_le _
        | succ j =>
          rw [taken] at fits
          exact Nat.succ_le_succ (whole j (Nat.le_of_succ_le_succ within) (by omega))
    · -- it is not ended
      have within : n ≤ (dumps v).length := by omega
      have cut : (logText (v :: records)).take n = (dumps v).take n := by
        rw [split, recordLine, List.append_assoc, List.take_append_of_le_length within]
      rw [cut]
      refine (readRecords_unended each.1 n within).imp_right fun reads => ?_
      have none : ∀ j ≤ (v :: records).length, (logText ((v :: records).take j)).length ≤ n → j = 0 := by
        intro j _ fits
        cases j with
        | zero => rfl
        | succ j =>
          rw [taken] at fits
          omega
      rcases Nat.eq_zero_or_pos n with rfl | positive
      · exact ⟨0, reads, fun j within fits => (none j within fits).le⟩
      · rw [if_neg positive.ne'] at reads
        exact ⟨1, reads, fun j within fits => (none j within fits).trans_le (Nat.zero_le 1)⟩

end

end Python
