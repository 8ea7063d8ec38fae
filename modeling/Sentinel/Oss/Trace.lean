import Sentinel.Python.DeepMerge
import Sentinel.Python.RecordLog
import Sentinel.Transition.Mutex

/-! The trace of a run: the threads of a run log their calls to one file, a record a line,
under a lock. Anyone may read the file at any moment, in the middle of a write as well. -/
namespace Sentinel.Oss
open Python Transition

structure TraceContext where
  runId : String
  agentId : String
  parentId : Option String := none

def TraceContext.child (ctx : TraceContext) (agentId : String) : TraceContext :=
  ⟨ctx.runId, agentId, some ctx.agentId⟩

/-- The arguments of `log`. -/
structure LogCall where
  ctx : TraceContext
  kind : String
  data : List (String × Json)
  keyed : ∀ entry ∈ data, entry.2.keyed = true

namespace LogCall

def manager (ctx : TraceContext) (data : List (String × Json))
    (keyed : ∀ entry ∈ data, entry.2.keyed = true) : LogCall := ⟨ctx, "manager", data, keyed⟩

def worker (ctx : TraceContext) (data : List (String × Json))
    (keyed : ∀ entry ∈ data, entry.2.keyed = true) : LogCall := ⟨ctx, "worker", data, keyed⟩

def codeIter (ctx : TraceContext) (i : ℤ) (code stdout : String) (traceback : Option String)
    (reasoning : String) : LogCall where
  ctx
  kind := "code_iter"
  data := [("i", .int i), ("code", .str code), ("stdout", .str stdout),
    ("traceback", traceback.elim .null .str), ("reasoning", .str reasoning)]
  keyed := by
    cases traceback <;> simp [Json.keyed]

/-- What `{"seq": …, **data}` holds. -/
def entries (c : LogCall) (seq : ℕ) : List (String × Json) :=
  c.data.foldl (fun entries entry => assign entry.1 entry.2 entries)
    [("seq", .int seq), ("run_id", .str c.ctx.runId), ("agent_id", .str c.ctx.agentId),
      ("parent_id", c.ctx.parentId.elim .null .str), ("kind", .str c.kind)]

def record (c : LogCall) (seq : ℕ) : Json := .dict (c.entries seq)

end LogCall

/-- The counter and the file. -/
structure TraceState where
  seq : ℕ
  text : List Char

/-- How far a call of `log` has come under the lock. -/
inductive LogPc where
  | entered (c : LogCall)
  | counted (c : LogCall)
  | writing (rest : List Char)

section
variable [FloatRepr]

/-- The counter, then the record, then its line, as little at a time as can be. -/
def logWork (s : TraceState) : LogPc → Option (TraceState × LogPc)
  | .entered c => some ({ s with seq := s.seq + 1 }, .counted c)
  | .counted c => some (s, .writing (recordLine (c.record s.seq)))
  | .writing (c :: rest) => some ({ s with text := s.text ++ [c] }, .writing rest)
  | .writing [] => none

def logBody : Body TraceState LogPc LogCall := ⟨.entered, logWork⟩

/-- The records of calls that took the lock in this order. -/
def numbered (calls : List LogCall) : List Json := calls.mapIdx fun i c => c.record (i + 1)

end

/-- `load_tree`; where there is no file yet there is no text. -/
def loadTree [FloatRepr] [FloatReader] (text : List Char) : Py (List Json) := readRecords text

theorem record_record (c : LogCall) (seq : ℕ) : Record (c.record seq) := by
  have fold : ∀ data : List (String × Json), (∀ entry ∈ data, entry.2.keyed = true) →
      ∀ entries, (Json.dict entries).keyed = true → entries ≠ [] →
        (Json.dict (data.foldl (fun entries entry => assign entry.1 entry.2 entries) entries)).keyed = true ∧
          data.foldl (fun entries entry => assign entry.1 entry.2 entries) entries ≠ [] := by
    intro data
    induction data with
    | nil => exact fun _ _ keyed filled => ⟨keyed, filled⟩
    | cons entry rest ih =>
      intro each entries keyed filled
      rw [List.forall_mem_cons] at each
      refine ih each.2 _ (keyed_assign keyed entry.1 each.1) ?_
      cases entries with
      | nil => exact absurd rfl filled
      | cons head tail =>
        change assign entry.1 entry.2 (head :: tail) ≠ []
        rw [assign]
        split_ifs <;> exact List.cons_ne_nil _ _
  have start : (Json.dict [("seq", .int seq), ("run_id", .str c.ctx.runId),
      ("agent_id", .str c.ctx.agentId), ("parent_id", c.ctx.parentId.elim .null .str),
      ("kind", .str c.kind)]).keyed = true := by
    cases c.ctx.parentId <;> simp [Json.keyed, entriesKeyed]
  obtain ⟨keyed, filled⟩ := fold c.data c.keyed _ start (List.cons_ne_nil _ _)
  obtain ⟨entry, entries, same⟩ := List.exists_cons_of_ne_nil filled
  exact ⟨⟨entry, entries, congrArg Json.dict same⟩, keyed⟩

theorem numbered_concat (calls : List LogCall) (c : LogCall) :
    numbered (calls ++ [c]) = numbered calls ++ [c.record (calls.length + 1)] := by
  rw [numbered, List.mapIdx_append, numbered, List.mapIdx_cons, List.mapIdx_nil, Nat.zero_add]

theorem record_numbered {calls : List LogCall} {v : Json} (member : v ∈ numbered calls) : Record v := by
  obtain ⟨i, inside, rfl⟩ := List.mem_mapIdx.mp member
  exact record_record _ _

section
variable [FloatRepr]

/-- What a call has done so far. -/
inductive Logged (s : TraceState) (c : LogCall) : TraceState → LogPc → Prop where
  | entered : Logged s c s (.entered c)
  | counted : Logged s c ⟨s.seq + 1, s.text⟩ (.counted c)
  | writing (earlier later) : recordLine (c.record (s.seq + 1)) = earlier ++ later →
      Logged s c ⟨s.seq + 1, s.text ++ earlier⟩ (.writing later)

theorem logged_works {s t : TraceState} {c : LogCall} {pc : LogPc}
    (works : logBody.Works s (.entered c) t pc) : Logged s c t pc := by
  induction works with
  | refl => exact .entered
  | step before worked ih =>
    cases ih with
    | entered =>
      cases worked
      exact .counted
    | counted =>
      cases worked
      have line := Logged.writing (s := s) (c := c) [] _ rfl
      rw [List.append_nil] at line
      exact line
    | writing earlier later split =>
      cases later with
      | nil => cases worked
      | cons d later =>
        cases worked
        have more := Logged.writing (s := s) (earlier ++ [d]) later (by rw [split]; simp)
        rw [← List.append_assoc] at more
        exact more

theorem serial_log {calls : List LogCall} {s : TraceState}
    (serial : logBody.Serial ⟨0, []⟩ calls s) :
    s = ⟨calls.length, logText (numbered calls)⟩ := by
  induction serial with
  | nil => rfl
  | @call cs before c t pc serial works ended ih =>
    subst ih
    cases logged_works works with
    | entered => cases ended
    | counted => cases ended
    | writing earlier later split =>
      cases later with
      | cons _ _ => cases ended
      | nil =>
        rw [List.append_nil] at split
        rw [numbered_concat, logText_append, List.length_append, ← split]
        simp [logText]

/-- What a call has written so far is the head of its line. -/
theorem Logged.text {s t : TraceState} {c : LogCall} {pc : LogPc} (logged : Logged s c t pc) :
    ∃ n, t.text = s.text ++ (recordLine (c.record (s.seq + 1))).take n := by
  cases logged with
  | entered => exact ⟨0, (List.append_nil _).symm⟩
  | counted => exact ⟨0, (List.append_nil _).symm⟩
  | writing earlier later split => exact ⟨earlier.length, by rw [split, List.take_left]⟩

variable [FloatReader]

/-- Whatever the threads log and however they are interleaved, the file read at any moment
gives the records of the calls in the order they took the lock, numbered from one, or fails
on a line that is being written; no record is lost, torn, doubled or out of its thread's
order, and all of them are there whenever no thread holds the lock. -/
theorem trace_serialized {ι : Type} [DecidableEq ι] {programs : ι → List LogCall}
    {labels : List (LockStep ι)} {s : Mutex TraceState LogPc LogCall ι}
    (run : Run (fun s label t => s.next logBody label = some t) (Mutex.start ⟨0, []⟩ programs)
      labels s) :
    (∀ i, (s.entered.filter fun call => call.1 = i).map Prod.snd ++ s.todo i = programs i) ∧
    (s.holder = none → loadTree s.shared.text = .ok (numbered (s.entered.map Prod.snd))) ∧
    (¬ Returns (loadTree s.shared.text) ∨ ∃ k, s.entered.length ≤ k + 1 ∧
      loadTree s.shared.text = .ok ((numbered (s.entered.map Prod.snd)).take k)) := by
  have inv := Mutex.serialized_run run
  refine ⟨inv.order, ?_, ?_⟩
  · intro free
    rw [loadTree, serial_log (inv.free free).2]
    exact readRecords_logText fun v member => record_numbered member
  · cases holds : s.holder with
    | none =>
      obtain ⟨-, serial⟩ := inv.free holds
      refine .inr ⟨s.entered.length, Nat.le_succ _, ?_⟩
      rw [loadTree, serial_log serial, readRecords_logText fun v member => record_numbered member,
        List.take_of_length_le (by simp [numbered])]
    | some i =>
      obtain ⟨earlier, c, before, pc, split, serial, -, works, -⟩ := inv.held i holds
      have ended := serial_log serial
      obtain ⟨n, text⟩ := (logged_works works).text
      have whole : logText (numbered (s.entered.map Prod.snd)) =
          before.text ++ recordLine (c.record (before.seq + 1)) := by
        rw [split, List.map_append, List.map_singleton, numbered_concat, logText_append, ended]
        simp [logText]
      have cut : s.shared.text =
          (logText (numbered (s.entered.map Prod.snd))).take (before.text.length + n) := by
        rw [whole, List.take_length_add_append, text]
      have records : ∀ v ∈ numbered (s.entered.map Prod.snd), Record v := fun v => record_numbered
      rcases readRecords_take records (before.text.length + n) with torn | ⟨k, read, kept⟩
      · left
        rw [loadTree, cut]
        exact torn
      · right
        refine ⟨k, ?_, by rw [loadTree, cut, read]⟩
        have first : (numbered (s.entered.map Prod.snd)).take earlier.length =
            numbered (earlier.map Prod.snd) := by
          rw [split, List.map_append, List.map_singleton, numbered_concat, List.take_left']
          simp [numbered]
        have within := kept earlier.length (by simp [numbered, split]) (by
          rw [first, ended]
          exact Nat.le_add_right _ _)
        rw [split, List.length_append, List.length_singleton]
        exact Nat.succ_le_succ within

end

/-- A worker's first iteration. -/
def firstIteration : LogCall := .codeIter ⟨"r1", "w1", some "manager"⟩ 0 "print(1)" "1" none ""

/-- A plan of the manager. -/
def planned : LogCall := .manager ⟨"r1", "manager", none⟩ [("step", .str "plan")] (by simp [Json.keyed])

section Sample
attribute [local instance] fractionRepr fractionReader

/-- The manager has logged, and a worker is in the middle of its line. -/
theorem trace_in_write : ∃ s : Mutex TraceState LogPc LogCall Bool,
    s.holder = some true ∧ s.entered.length = 2 ∧
      (¬ Returns (loadTree s.shared.text) ∨ ∃ k, s.entered.length ≤ k + 1 ∧
        loadTree s.shared.text = .ok ((numbered (s.entered.map Prod.snd)).take k)) := by
  obtain ⟨s, run, reached⟩ := exists_run
    (fun _ _ _ => trivial : ∀ _ _, true = true → True)
    (by decide +kernel : (play (fun s label => s.next logBody label) (fun _ _ => true)
      ([.acquire false] ++ List.replicate (2 + (recordLine (planned.record 1)).length) (.work false) ++
        [.release false, .acquire true] ++ List.replicate 5 (.work true))
      (Mutex.start ⟨0, []⟩ fun first => if first then [firstIteration] else [planned])).any (fun s =>
        s.holder == some true && s.entered.length == 2) = true)
  rw [Bool.and_eq_true, beq_iff_eq, beq_iff_eq] at reached
  exact ⟨s, reached.1, reached.2, (trace_serialized run.unguarded).2.2⟩

end Sample

end Sentinel.Oss
