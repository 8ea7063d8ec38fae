import Mathlib.Logic.Function.Basic
import Sentinel.Transition.Run

/-! Calls that read a whole document, edit their copy and write it back, in any
interleaving. A write replaces the document by an edit of what its call has read, so the
document holds the edits of a chain of calls, each of which read what the one before it
wrote. -/
namespace Transition

/-- Where a call stands. -/
inductive Phase (D X : Type) where
  | ready
  | holding (document : D)
  | returned
  | raised (e : X)

/-- The call is over. -/
def Phase.Settled {D X : Type} : Phase D X → Prop
  | .returned | .raised _ => True
  | .ready | .holding _ => False

structure Shared (D X ι : Type) where
  document : D
  phase : ι → Phase D X

/-- `read i`: the request of call `i` that reads. `write i`: the call edits what it has
read and, unless the edit raises, writes it. -/
inductive Request (ι : Type) where
  | read (i : ι)
  | write (i : ι)
  deriving DecidableEq

section
variable {D X ι : Type} [DecidableEq ι]

namespace Shared

def start (document : D) : Shared D X ι := ⟨document, fun _ => .ready⟩

def next (edit : ι → D → Except X D) (s : Shared D X ι) : Request ι → Option (Shared D X ι)
  | .read i =>
    match s.phase i with
    | .ready => some { s with phase := Function.update s.phase i (.holding s.document) }
    | _ => none
  | .write i =>
    match s.phase i with
    | .holding document =>
      match edit i document with
      | .ok edited => some ⟨edited, Function.update s.phase i .returned⟩
      | .error e => some { s with phase := Function.update s.phase i (.raised e) }
    | _ => none

theorem next_read {edit : ι → D → Except X D} {s t : Shared D X ι} {i : ι}
    (taken : s.next edit (.read i) = some t) : s.phase i = .ready ∧
      t = { s with phase := Function.update s.phase i (.holding s.document) } := by
  simp only [next] at taken
  split at taken
  · rename_i ready
    exact ⟨ready, (Option.some.inj taken).symm⟩
  · cases taken

theorem next_write {edit : ι → D → Except X D} {s t : Shared D X ι} {i : ι}
    (taken : s.next edit (.write i) = some t) : ∃ copy, s.phase i = .holding copy ∧
      ((∃ edited, edit i copy = .ok edited ∧
          t = ⟨edited, Function.update s.phase i .returned⟩) ∨
        ∃ e, edit i copy = .error e ∧
          t = { s with phase := Function.update s.phase i (.raised e) }) := by
  simp only [next] at taken
  split at taken
  · rename_i copy holds
    refine ⟨copy, holds, ?_⟩
    split at taken
    · rename_i edited result
      exact .inl ⟨edited, result, (Option.some.inj taken).symm⟩
    · rename_i e result
      exact .inr ⟨e, result, (Option.some.inj taken).symm⟩
  · cases taken

/-- A call that is still ready has not been heard of. -/
theorem ready_before {edit : ι → D → Except X D} {s t : Shared D X ι} {request : Request ι} {i : ι}
    (taken : s.next edit request = some t) (ready : t.phase i = .ready) : s.phase i = .ready := by
  cases request with
  | read j =>
    obtain ⟨was, rfl⟩ := next_read taken
    by_cases same : i = j
    · exact same ▸ was
    · simpa only [Function.update_of_ne same] using ready
  | write j =>
    obtain ⟨copy, -, ⟨edited, -, rfl⟩ | ⟨e, -, rfl⟩⟩ := next_write taken
    all_goals
      by_cases same : i = j
      · subst same
        simp at ready
      · simpa only [Function.update_of_ne same] using ready

theorem settled_after {edit : ι → D → Except X D} {s t : Shared D X ι} {request : Request ι} {i : ι}
    (taken : s.next edit request = some t) (settled : (s.phase i).Settled) :
    (t.phase i).Settled := by
  cases request with
  | read j =>
    obtain ⟨ready, rfl⟩ := next_read taken
    by_cases same : i = j
    · subst same
      rw [ready] at settled
      cases settled
    · simpa only [Function.update_of_ne same] using settled
  | write j =>
    obtain ⟨copy, -, ⟨edited, -, rfl⟩ | ⟨e, -, rfl⟩⟩ := next_write taken
    all_goals
      by_cases same : i = j
      · subst same
        simp only [Function.update_self, Phase.Settled]
      · simpa only [Function.update_of_ne same] using settled

abbrev Runs (edit : ι → D → Except X D) : Shared D X ι → List (Request ι) → Shared D X ι → Prop :=
  Run fun s l t => s.next edit l = some t

end Shared

/-- The calls whose edits the document holds, and those that each call has read. -/
structure Versions (ι : Type) where
  current : List ι
  seen : ι → List ι

namespace Versions

def start : Versions ι := ⟨[], fun _ => []⟩

def next (v : Versions ι) : Request ι → Versions ι
  | .read i => { v with seen := Function.update v.seen i v.current }
  | .write i => { v with current := v.seen i ++ [i] }

end Versions

/-- The calls whose edits the document holds after the requests, the first one first. -/
def carried (requests : List (Request ι)) : List ι := (requests.foldl Versions.next .start).current

/-- Edits that succeed on good documents, and keep them good. -/
structure Edits (edit : ι → D → Except X D) (apply : ι → D → D) (Good : D → Prop) : Prop where
  succeeds : ∀ i d, Good d → edit i d = .ok (apply i d)
  keeps : ∀ i d, Good d → Good (apply i d)

variable {edit : ι → D → Except X D} {apply : ι → D → D} {Good : D → Prop}

omit [DecidableEq ι] in
theorem Edits.good_foldl (edits : Edits edit apply Good) {d : D} (good : Good d) (calls : List ι) :
    Good (calls.foldl (fun d i => apply i d) d) := by
  induction calls generalizing d with
  | nil => exact good
  | cons i rest ih => exact ih (edits.keeps i d good)

/-- The document is what the versions say, and so is what each call holds. -/
structure Tracks (apply : ι → D → D) (d : D) (v : Versions ι) (s : Shared D X ι) : Prop where
  document : s.document = v.current.foldl (fun d i => apply i d) d
  held : ∀ i copy, s.phase i = .holding copy → copy = (v.seen i).foldl (fun d i => apply i d) d
  whole : ∀ i e, s.phase i ≠ .raised e

theorem Tracks.next (edits : Edits edit apply Good) {d : D} (good : Good d) {v : Versions ι}
    {s t : Shared D X ι} {request : Request ι} (tracks : Tracks apply d v s)
    (taken : s.next edit request = some t) : Tracks apply d (v.next request) t := by
  cases request with
  | read i =>
    obtain ⟨-, rfl⟩ := Shared.next_read taken
    refine ⟨tracks.document, fun j copy holds => ?_, fun j e raised => ?_⟩
    · by_cases same : j = i
      · subst same
        simp only [Function.update_self, Phase.holding.injEq] at holds
        simp only [Versions.next, Function.update_self, ← holds, tracks.document]
      · simp only [Function.update_of_ne same] at holds
        simp only [Versions.next, Function.update_of_ne same]
        exact tracks.held j copy holds
    · by_cases same : j = i
      · subst same
        simp at raised
      · simp only [Function.update_of_ne same] at raised
        exact tracks.whole j e raised
  | write i =>
    obtain ⟨copy, holds, outcome⟩ := Shared.next_write taken
    have copied := tracks.held i copy holds
    have edited := edits.succeeds i copy (copied ▸ edits.good_foldl good (v.seen i))
    obtain ⟨written, result, rfl⟩ | ⟨e, result, rfl⟩ := outcome
    · obtain rfl := Except.ok.inj (edited.symm.trans result)
      refine ⟨?_, fun j other holding => ?_, fun j e raised => ?_⟩
      · simp only [Versions.next, List.foldl_append, List.foldl_cons, List.foldl_nil, ← copied]
      · by_cases same : j = i
        · subst same
          simp at holding
        · simp only [Function.update_of_ne same] at holding
          exact tracks.held j other holding
      · by_cases same : j = i
        · subst same
          simp at raised
        · simp only [Function.update_of_ne same] at raised
          exact tracks.whole j e raised
    · exact nomatch edited.symm.trans result

theorem Tracks.run (edits : Edits edit apply Good) {d : D} (good : Good d) {v : Versions ι}
    {s t : Shared D X ι} {requests : List (Request ι)} (run : Shared.Runs edit s requests t)
    (tracks : Tracks apply d v s) : Tracks apply d (requests.foldl Versions.next v) t := by
  induction run generalizing v with
  | refl => exact tracks
  | next taken _ ih => exact ih (tracks.next edits good taken)

/-- After any interleaving the document holds the edits of the carried calls, and no call
has raised. -/
theorem document_of_run (edits : Edits edit apply Good) {d : D} (good : Good d)
    {t : Shared D X ι} {requests : List (Request ι)}
    (run : Shared.Runs edit (.start d) requests t) :
    t.document = (carried requests).foldl (fun d i => apply i d) d ∧ ∀ i e, t.phase i ≠ .raised e := by
  have start : Tracks apply d (.start : Versions ι) (.start d : Shared D X ι) :=
    ⟨rfl, fun i copy holds => (by cases holds), fun i e raised => (by cases raised)⟩
  have tracks := start.run edits good run
  exact ⟨tracks.document, tracks.whole⟩

/-- A call reads once: it was ready before. -/
theorem ready_of_read {s t : Shared D X ι} {requests : List (Request ι)} {i : ι}
    (run : Shared.Runs edit s requests t) (reads : .read i ∈ requests) : s.phase i = .ready := by
  induction run with
  | refl => cases reads
  | next taken _ ih =>
    rcases List.mem_cons.mp reads with first | later
    · subst first
      exact (Shared.next_read taken).1
    · exact Shared.ready_before taken (ih later)

theorem settled_of_run {s t : Shared D X ι} {requests : List (Request ι)} {i : ι}
    (run : Shared.Runs edit s requests t) (settled : (s.phase i).Settled) :
    (t.phase i).Settled := by
  induction run with
  | refl => exact settled
  | next taken _ ih => exact ih (Shared.settled_after taken settled)

/-- A call that has gone through its write is over. -/
theorem settled_of_write {s t : Shared D X ι} {requests : List (Request ι)} {i : ι}
    (run : Shared.Runs edit s requests t) (writes : .write i ∈ requests) :
    (t.phase i).Settled := by
  induction run with
  | refl => cases writes
  | next taken rest ih =>
    rcases List.mem_cons.mp writes with first | later
    · subst first
      apply settled_of_run rest
      obtain ⟨copy, -, ⟨edited, -, rfl⟩ | ⟨e, -, rfl⟩⟩ := Shared.next_write taken
      all_goals simp only [Function.update_self, Phase.Settled]
    · exact ih later

/-- An edit that the document holds stays, as long as every call that writes has read it. -/
theorem mem_current_of_run {s t : Shared D X ι} {requests : List (Request ι)} {i : ι}
    (run : Shared.Runs edit s requests t) {v : Versions ι} (holds : i ∈ v.current)
    (fresh : ∀ j, .write j ∈ requests → .read j ∈ requests ∨ i ∈ v.seen j) :
    i ∈ (requests.foldl Versions.next v).current := by
  induction run generalizing v with
  | refl => exact holds
  | @next s request u requests t taken run ih =>
    cases request with
    | read k =>
      refine ih holds fun j writes => ?_
      simp only [Versions.next]
      by_cases same : j = k
      · subst same
        rw [Function.update_self]
        exact .inr holds
      · rw [Function.update_of_ne same]
        have before := fresh j (List.mem_cons_of_mem _ writes)
        simpa [same] using before
    | write k =>
      obtain ⟨copy, holding, -⟩ := Shared.next_write taken
      have read : i ∈ v.seen k := by
        rcases fresh k List.mem_cons_self with reads | seen
        · have ready := ready_of_read (.next taken run) reads
          rw [holding] at ready
          cases ready
        · exact seen
      refine ih (List.mem_append_left _ read) fun j writes => ?_
      have before := fresh j (List.mem_cons_of_mem _ writes)
      simpa [Versions.next] using before

/-- The edit of a call lasts if every call that writes after it also reads after it. -/
theorem mem_carried {s t : Shared D X ι} {earlier later : List (Request ι)} {i : ι}
    (run : Shared.Runs edit s (earlier ++ .write i :: later) t)
    (fresh : ∀ j, .write j ∈ later → .read j ∈ later) :
    i ∈ carried (earlier ++ .write i :: later) := by
  obtain ⟨u, -, rest⟩ := run.split
  cases rest with
  | next _ rest =>
    rw [carried, List.foldl_append, List.foldl_cons]
    refine mem_current_of_run rest ?_ fun j writes => .inl (fresh j writes)
    simp [Versions.next]

end

end Transition
