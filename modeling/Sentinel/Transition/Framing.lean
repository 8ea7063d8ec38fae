import Mathlib.Data.List.Basic
import Mathlib.Data.Nat.Find

/-! Streams and length-prefixed frames. A source gives each read some of what is left,
a sink takes some of what each write offers; a frame is a body behind its length. A
stream that ends within a frame yields no body for it. -/
namespace Transition

variable {α : Type*}

/-- The reading end of a stream: what is left until it ends, and how much beyond one
element each read gives at most. -/
structure Source (α : Type*) where
  rest : List α
  extra : ℕ → ℕ
  reads : ℕ := 0

/-- Reads at most `n` elements, and none only at the end of the stream. -/
def Source.read (s : Source α) (n : ℕ) : List α × Source α :=
  let count := min n (s.extra s.reads + 1)
  (s.rest.take count, { s with rest := s.rest.drop count, reads := s.reads + 1 })

/-- The writing end of a stream, and how much each write takes at most. It may take
nothing for a while, not forever. -/
structure Sink (α : Type*) where
  written : List α := []
  accepts : ℕ → ℕ
  writes : ℕ := 0
  alive : ∀ i, ∃ j, i ≤ j ∧ accepts j ≠ 0

/-- Takes a first part of the data. -/
def Sink.write (s : Sink α) (data : List α) : ℕ × Sink α :=
  let count := min (s.accepts s.writes) data.length
  (count, { s with written := s.written ++ data.take count, writes := s.writes + 1 })

/-- How many more writes the sink takes nothing of. -/
def Sink.stalls (s : Sink α) : ℕ := Nat.find (s.alive s.writes) - s.writes

theorem read_nil_iff {s : Source α} {n : ℕ} (positive : 0 < n) :
    (s.read n).1 = [] ↔ s.rest = [] := by
  simp only [Source.read, List.take_eq_nil_iff]
  constructor
  · rintro (zero | nil)
    · omega
    · exact nil
  · exact .inr

theorem read_append (s : Source α) (n : ℕ) : (s.read n).1 ++ (s.read n).2.rest = s.rest :=
  List.take_append_drop _ _

theorem length_read_le (s : Source α) (n : ℕ) : (s.read n).1.length ≤ n := by
  simp only [Source.read, List.length_take]
  omega

theorem write_written (s : Sink α) (data : List α) :
    (s.write data).2.written = s.written ++ data.take (s.write data).1 := rfl

/-- A write takes something, or the sink has one stall less. -/
theorem write_progress (s : Sink α) {data : List α} (nonempty : data ≠ []) :
    0 < (s.write data).1 ∨ (s.write data).2.stalls < s.stalls := by
  have length : 0 < data.length := List.length_pos_iff.mpr nonempty
  rcases Nat.eq_zero_or_pos (s.accepts s.writes) with stalled | taken
  · right
    obtain ⟨reached, accepted⟩ := Nat.find_spec (s.alive s.writes)
    have later : s.writes < Nat.find (s.alive s.writes) := by
      refine lt_of_le_of_ne reached fun same => accepted ?_
      rw [← same]
      exact stalled
    have sooner : Nat.find (s.alive (s.writes + 1)) ≤ Nat.find (s.alive s.writes) :=
      Nat.find_min' _ ⟨later, accepted⟩
    show Nat.find (s.alive (s.writes + 1)) - (s.writes + 1) < Nat.find (s.alive s.writes) - s.writes
    omega
  · left
    simp only [Sink.write]
    omega

/-- Lengths written in a fixed width. -/
structure LengthCodec (α : Type*) where
  width : ℕ
  bound : ℕ
  encode : ℕ → List α
  decode : List α → ℕ
  length_encode : ∀ n, (encode n).length = width
  decode_encode : ∀ n < bound, decode (encode n) = n

namespace LengthCodec
variable (c : LengthCodec α)

def frame (body : List α) : List α := c.encode body.length ++ body

/-- The next body and what is left of the stream; of a part of a frame nothing is. -/
def unframe (stream : List α) : Option (List α) × List α :=
  if c.width ≤ stream.length then
    let length := c.decode (stream.take c.width)
    let rest := stream.drop c.width
    if length ≤ rest.length then (some (rest.take length), rest.drop length) else (none, [])
  else (none, [])

theorem unframe_headless {stream : List α} (short : stream.length < c.width) :
    c.unframe stream = (none, []) :=
  if_neg (Nat.not_le.mpr short)

theorem unframe_cut {stream : List α} (headed : c.width ≤ stream.length)
    (short : (stream.drop c.width).length < c.decode (stream.take c.width)) :
    c.unframe stream = (none, []) :=
  (if_pos headed).trans (if_neg (Nat.not_le.mpr short))

theorem unframe_whole {stream : List α} (headed : c.width ≤ stream.length)
    (whole : c.decode (stream.take c.width) ≤ (stream.drop c.width).length) :
    c.unframe stream = (some ((stream.drop c.width).take (c.decode (stream.take c.width))),
      (stream.drop c.width).drop (c.decode (stream.take c.width))) :=
  (if_pos headed).trans (if_pos whole)

/-- The header of a frame that may be cut behind it. -/
theorem take_frame {body part missing : List α} (frame : part ++ missing = c.frame body)
    (headed : c.width ≤ part.length) : part.take c.width = c.encode body.length := by
  have width := c.length_encode body.length
  have front : (part ++ missing).take c.width = part.take c.width :=
    List.take_append_of_le_length headed
  rw [← front, frame, LengthCodec.frame, ← width, List.take_left]

theorem unframe_frame {body : List α} (short : body.length < c.bound) (rest : List α) :
    c.unframe (c.frame body ++ rest) = (some body, rest) := by
  have width := c.length_encode body.length
  have headed : c.width ≤ (c.frame body).length := by
    rw [frame, List.length_append, width]
    omega
  have header : c.decode ((c.frame body ++ rest).take c.width) = body.length := by
    rw [List.take_append_of_le_length headed, c.take_frame (List.append_nil _) headed,
      c.decode_encode _ short]
  have after : (c.frame body ++ rest).drop c.width = body ++ rest := by
    rw [frame, List.append_assoc, ← width, List.drop_left]
  rw [c.unframe_whole, header, after, List.take_left, List.drop_left]
  · rw [List.length_append]
    omega
  · rw [header, after, List.length_append]
    omega

/-- A stream that ends within a frame. -/
theorem unframe_part {body part : List α} (short : body.length < c.bound)
    (cut : part <+: c.frame body) (proper : part ≠ c.frame body) : c.unframe part = (none, []) := by
  obtain ⟨missing, whole⟩ := cut
  have lacks : missing ≠ [] := by
    rintro rfl
    exact proper (by rw [← whole, List.append_nil])
  rcases Nat.lt_or_ge part.length c.width with headless | headed
  · exact c.unframe_headless headless
  · apply c.unframe_cut headed
    have total : part.length + missing.length = c.width + body.length := by
      rw [← List.length_append, whole, frame, List.length_append, c.length_encode]
    have some := List.length_pos_iff.mpr lacks
    rw [c.take_frame whole headed, c.decode_encode _ short, List.length_drop]
    omega

theorem unframe_nil (headed : 0 < c.width) : c.unframe [] = (none, []) :=
  c.unframe_headless headed

end LengthCodec

end Transition
