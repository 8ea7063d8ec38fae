import Mathlib.Data.Prod.Lex
import Sentinel.Python.JsonRoundtrip
import Sentinel.Python.Struct

/-! The protocol between host and sandbox: JSON messages behind their lengths, over a
pair of byte streams. Reads and writes may be split anywhere; a message comes back
whole, and a stream that ends within one yields `None` for it. -/
namespace Sentinel.Sandbox
open Python Transition

/-- A blocking reader, and a writer that takes a part of what it is offered. -/
structure PipeChannel where
  reader : Source UInt8
  writer : Sink UInt8

def PipeChannel.recv (c : PipeChannel) (n : ℕ) : List UInt8 × PipeChannel :=
  let (data, reader) := c.reader.read n
  (data, { c with reader })

/-- The loop of `sendall`, which drops from the view what was written. -/
def writeView (writer : Sink UInt8) (view : List UInt8) : Sink UInt8 :=
  if view = [] then writer
  else writeView (writer.write view).2 (view.drop (writer.write view).1)
termination_by (view.length, writer.stalls)
decreasing_by
  rename_i nonempty
  have length : 0 < view.length := List.length_pos_iff.mpr nonempty
  rcases Nat.eq_zero_or_pos (writer.write view).1 with stalled | taken
  · have fewer := (write_progress writer nonempty).resolve_left (by omega)
    rw [stalled, List.drop_zero]
    exact Prod.Lex.right _ fewer
  · apply Prod.Lex.left
    rw [List.length_drop]
    omega

def PipeChannel.sendall (c : PipeChannel) (data : List UInt8) : PipeChannel :=
  { c with writer := writeView c.writer data }

/-- `_recv_exactly`, with what it has read so far. -/
def recvExactly (c : PipeChannel) (n : ℕ) (buf : List UInt8) : Option (List UInt8) × PipeChannel :=
  if buf.length < n then
    if (c.recv (n - buf.length)).1 = [] then (none, (c.recv (n - buf.length)).2)
    else recvExactly (c.recv (n - buf.length)).2 n (buf ++ (c.recv (n - buf.length)).1)
  else (some buf, c)
termination_by n - buf.length
decreasing_by
  rename_i short nonempty
  have := List.length_pos_iff.mpr nonempty
  rw [List.length_append]
  omega

section
variable [FloatRepr]

def sendMsg (c : PipeChannel) (obj : Json) : Py PipeChannel := do
  let payload := encodeUtf8 (dumps obj)
  let header ← packI payload.length
  pure (c.sendall (header ++ payload))

def recvMsg [FloatReader] (c : PipeChannel) : Py (Option Json × PipeChannel) :=
  match recvExactly c 4 [] with
  | (none, c) => pure (none, c)
  | (some header, c) => do
    let length ← unpackI header
    match recvExactly c length [] with
    | (none, c) => pure (none, c)
    | (some body, c) => do
      let text ← decodeUtf8 body
      let msg ← loads text
      pure (some msg, c)

/-- Successive calls of `recv_msg`. -/
def recvMsgs [FloatReader] : ℕ → PipeChannel → Py (List (Option Json))
  | 0, _ => pure []
  | n + 1, c => do
    let (msg, c) ← recvMsg c
    let msgs ← recvMsgs n c
    pure (msg :: msgs)

end

/-! ### Reads and writes -/

theorem writeView_written (writer : Sink UInt8) (view : List UInt8) :
    (writeView writer view).written = writer.written ++ view := by
  fun_induction writeView writer view with
  | case1 writer => rw [List.append_nil]
  | case2 writer view nonempty ih =>
    rw [ih, write_written, List.append_assoc, List.take_append_drop]

/-- What was read so far and what is left make up the stream. -/
theorem recv_stream (c : PipeChannel) (n : ℕ) (buf : List UInt8) :
    buf ++ (c.recv n).1 ++ (c.recv n).2.reader.rest = buf ++ c.reader.rest := by
  rw [List.append_assoc]
  exact congrArg (buf ++ ·) (read_append c.reader n)

theorem recvExactly_enough {c : PipeChannel} {n : ℕ} {buf : List UInt8} (below : buf.length ≤ n)
    (enough : n ≤ (buf ++ c.reader.rest).length) : ∃ c',
      recvExactly c n buf = (some ((buf ++ c.reader.rest).take n), c') ∧
        c'.reader.rest = (buf ++ c.reader.rest).drop n := by
  fun_induction recvExactly c n buf with
  | case1 c buf short nil =>
    have ended : c.reader.rest = [] := (read_nil_iff (by omega)).mp nil
    rw [ended, List.append_nil] at enough
    omega
  | case2 c buf short nonempty ih =>
    have bounded : (c.recv (n - buf.length)).1.length ≤ n - buf.length :=
      length_read_le c.reader _
    rw [← recv_stream c (n - buf.length) buf] at enough ⊢
    exact ih (by rw [List.length_append]; omega) enough
  | case3 c buf full =>
    obtain rfl : n = buf.length := by omega
    exact ⟨c, by rw [List.take_left], by rw [List.drop_left]⟩

theorem recvExactly_short {c : PipeChannel} {n : ℕ} {buf : List UInt8}
    (short : (buf ++ c.reader.rest).length < n) :
    ∃ c', recvExactly c n buf = (none, c') ∧ c'.reader.rest = [] := by
  fun_induction recvExactly c n buf with
  | case1 c buf _ nil =>
    have ended : c.reader.rest = [] := (read_nil_iff (by omega)).mp nil
    exact ⟨_, rfl, by simp [PipeChannel.recv, Source.read, ended]⟩
  | case2 c buf _ nonempty ih =>
    rw [← recv_stream c (n - buf.length) buf] at short
    exact ih short
  | case3 c buf full =>
    rw [List.length_append] at short
    omega

/-! ### Messages -/

/-- The frame of a message. -/
def messageFrame [FloatRepr] (obj : Json) : List UInt8 :=
  unsignedInt.frame (encodeUtf8 (dumps obj))

section
variable [FloatRepr]

theorem sendMsg_written {obj : Json} (short : (encodeUtf8 (dumps obj)).length < 2 ^ 32)
    (c : PipeChannel) : ∃ c', sendMsg c obj = .ok c' ∧
      c'.writer.written = c.writer.written ++ messageFrame obj := by
  refine ⟨_, by rw [sendMsg, packI, if_pos short]; rfl, ?_⟩
  exact writeView_written _ _

theorem sendMsgs_written {objs : List Json}
    (short : ∀ o ∈ objs, (encodeUtf8 (dumps o)).length < 2 ^ 32) (c : PipeChannel) :
    ∃ c', objs.foldlM sendMsg c = .ok c' ∧
      c'.writer.written = c.writer.written ++ objs.flatMap messageFrame := by
  induction objs generalizing c with
  | nil => exact ⟨c, rfl, by simp⟩
  | cons o rest ih =>
    rw [List.forall_mem_cons] at short
    obtain ⟨c', sent, written⟩ := sendMsg_written short.1 c
    obtain ⟨c'', later, all⟩ := ih short.2 c'
    refine ⟨c'', ?_, ?_⟩
    · rw [List.foldlM_cons, sent]
      exact later
    · rw [all, written, List.flatMap_cons, List.append_assoc]

variable [FloatReader]

/-- What `recv_msg` makes of a frame's body. -/
def readBody (c : PipeChannel) : Option (List UInt8) → Py (Option Json × PipeChannel)
  | none => .ok (none, c)
  | some body => do
    let text ← decodeUtf8 body
    let msg ← loads text
    pure (some msg, c)

/-- Behind the header `recv_msg` reads as much as it says. -/
theorem recvMsg_header {c c' : PipeChannel} {header : List UInt8} (sized : header.length = 4)
    (read : recvExactly c 4 [] = (some header, c')) :
    recvMsg c = readBody (recvExactly c' (ofBigEndian header) []).2
      (recvExactly c' (ofBigEndian header) []).1 := by
  simp only [recvMsg, read, unpackI, if_pos sized, bind, Except.bind]
  rcases recvExactly c' (ofBigEndian header) [] with ⟨body | body, c''⟩
  · rfl
  · rfl

/-- `recv_msg` takes one frame off the stream. -/
theorem recvMsg_unframe (c : PipeChannel) : ∃ c',
    recvMsg c = readBody c' (unsignedInt.unframe c.reader.rest).1 ∧
      c'.reader.rest = (unsignedInt.unframe c.reader.rest).2 := by
  rcases Nat.lt_or_ge c.reader.rest.length 4 with headless | headed
  · obtain ⟨c', ended, left⟩ := recvExactly_short (show ([] ++ c.reader.rest).length < 4 from headless)
    rw [unsignedInt.unframe_headless headless]
    exact ⟨c', by simp only [recvMsg, ended]; rfl, left⟩
  · obtain ⟨c₁, header, after⟩ :=
      recvExactly_enough (Nat.zero_le 4) (show 4 ≤ ([] ++ c.reader.rest).length from headed)
    rw [List.nil_append] at header after
    rw [recvMsg_header (List.length_take_of_le headed) header]
    rcases Nat.lt_or_ge c₁.reader.rest.length (ofBigEndian (c.reader.rest.take 4)) with short | whole
    · obtain ⟨c₂, ended, left⟩ := recvExactly_short (show ([] ++ c₁.reader.rest).length < _ from short)
      rw [ended, unsignedInt.unframe_cut headed (after ▸ short)]
      exact ⟨c₂, rfl, left⟩
    · obtain ⟨c₂, body, left⟩ :=
        recvExactly_enough (Nat.zero_le _) (show _ ≤ ([] ++ c₁.reader.rest).length from whole)
      rw [List.nil_append, after] at body left
      rw [body, unsignedInt.unframe_whole headed (after ▸ whole)]
      exact ⟨c₂, rfl, left⟩

/-- A message at the front of the stream. -/
theorem recvMsg_message {obj : Json} (keyed : obj.keyed = true)
    (short : (encodeUtf8 (dumps obj)).length < 2 ^ 32) {c : PipeChannel} {rest : List UInt8}
    (stream : c.reader.rest = messageFrame obj ++ rest) :
    ∃ c', recvMsg c = .ok (some obj, c') ∧ c'.reader.rest = rest := by
  obtain ⟨c', received, left⟩ := recvMsg_unframe c
  rw [stream, messageFrame, unsignedInt.unframe_frame short] at received left
  refine ⟨c', received.trans ?_, left⟩
  simp only [readBody, decodeUtf8_encodeUtf8, bind, Except.bind, loads_dumps_keyed keyed]
  rfl

/-- A stream that holds no whole frame yields nothing, now and later. -/
theorem recvMsgs_ended (n : ℕ) {c : PipeChannel}
    (ended : unsignedInt.unframe c.reader.rest = (none, [])) :
    recvMsgs n c = .ok (List.replicate n none) := by
  induction n generalizing c with
  | zero => rfl
  | succ n ih =>
    obtain ⟨c', received, left⟩ := recvMsg_unframe c
    rw [ended] at received left
    have later := ih (c := c') (by rw [left]; exact unsignedInt.unframe_nil (by decide))
    rw [recvMsgs, received]
    simp only [readBody, bind, Except.bind, later]
    rfl

theorem recvMsgs_messages {objs : List Json} (keyed : ∀ o ∈ objs, o.keyed = true)
    (short : ∀ o ∈ objs, (encodeUtf8 (dumps o)).length < 2 ^ 32) (n : ℕ) {c : PipeChannel}
    {part : List UInt8} (stream : c.reader.rest = objs.flatMap messageFrame ++ part)
    (ended : unsignedInt.unframe part = (none, [])) :
    recvMsgs (objs.length + n) c = .ok (objs.map some ++ List.replicate n none) := by
  induction objs generalizing c with
  | nil =>
    rw [List.length_nil, Nat.zero_add]
    exact recvMsgs_ended n (by rw [stream]; exact ended)
  | cons o rest ih =>
    rw [List.forall_mem_cons] at keyed short
    rw [List.flatMap_cons, List.append_assoc] at stream
    obtain ⟨c', received, left⟩ := recvMsg_message keyed.1 short.1 stream
    have later := ih keyed.2 short.2 left
    rw [List.length_cons, Nat.add_right_comm, recvMsgs, received]
    simp only [bind, Except.bind, later]
    rfl

/-- What one end sends, however its writes are split, the other end reads back message
by message, however its reads are split, and then `None`; so it does if the stream
ends within a frame, with the messages before that one. -/
theorem framing_codec {objs : List Json} (objects : ∀ o ∈ objs, o.keyed = true)
    (short : ∀ o ∈ objs, (encodeUtf8 (dumps o)).length < 2 ^ 32) (sender : PipeChannel) :
    (∃ sent, objs.foldlM sendMsg sender = .ok sent ∧
        sent.writer.written = sender.writer.written ++ objs.flatMap messageFrame) ∧
      ∀ (receiver : PipeChannel) (n : ℕ),
        (receiver.reader.rest = objs.flatMap messageFrame →
          recvMsgs (objs.length + n) receiver = .ok (objs.map some ++ List.replicate n none)) ∧
        ∀ whole cut later part, objs = whole ++ cut :: later → part <+: messageFrame cut →
          part ≠ messageFrame cut →
          receiver.reader.rest = whole.flatMap messageFrame ++ part →
          recvMsgs (whole.length + n) receiver = .ok (whole.map some ++ List.replicate n none) := by
  refine ⟨sendMsgs_written short sender, fun receiver n => ⟨fun stream => ?_, ?_⟩⟩
  · exact recvMsgs_messages objects short n (stream.trans (List.append_nil _).symm)
      (unsignedInt.unframe_nil (by decide))
  · rintro whole cut later part rfl front proper stream
    rw [List.forall_mem_append, List.forall_mem_cons] at objects short
    exact recvMsgs_messages objects.1 short.1 n stream
      (unsignedInt.unframe_part short.2.1 front proper)

end

section Sample
attribute [local instance] fractionRepr fractionReader

/-- Takes three bytes of every other write. -/
def slowWriter : Sink UInt8 where
  accepts i := i % 2 * 3
  alive i := ⟨2 * i + 1, by omega, by omega⟩

def execMsg : Json := .dict [("type", .str "exec"), ("code", .str "print(1)")]

def doneMsg : Json := .dict [("type", .str "done"), ("stdout", .str "1")]

/-- Two messages, and a stream that ends six bytes into the second. -/
theorem framing_codec_exec : ∃ sent,
    [execMsg, doneMsg].foldlM sendMsg ⟨⟨[], fun _ => 0, 0⟩, slowWriter⟩ = .ok sent ∧
      ∀ receiver : PipeChannel,
        (receiver.reader.rest = sent.writer.written →
          recvMsgs 3 receiver = .ok [some execMsg, some doneMsg, none]) ∧
        (receiver.reader.rest = messageFrame execMsg ++ (messageFrame doneMsg).take 6 →
          recvMsgs 3 receiver = .ok [some execMsg, none, none]) := by
  have objects : ∀ o ∈ [execMsg, doneMsg], o.keyed = true := by
    simp [execMsg, doneMsg, Json.keyed, entriesKeyed]
  have short : ∀ o ∈ [execMsg, doneMsg], (encodeUtf8 (dumps o)).length < 2 ^ 32 := by
    decide +kernel
  obtain ⟨⟨sent, sending, written⟩, receiving⟩ :=
    framing_codec objects short ⟨⟨[], fun _ => 0, 0⟩, slowWriter⟩
  refine ⟨sent, sending, fun receiver => ⟨fun stream => ?_, fun stream => ?_⟩⟩
  · exact (receiving receiver 1).1 (stream.trans written)
  · refine (receiving receiver 2).2 [execMsg] doneMsg [] _ rfl (List.take_prefix 6 _) ?_ stream
    intro whole
    have length := congrArg List.length whole
    revert length
    decide +kernel

end Sample

end Sentinel.Sandbox
