import SingleWire.Framer
import SingleWire.Proofs.FieldValue
import SingleWire.Proofs.FrameSequence

/-! A framer that remembers a started packet does what one that reads it again from its
header would do, and that is what the grammar says. -/

namespace SingleWire
open Continuation Grammar

/-- What is remembered of a started packet agrees with the bytes at the front of the queue. -/
inductive Started.Coherent (width : TimestampWidth) : Started → List UInt8 → Prop where
  | zeroRun (zeros : Nat) (rest : List UInt8) :
    Coherent width (.zeroRun (zeros + 1)) (List.replicate (zeros + 1) 0 ++ rest)
  | payload {byte : UInt8} {kind : SourceKind} {size : PayloadSize}
      (named : Header.ofByte? byte = some (.payload kind size)) (rest : List UInt8) :
    Coherent width (.payload kind size) (byte :: rest)
  | tail {byte : UInt8} {kind : TailKind} {field : Field} (named : Header.ofByte? byte = some (.tail kind))
      (read rest : List UInt8) (unended : split? (kind.cap width).toNat read = none)
      (resumed : (Field.new (kind.cap width)).resume read = some field) :
    Coherent width (.tail kind field) (byte :: (read ++ rest))

theorem Started.Coherent.append {width : TimestampWidth} {started : Started} {bytes : List UInt8}
    (coherent : started.Coherent width bytes) (more : List UInt8) : started.Coherent width (bytes ++ more) := by
  cases coherent with
  | zeroRun zeros rest =>
    rw [List.append_assoc]
    exact .zeroRun zeros (rest ++ more)
  | payload named rest => exact .payload named (rest ++ more)
  | tail named read rest unended resumed =>
    rw [List.cons_append, List.append_assoc]
    exact .tail named read (rest ++ more) unended resumed

theorem TailKind.cap_le (width : TimestampWidth) (kind : TailKind) : (kind.cap width).toNat ≤ 9 := by
  cases kind with
  | globalHigh => cases width <;> decide
  | localTimestamp | globalLow | extension => exact (by decide : 4 ≤ 9)

namespace Framer

variable {framer : Framer}

def Coherent (framer : Framer) : Prop :=
  ∀ started, framer.started = some started → started.Coherent framer.options.timestampWidth framer.queue.pending

@[simp] theorem feed_nil (framer : Framer) : framer.feed [] = framer := by
  rw [feed, ByteQueue.append_nil]

theorem Coherent.feed (coherent : framer.Coherent) (bytes : List UInt8) : (framer.feed bytes).Coherent := by
  intro started held
  have front := coherent started held
  show started.Coherent _ (framer.queue.append bytes).pending
  rw [ByteQueue.pending_append]
  exact front.append bytes

private theorem firstNonzero?_of_replicate {queue : ByteQueue} {zeros : Nat} {rest : List UInt8}
    (front : queue.pending = List.replicate zeros 0 ++ rest) : queue.firstNonzero? zeros = queue.firstNonzero? 0 := by
  have zero : ∀ byte ∈ List.replicate zeros (0 : UInt8), decide (byte = 0) = true := by
    intro byte member
    exact decide_eq_true (List.eq_of_mem_replicate member)
  rw [ByteQueue.firstNonzero?_eq_pending, ByteQueue.firstNonzero?_eq_pending, front, List.drop_zero,
    List.drop_left' (List.length_replicate ..), List.dropWhile_append_of_pos zero, List.takeWhile_append_of_pos zero,
    List.length_append, List.length_replicate, Nat.zero_add]

theorem resume_slice {queue : ByteQueue} {byte : UInt8} {rest : List UInt8} {cap : UInt64} {field : Field}
    (read : List UInt8) (front : queue.pending = byte :: (read ++ rest)) (positive : 0 < cap.toNat) (few : cap.toNat ≤ 9)
    (unended : split? cap.toNat read = none) (resumed : (Field.new cap).resume read = some field) :
    field.resume (queue.slice (1 + field.length.toNat) field.cap.toNat) = (Field.new cap).resume (read ++ rest) := by
  have seen := (Field.waiting_of_resumed positive few unended resumed).length
  rw [ByteQueue.slice_eq_pending, front, seen, Nat.add_comm 1, List.drop_succ_cons, List.drop_left' rfl]
  exact Field.resume_resume_take positive few unended resumed rest

private theorem new_resume_slice {queue : ByteQueue} {byte : UInt8} {rest : List UInt8} {cap : UInt64}
    (front : queue.pending = byte :: rest) (positive : 0 < cap.toNat) (few : cap.toNat ≤ 9) :
    (Field.new cap).resume (queue.slice (1 + (Field.new cap).length.toNat) (Field.new cap).cap.toNat) =
      (Field.new cap).resume rest :=
  resume_slice [] front positive few rfl rfl

/-- Going on with a packet is the same as starting it once more. -/
theorem resume_eq_start {started : Started} {byte : UInt8} {rest : List UInt8}
    (front : framer.queue.pending = byte :: rest)
    (coherent : started.Coherent framer.options.timestampWidth (byte :: rest)) :
    framer.resume started = framer.start byte := by
  generalize whole : byte :: rest = bytes at front coherent
  cases coherent with
  | zeroRun zeros rest =>
    cases whole
    have named : Header.ofByte? 0 = some .zeroRun := rfl
    simp only [start, named, resume, firstNonzero?_of_replicate front]
  | payload named rest =>
    cases whole
    rw [start, named]
  | @tail _ kind _ named read rest unended resumed =>
    cases whole
    have positive := cap_pos framer.options.timestampWidth kind
    have few := kind.cap_le framer.options.timestampWidth
    obtain ⟨after, all⟩ := Field.exists_resume_new positive few (read ++ rest)
    have early := (new_resume_slice front positive few).trans all
    have late := (resume_slice read front positive few unended resumed).trans all
    simp only [start, named, resume, early, late, Option.getD_some]

theorem next_eq_start (coherent : framer.Coherent) {byte : UInt8} {rest : List UInt8}
    (front : framer.queue.pending = byte :: rest) : framer.next = framer.start byte := by
  rw [next, ByteQueue.get?_eq_pending, front]
  simp only [List.getElem?_cons_zero]
  cases held : framer.started with
  | none => rfl
  | some started => exact resume_eq_start front (front ▸ coherent started held)

def after (framer : Framer) (frame : Frame) : Framer :=
  { framer with queue := (framer.queue.remove frame.length).2, started := none }

/-- What a framer gives when the grammar finds this frame in its queue, or none. -/
def answer (framer : Framer) (waiting : Started) : Option Frame → Option (Except Fault Packet) × Framer
  | some frame => (some (frame.item framer.queue.removed framer.queue.pending), framer.after frame)
  | none => framer.await waiting

private theorem deliver_eq (framer : Framer) (waiting : Started) (count : Nat) (packet : List UInt8 → Packet) :
    framer.deliver count packet =
      framer.answer waiting (some ⟨.ok (packet (framer.queue.pending.take count)), count⟩) := by
  rw [← ByteQueue.fst_remove]
  rfl

private theorem discard_eq (framer : Framer) (waiting : Started) (count : Nat) (cause : Malformation) :
    framer.discard count cause = framer.answer waiting (some ⟨.error cause, count⟩) := by
  rw [discard, answer, Frame.item, ← ByteQueue.fst_remove]
  rfl

private theorem firstNonzero?_zero {queue : ByteQueue} {rest : List UInt8} (front : queue.pending = 0 :: rest) :
    queue.firstNonzero? 0 = (rest.dropWhile (· = 0)).head?.map fun byte => (1 + (rest.takeWhile (· = 0)).length, byte) := by
  rw [ByteQueue.firstNonzero?_eq_pending, front]
  simp [Nat.add_comm]

private theorem resume_zeroRun {rest : List UInt8} (front : framer.queue.pending = 0 :: rest) :
    framer.resume (.zeroRun 0) = framer.answer (.zeroRun framer.queue.size)
      (zeroRun (1 + (rest.takeWhile (· = 0)).length) (rest.dropWhile (· = 0))) := by
  simp only [resume, firstNonzero?_zero front]
  cases rest.dropWhile (· = 0) with
  | nil => rfl
  | cons terminator left =>
    simp only [List.head?_cons, Option.map_some, zeroRun]
    split
    next sync =>
      rw [if_pos ⟨sync.2, sync.1⟩]
      exact deliver_eq framer _ _ _
    next broken =>
      rw [if_neg (fun sync => broken ⟨sync.2, sync.1⟩)]
      exact discard_eq framer _ _ _

private theorem resume_payload {byte : UInt8} {rest : List UInt8} (front : framer.queue.pending = byte :: rest)
    (kind : SourceKind) (size : PayloadSize) :
    framer.resume (.payload kind size) = framer.answer (.payload kind size) (payload size rest kind.packet) := by
  have count : framer.queue.size = 1 + rest.length := by
    rw [← ByteQueue.length_pending, front, List.length_cons, Nat.add_comm]
  simp only [resume, payload, count, Nat.add_lt_add_iff_left]
  split
  · rfl
  · rw [deliver_eq framer (.payload kind size), front, Nat.add_comm 1, List.take_succ_cons, List.tail_cons]

private theorem resume_tail {byte : UInt8} {rest : List UInt8} {field : Field}
    (front : framer.queue.pending = byte :: rest) {kind : TailKind} (named : Header.ofByte? byte = some (.tail kind))
    (resumed : (Field.new (kind.cap framer.options.timestampWidth)).resume rest = some field) :
    framer.resume (.tail kind (Field.new (kind.cap framer.options.timestampWidth))) =
      framer.answer (.tail kind field)
        (tail (kind.cap framer.options.timestampWidth).toNat rest (tailPacket framer.options.timestampWidth kind)) := by
  have positive := cap_pos framer.options.timestampWidth kind
  have few := kind.cap_le framer.options.timestampWidth
  simp only [resume, (new_resume_slice front positive few).trans resumed, Option.getD_some]
  cases ended : split? (kind.cap framer.options.timestampWidth).toNat rest with
  | none =>
    have going := (Field.waiting_of_resumed positive few ended resumed).going
    rw [tail, ended, Field.ended?, if_neg (by simp [going])]
    rfl
  | some parts =>
    obtain ⟨group, left⟩ := parts
    obtain ⟨other, same, length, value⟩ := Field.resume_ended positive few ended
    cases same.symm.trans resumed
    obtain ⟨size, complete, counted⟩ := Option.map_eq_some_iff.mp length
    have bound := length_split? positive ended
    obtain ⟨first, others, rfl⟩ := List.exists_cons_of_length_pos bound.1
    have packet := packet_eq_tailPacket framer.options.timestampWidth named ((first :: others).getLastD 0) bound.2 counted
      value rfl
    have bytes : framer.queue.pending.take (1 + (first :: others).length) = byte :: first :: others := by
      rw [front, (split?_eq_some ended).1, Nat.add_comm, List.take_succ_cons, List.take_left' rfl]
    rw [tail, ended, complete]
    simp only [Option.map_some, ← packet]
    rw [deliver_eq framer (.tail kind field), counted, bytes]
    rfl

private theorem start_eq_answer {byte : UInt8} {rest : List UInt8} (front : framer.queue.pending = byte :: rest) :
    ∃ waiting : Started,
      framer.start byte = framer.answer waiting (frame? framer.options.timestampWidth framer.queue.pending) ∧
      (frame? framer.options.timestampWidth framer.queue.pending = none →
        waiting.Coherent framer.options.timestampWidth framer.queue.pending) := by
  rw [front, frame?_cons]
  cases named : Header.ofByte? byte with
  | none =>
    refine ⟨.zeroRun 0, ?_, fun impossible => nomatch impossible⟩
    rw [start, named]
    exact discard_eq framer _ 1 _
  | some header =>
    rw [start, named]
    cases header with
    | whole packet =>
      refine ⟨.zeroRun 0, ?_, fun impossible => nomatch impossible⟩
      exact deliver_eq framer _ 1 _
    | zeroRun =>
      cases zero_of_zeroRun named
      refine ⟨.zeroRun framer.queue.size, resume_zeroRun front, ?_⟩
      intro waiting
      have all := zeros_of_waiting waiting
      have coherent : Started.Coherent framer.options.timestampWidth _ _ := .zeroRun rest.length []
      rw [List.append_nil, List.replicate_succ, ← all] at coherent
      rwa [← ByteQueue.length_pending, front, List.length_cons]
    | payload kind size => exact ⟨.payload kind size, resume_payload front kind size, fun _ => .payload named rest⟩
    | tail kind =>
      have positive := cap_pos framer.options.timestampWidth kind
      obtain ⟨field, resumed⟩ := Field.exists_resume_new positive (kind.cap_le framer.options.timestampWidth) rest
      refine ⟨.tail kind field, resume_tail front named resumed, ?_⟩
      intro waiting
      have unended := Option.map_eq_none_iff.mp waiting
      have coherent := Started.Coherent.tail named rest [] unended resumed
      rwa [List.append_nil] at coherent

/-- A frame of the grammar is the next item, and the framer goes on behind it. -/
theorem next_of_some (coherent : framer.Coherent) {frame : Frame}
    (found : frame? framer.options.timestampWidth framer.queue.pending = some frame) :
    framer.next = (some (frame.item framer.queue.removed framer.queue.pending), framer.after frame) := by
  cases front : framer.queue.pending with
  | nil =>
    rw [front] at found
    cases found
  | cons byte rest =>
    obtain ⟨waiting, answered, _⟩ := start_eq_answer front
    rw [next_eq_start coherent front, answered, found, ← front]
    rfl

/-- Without a frame nothing is given, and only what is remembered may change. -/
theorem next_of_none (coherent : framer.Coherent)
    (unfinished : frame? framer.options.timestampWidth framer.queue.pending = none) :
    ∃ started, framer.next = (none, { framer with started }) ∧ Coherent { framer with started } := by
  cases front : framer.queue.pending with
  | nil =>
    refine ⟨framer.started, ?_, coherent⟩
    rw [next, ByteQueue.get?_eq_pending, front]
    rfl
  | cons byte rest =>
    obtain ⟨waiting, answered, kept⟩ := start_eq_answer front
    refine ⟨some waiting, ?_, ?_⟩
    · rw [next_eq_start coherent front, answered, unfinished]
      rfl
    · intro started same
      cases same
      exact kept unfinished

theorem coherent_after (framer : Framer) (frame : Frame) : (framer.after frame).Coherent := by
  intro started impossible
  cases impossible

theorem coherent_next (coherent : framer.Coherent) : framer.next.2.Coherent := by
  cases found : frame? framer.options.timestampWidth framer.queue.pending with
  | some frame =>
    rw [next_of_some coherent found]
    exact coherent_after framer frame
  | none =>
    obtain ⟨started, waiting, kept⟩ := next_of_none coherent found
    rw [waiting]
    exact kept

theorem Coherent.started_of_nil (coherent : framer.Coherent) (empty : framer.queue.pending = []) :
    framer.started = none := by
  cases held : framer.started with
  | none => rfl
  | some started =>
    have front := coherent started held
    rw [empty] at front
    cases front

end Framer

end SingleWire
