import SingleWire.Fault
import SingleWire.Header
import SingleWire.ByteQueue
import SingleWire.Continuation.Field

/-! Cuts a stream of bytes into packets and faults. What has been learned about a
packet that has not fully arrived is kept, so that no byte is looked at twice. -/

namespace SingleWire

open Continuation (Field)

/-- A packet whose header has been read and whose other bytes are still awaited. All
its bytes are still in the queue. -/
inductive Started where
  /-- So many zero bytes have been counted. -/
  | zeroRun (zeros : Nat)
  | payload (kind : SourceKind) (size : PayloadSize)
  /-- The field has taken the bytes of the tail that are there. -/
  | tail (kind : TailKind) (field : Field)
deriving DecidableEq

structure Framer where
  queue : ByteQueue := {}
  started : Option Started := none
  options : Options := {}

namespace Framer

/-- The byte after the zeros of a sync packet. -/
def syncEnd : UInt8 := 0x80

def feed (framer : Framer) (bytes : List UInt8) : Framer :=
  { framer with queue := framer.queue.append bytes }

def await (framer : Framer) (started : Started) : Option (Except Fault Packet) × Framer :=
  (none, { framer with started := some started })

/-- Removes the first `count` bytes, which are the packet made of them. -/
def deliver (framer : Framer) (count : Nat) (packet : List UInt8 → Packet) : Option (Except Fault Packet) × Framer :=
  let (bytes, queue) := framer.queue.remove count
  (some (.ok (packet bytes)), { framer with queue, started := none })

/-- Removes the first `count` bytes, which are no packet. -/
def discard (framer : Framer) (count : Nat) (cause : Malformation) : Option (Except Fault Packet) × Framer :=
  let (bytes, queue) := framer.queue.remove count
  (some (.error { offset := framer.queue.removed, bytes, cause }), { framer with queue, started := none })

/-- Goes on with the packet at the front of the queue. -/
def resume (framer : Framer) : Started → Option (Except Fault Packet) × Framer
  | .zeroRun zeros =>
    match framer.queue.firstNonzero? zeros with
    | none => framer.await (.zeroRun framer.queue.size)
    | some (zeros, terminator) =>
      if terminator = syncEnd ∧ syncMinimum ≤ zeros then framer.deliver (zeros + 1) fun _ => .sync zeros
      else framer.discard (zeros + 1) (.brokenSync zeros terminator)
  | .payload kind size =>
    if framer.queue.size < 1 + size.bytes then framer.await (.payload kind size)
    else framer.deliver (1 + size.bytes) fun bytes => kind.packet size bytes.tail
  | .tail kind field =>
    -- A tail has six bytes at most, so that no count of its field leaves a word.
    let field := (field.resume (framer.queue.slice (1 + field.length.toNat) field.cap.toNat)).getD field
    match field.ended? with
    | none => framer.await (.tail kind field)
    | some length =>
      framer.deliver (1 + length.toNat) fun bytes =>
        kind.packet framer.options.timestampWidth field.value length (bytes.getLastD 0)

def start (framer : Framer) (byte : UInt8) : Option (Except Fault Packet) × Framer :=
  match Header.ofByte? byte with
  | none => framer.discard 1 (.reservedHeader byte)
  | some (.whole packet) => framer.deliver 1 fun _ => packet
  | some .zeroRun => framer.resume (.zeroRun 0)
  | some (.payload kind size) => framer.resume (.payload kind size)
  | some (.tail kind) => framer.resume (.tail kind (Field.new (kind.cap framer.options.timestampWidth)))

/-- The first packet or fault of the queue, and the framer without its bytes; nothing
if the queue ends before it does. -/
def next (framer : Framer) : Option (Except Fault Packet) × Framer :=
  match framer.queue.get? 0 with
  | none => (none, framer)
  | some byte =>
    match framer.started with
    | some started => framer.resume started
    | none => framer.start byte

/-- Either nothing is returned and the queue is as it was, or it has become shorter. -/
def Progress (framer : Framer) (result : Option (Except Fault Packet) × Framer) : Prop :=
  (result.1 = none ∧ result.2.queue = framer.queue) ∨ (result.1.isSome ∧ result.2.queue.size < framer.queue.size)

private theorem progress_await (framer : Framer) (started : Started) : framer.Progress (framer.await started) :=
  .inl ⟨rfl, rfl⟩

private theorem progress_deliver {framer : Framer} (nonempty : 0 < framer.queue.size) (count : Nat)
    (packet : List UInt8 → Packet) : framer.Progress (framer.deliver (count + 1) packet) := by
  refine .inr ⟨rfl, ?_⟩
  simp only [deliver, ByteQueue.size_remove]
  omega

private theorem progress_discard {framer : Framer} (nonempty : 0 < framer.queue.size) (count : Nat)
    (cause : Malformation) : framer.Progress (framer.discard (count + 1) cause) := by
  refine .inr ⟨rfl, ?_⟩
  simp only [discard, ByteQueue.size_remove]
  omega

private theorem progress_resume {framer : Framer} (nonempty : 0 < framer.queue.size) (started : Started) :
    framer.Progress (framer.resume started) := by
  cases started with
  | zeroRun zeros =>
    simp only [resume]
    split
    · exact progress_await framer _
    · split
      · exact progress_deliver nonempty _ _
      · exact progress_discard nonempty _ _
  | payload kind size =>
    simp only [resume]
    split
    · exact progress_await framer _
    · rw [Nat.add_comm]; exact progress_deliver nonempty _ _
  | tail kind field =>
    simp only [resume]
    split
    · exact progress_await framer _
    · rw [Nat.add_comm]; exact progress_deliver nonempty _ _

theorem progress_next (framer : Framer) : framer.Progress framer.next := by
  unfold next
  split
  · exact .inl ⟨rfl, rfl⟩
  next byte found =>
    have nonempty := ByteQueue.size_pos_of_get? found
    split
    · exact progress_resume nonempty _
    · unfold start
      split
      · exact progress_discard nonempty 0 _
      · exact progress_deliver nonempty 0 _
      all_goals exact progress_resume nonempty _

/-- A framer that waits has changed nothing in its queue. -/
theorem queue_next_of_none {framer : Framer} (waiting : framer.next.1 = none) :
    framer.next.2.queue = framer.queue := by
  rcases progress_next framer with ⟨_, same⟩ | ⟨found, _⟩
  · exact same
  · simp [waiting] at found

/-- Every packet and every fault takes at least one byte. -/
theorem size_next_lt {framer : Framer} {item : Except Fault Packet} (found : framer.next.1 = some item) :
    framer.next.2.queue.size < framer.queue.size := by
  rcases progress_next framer with ⟨waiting, _⟩ | ⟨_, less⟩
  · simp [found] at waiting
  · exact less

end Framer

end SingleWire
