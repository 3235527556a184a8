import SingleWire.Proofs.Calls

/-! The queue of a decoder against a ledger of what goes through it. Bytes leave it in the
order in which they came, and the bytes that compactions move are paid for by removals. -/

namespace SingleWire

namespace ByteQueue

variable (queue : ByteQueue) (count : Nat)

/-- How many of the bytes that stay have another place in the array after `count` have been
removed. They begin at the head, so all or none of them. -/
def moved : Nat :=
  if (queue.remove count).2.head = queue.head + min count queue.size then 0 else (queue.remove count).2.size

def dropped : Nat := queue.storage.size - (queue.remove count).2.storage.size

private theorem remove_cases :
    let left := (queue.remove count).2
    let head := queue.head + min count queue.size
    (head ≤ queue.storage.size / 2 ∧ left.head = head ∧ left.storage = queue.storage) ∨
    (queue.storage.size / 2 < head ∧ left.head = 0 ∧ left.storage = queue.storage.extract head queue.storage.size) := by
  intro left head
  by_cases more : head > queue.storage.size / 2
  · refine .inr ⟨more, ?_, ?_⟩
    all_goals
      simp only [left, remove, compact]
      rw [if_pos more]
  · refine .inl ⟨Nat.not_lt.mp more, ?_, ?_⟩
    all_goals
      simp only [left, remove, compact]
      rw [if_neg more]

private theorem storage_remove :
    (queue.remove count).2.storage.toList = queue.storage.toList.drop (queue.dropped count) := by
  have inside := queue.head_le
  unfold dropped
  rcases queue.remove_cases count with ⟨-, -, storage⟩ | ⟨-, -, storage⟩
  · rw [storage, Nat.sub_self, List.drop_zero]
  · have shorter : queue.storage.size - (queue.storage.extract (queue.head + min count queue.size) queue.storage.size).size =
        queue.head + min count queue.size := by
      simp only [Array.size_extract, size]
      omega
    rw [storage, shorter]
    simp [List.take_of_length_le]

private theorem moved_lt_dropped (compacted : 0 < queue.dropped count) : queue.moved count < queue.dropped count := by
  have pending : queue.size = queue.storage.size - queue.head := rfl
  have inside := queue.head_le
  unfold moved
  unfold dropped at compacted ⊢
  rw [size_remove]
  rcases queue.remove_cases count with ⟨-, -, storage⟩ | ⟨more, -, storage⟩
  · rw [storage] at compacted
    omega
  · rw [storage, Array.size_extract]
    split <;> omega

/-- The bytes before the head pay for those that are moved when they are dropped. -/
private theorem moved_add_head_le :
    queue.moved count + (queue.remove count).2.head ≤ queue.head + min count queue.size := by
  have pending : queue.size = queue.storage.size - queue.head := rfl
  have inside := queue.head_le
  unfold moved
  rw [size_remove]
  rcases queue.remove_cases count with ⟨-, head, -⟩ | ⟨more, head, -⟩
  · rw [if_pos head, head, Nat.zero_add]
  · rw [head]
    split <;> omega

/-- Bytes that have been removed are at most half of the array. -/
def Slack : Prop := queue.head ≤ queue.storage.size / 2

private theorem slack_remove : (queue.remove count).2.Slack := by
  unfold Slack
  rcases queue.remove_cases count with ⟨half, head, storage⟩ | ⟨-, head, -⟩
  · rwa [head, storage]
  · rw [head]
    exact Nat.zero_le _

variable {queue}

private theorem Slack.append (slack : queue.Slack) (bytes : List UInt8) : (queue.append bytes).Slack := by
  unfold Slack at slack ⊢
  simp only [ByteQueue.append, Array.size_append]
  omega

private theorem Slack.head_le_pending (slack : queue.Slack) : queue.head ≤ queue.pending.length := by
  unfold Slack at slack
  simp only [length_pending, size]
  omega

private theorem Slack.storage_eq_empty (slack : queue.Slack) (empty : queue.pending = []) : queue.storage = #[] := by
  have none : queue.size = 0 := by rw [← length_pending, empty, List.length_nil]
  have inside := queue.head_le
  unfold Slack at slack
  unfold size at none
  apply Array.eq_empty_of_size_eq_zero
  omega

end ByteQueue

inductive QueueOperation where
  | append (bytes : List UInt8)
  | remove (count : Nat)
  | fill

variable {σ : Type} [ByteSource σ]

def Decoder.supplied (decoder : Decoder σ) : List UInt8 := decoder.call?.elim [] fun call => Pulled.bytes call.answer

private theorem Decoder.queue_fill (decoder : Decoder σ) :
    decoder.fill.2.2.framer.queue = decoder.framer.queue.append decoder.supplied := by
  by_cases unsupplied : decoder.Unsupplied
  · rw [supplied, call?_of_unsupplied unsupplied, fill_of_unsupplied unsupplied]
    exact (ByteQueue.append_nil _).symm
  · obtain ⟨going, source, present⟩ := present_of_supplied unsupplied
    rw [supplied, call?_of_present decoder going present, fill_of_present decoder going present]
    exact congrArg Framer.queue (framer_told _ _ _)

/-- A decoder and all that has gone through its queue. -/
structure Ledger (σ : Type) where
  decoder : Decoder σ
  received : List UInt8 := []
  returned : List UInt8 := []
  /-- How often a pending byte has been moved in a compaction. -/
  moved : Nat := 0

namespace Ledger

def queue (ledger : Ledger σ) : ByteQueue := ledger.decoder.framer.queue

def enter (ledger : Ledger σ) : QueueOperation → Ledger σ
  | .append bytes => { ledger with decoder := ledger.decoder.feed bytes, received := ledger.received ++ bytes }
  | .remove count =>
    let (bytes, queue) := ledger.queue.remove count
    { ledger with
      decoder := { ledger.decoder with framer := { ledger.decoder.framer with queue } }
      returned := ledger.returned ++ bytes
      moved := ledger.moved + ledger.queue.moved count }
  | .fill =>
    { ledger with decoder := ledger.decoder.fill.2.2, received := ledger.received ++ ledger.decoder.supplied }

/-- The bytes before the head have been removed, and have not paid for a compaction yet. -/
structure Balanced (ledger : Ledger σ) : Prop where
  bytes : ledger.received = ledger.returned ++ ledger.queue.pending
  removed : ledger.queue.removed = ledger.returned.length
  slack : ledger.queue.Slack
  paid : ledger.moved + ledger.queue.head ≤ ledger.queue.removed

variable {ledger : Ledger σ}

omit [ByteSource σ] in
private theorem Balanced.arrive (balanced : ledger.Balanced) {decoder : Decoder σ} {bytes : List UInt8}
    (grown : decoder.framer.queue = ledger.queue.append bytes) :
    ({ ledger with decoder, received := ledger.received ++ bytes } : Ledger σ).Balanced := by
  refine ⟨?_, ?_, ?_, ?_⟩
  · show ledger.received ++ bytes = ledger.returned ++ decoder.framer.queue.pending
    rw [grown, ByteQueue.pending_append, balanced.bytes, List.append_assoc]
  · exact (congrArg ByteQueue.removed grown).trans balanced.removed
  · show decoder.framer.queue.Slack
    rw [grown]
    exact balanced.slack.append bytes
  · show ledger.moved + decoder.framer.queue.head ≤ decoder.framer.queue.removed
    rw [grown]
    exact balanced.paid

private theorem Balanced.remove (balanced : ledger.Balanced) (count : Nat) : (ledger.enter (.remove count)).Balanced := by
  have paid := balanced.paid
  have cost := ledger.queue.moved_add_head_le count
  refine ⟨?_, ?_, ?_, ?_⟩
  · show ledger.received = (ledger.returned ++ (ledger.queue.remove count).1) ++ (ledger.queue.remove count).2.pending
    rw [ByteQueue.fst_remove, ByteQueue.pending_remove, List.append_assoc, List.take_append_drop, balanced.bytes]
  · show (ledger.queue.remove count).2.removed = (ledger.returned ++ (ledger.queue.remove count).1).length
    rw [ByteQueue.removed_remove, balanced.removed, List.length_append, ByteQueue.fst_remove, List.length_take,
      ByteQueue.length_pending]
  · exact ledger.queue.slack_remove count
  · show ledger.moved + ledger.queue.moved count + (ledger.queue.remove count).2.head ≤ (ledger.queue.remove count).2.removed
    rw [ByteQueue.removed_remove]
    omega

private theorem Balanced.enter (balanced : ledger.Balanced) (operation : QueueOperation) :
    (ledger.enter operation).Balanced := by
  cases operation with
  | append bytes => exact balanced.arrive rfl
  | remove count => exact balanced.remove count
  | fill => exact balanced.arrive ledger.decoder.queue_fill

private theorem Balanced.run (balanced : ledger.Balanced) (operations : List QueueOperation) :
    (operations.foldl Ledger.enter ledger).Balanced := by
  induction operations generalizing ledger with
  | nil => exact balanced
  | cons operation later ih => exact ih (balanced.enter operation)

omit [ByteSource σ] in
private theorem balanced_start (options : Options) (source : Option σ) :
    ({ decoder := source.elim (.new options) (.withSource · options) } : Ledger σ).Balanced := by
  cases source with
  | none => exact ⟨rfl, rfl, Nat.zero_le _, Nat.le_refl 0⟩
  | some source => exact ⟨rfl, rfl, Nat.zero_le _, Nat.le_refl 0⟩

/-- A queue gives back the bytes that it has received, in their order, and keeps at most as many
of those that it has given back as are pending. Compactions drop more than they move, and all of
them together have moved no more bytes than have been given back. -/
theorem queue_of_operations (options : Options) (source : Option σ) (operations : List QueueOperation) :
    let start : Decoder σ := source.elim (.new options) (.withSource · options)
    let ledger := operations.foldl enter { decoder := start }
    let queue := ledger.queue
    ledger.received = ledger.returned ++ queue.pending ∧
    queue.removed = ledger.returned.length ∧
    (∀ count, (queue.remove count).1 = queue.pending.take (min count queue.pending.length) ∧
      (queue.remove count).2.pending = queue.pending.drop (min count queue.pending.length)) ∧
    queue.head ≤ queue.storage.size / 2 ∧
    queue.head ≤ queue.pending.length ∧
    (queue.pending = [] → queue.storage = #[]) ∧
    (∀ count, (queue.remove count).2.storage.toList = queue.storage.toList.drop (queue.dropped count) ∧
      (0 < queue.dropped count → queue.moved count < queue.dropped count)) ∧
    ledger.moved ≤ queue.removed := by
  intro start ledger queue
  have balanced : ledger.Balanced := (balanced_start options source).run operations
  refine ⟨balanced.bytes, balanced.removed, ?_, balanced.slack, balanced.slack.head_le_pending,
    balanced.slack.storage_eq_empty, ?_, Nat.le_of_add_right_le balanced.paid⟩
  · intro count
    refine ⟨?_, ?_⟩
    · rw [ByteQueue.fst_remove, List.take_eq_take_iff]
      simp
    · rw [ByteQueue.pending_remove, List.drop_eq_drop_iff]
      simp
  · intro count
    exact ⟨queue.storage_remove count, queue.moved_lt_dropped count⟩

end Ledger

end SingleWire
