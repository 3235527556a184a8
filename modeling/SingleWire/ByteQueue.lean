/-! A first-in first-out queue of bytes over one growing array. Removing bytes only
moves an index; the bytes before it are dropped from the array once they are more
than half of it, so that the work of moving pending bytes is paid for by removals.
Each operation is stated on the list of pending bytes. -/

namespace SingleWire

structure ByteQueue where
  storage : Array UInt8 := #[]
  /-- The position in `storage` of the first pending byte. -/
  head : Nat := 0
  /-- How many bytes have been removed so far. -/
  removed : Nat := 0
  head_le : head ≤ storage.size := by omega

namespace ByteQueue

/-- The bytes that wait in the queue, oldest first. -/
def pending (queue : ByteQueue) : List UInt8 := queue.storage.toList.drop queue.head

def size (queue : ByteQueue) : Nat := queue.storage.size - queue.head

def append (queue : ByteQueue) (bytes : List UInt8) : ByteQueue :=
  { queue with
    storage := queue.storage ++ bytes.toArray
    head_le := by
      have inside := queue.head_le
      simp only [Array.size_append]
      omega }

def get? (queue : ByteQueue) (position : Nat) : Option UInt8 := queue.storage[queue.head + position]?

/-- At most `count` pending bytes from position `start` on. -/
def slice (queue : ByteQueue) (start count : Nat) : List UInt8 :=
  (queue.storage.extract (queue.head + start) (queue.head + start + count)).toList

/-- The first byte from position `start` on that is not zero, with its position. -/
def firstNonzero? (queue : ByteQueue) (start : Nat) : Option (Nat × UInt8) :=
  if inside : queue.head + start < queue.storage.size then
    let byte := queue.storage[queue.head + start]
    if byte = 0 then queue.firstNonzero? (start + 1) else some (start, byte)
  else none
termination_by queue.storage.size - (queue.head + start)

/-- Drops the removed bytes from the array when they are more than half of it. -/
def compact (queue : ByteQueue) : ByteQueue :=
  if queue.head > queue.storage.size / 2 then
    { queue with storage := queue.storage.extract queue.head queue.storage.size, head := 0, head_le := Nat.zero_le _ }
  else queue

/-- Takes the first `count` bytes out of the queue, or all if there are fewer. -/
def remove (queue : ByteQueue) (count : Nat) : List UInt8 × ByteQueue :=
  let taken := min count queue.size
  (queue.slice 0 taken,
    compact
      { queue with
        head := queue.head + taken
        removed := queue.removed + taken
        head_le := by
          have inside := queue.head_le
          simp only [taken, size]
          omega })

@[simp] theorem length_pending (queue : ByteQueue) : queue.pending.length = queue.size := by
  simp [pending, size]

@[simp] theorem pending_append (queue : ByteQueue) (bytes : List UInt8) :
    (queue.append bytes).pending = queue.pending ++ bytes := by
  simp [append, pending, List.drop_append_of_le_length queue.head_le]

@[simp] theorem append_nil (queue : ByteQueue) : queue.append [] = queue := by
  simp [append]

@[simp] theorem append_append (queue : ByteQueue) (first second : List UInt8) :
    (queue.append first).append second = queue.append (first ++ second) := by
  simp [append]

theorem get?_eq_pending (queue : ByteQueue) (position : Nat) :
    queue.get? position = queue.pending[position]? := by
  simp [get?, pending]

theorem slice_eq_pending (queue : ByteQueue) (start count : Nat) :
    queue.slice start count = (queue.pending.drop start).take count := by
  simp [slice, pending, List.take_drop]

private theorem drop_pending {queue : ByteQueue} {start : Nat} (inside : queue.head + start < queue.storage.size) :
    queue.pending.drop start = queue.storage[queue.head + start] :: queue.pending.drop (start + 1) := by
  simp only [pending, List.drop_drop, ← Nat.add_assoc]
  rw [List.drop_eq_getElem_cons (by simpa using inside), Array.getElem_toList]

/-- The zeros from position `start` on are counted, and the byte after them is given. -/
theorem firstNonzero?_eq_pending (queue : ByteQueue) (start : Nat) :
    queue.firstNonzero? start = ((queue.pending.drop start).dropWhile (· = 0)).head?.map
      fun byte => (start + ((queue.pending.drop start).takeWhile (· = 0)).length, byte) := by
  fun_induction firstNonzero? queue start with
  | case1 start inside byte zero ih =>
    rw [ih, drop_pending inside]
    simp [byte, zero, Nat.add_assoc, Nat.add_comm 1]
  | case2 start inside byte other =>
    rw [drop_pending inside]
    simp [byte, other]
  | case3 start outside =>
    have empty : queue.pending.drop start = [] := by
      simp only [pending, List.drop_drop, List.drop_eq_nil_iff, Array.length_toList]
      omega
    simp [empty]

@[simp] theorem pending_compact (queue : ByteQueue) : queue.compact.pending = queue.pending := by
  unfold compact
  split
  · simp [pending, List.take_of_length_le]
  · rfl

@[simp] theorem removed_compact (queue : ByteQueue) : queue.compact.removed = queue.removed := by
  unfold compact
  split <;> rfl

theorem fst_remove (queue : ByteQueue) (count : Nat) : (queue.remove count).1 = queue.pending.take count := by
  simp [remove, slice_eq_pending, List.take_eq_take_iff]

@[simp] theorem pending_remove (queue : ByteQueue) (count : Nat) :
    (queue.remove count).2.pending = queue.pending.drop count := by
  rw [remove, pending_compact]
  simp only [pending, ← List.drop_drop]
  rw [← pending, List.drop_eq_drop_iff]
  simp

@[simp] theorem removed_remove (queue : ByteQueue) (count : Nat) :
    (queue.remove count).2.removed = queue.removed + min count queue.size := by
  simp [remove]

@[simp] theorem size_compact (queue : ByteQueue) : queue.compact.size = queue.size := by
  rw [← length_pending, pending_compact, length_pending]

@[simp] theorem size_remove (queue : ByteQueue) (count : Nat) :
    (queue.remove count).2.size = queue.size - count := by
  rw [← length_pending, pending_remove, List.length_drop, length_pending]

@[simp] theorem size_append (queue : ByteQueue) (bytes : List UInt8) :
    (queue.append bytes).size = queue.size + bytes.length := by
  rw [← length_pending, pending_append, List.length_append, length_pending]

theorem size_pos_of_get? {queue : ByteQueue} {position : Nat} {byte : UInt8}
    (found : queue.get? position = some byte) : position < queue.size := by
  rw [get?_eq_pending] at found
  simpa using (List.getElem?_eq_some_iff.mp found).1

end ByteQueue

end SingleWire
