import SingleWire.ByteSource

/-! Streams that are read in blocks, such as files and pipes, and the byte source made
of one. A read that gives no bytes is at the end of the stream; a read that was
interrupted is repeated; one that would block has nothing for now. -/

namespace SingleWire

/-- What a read takes from the supply of its stream. Reads that are repeated or put
off take nothing. -/
def readCost : Except Failure (List UInt8) → Nat
  | .ok bytes => bytes.length
  | .error failure => if failure.kind = .interrupted ∨ failure.kind = .wouldBlock then 0 else 1

/-- A stream of finitely many bytes, interruptions and failures, read at most so many
bytes at a time. -/
class Reader (ρ : Type) where
  read : ρ → Nat → Except Failure (List UInt8) × ρ
  /-- A bound on the bytes and failures still to come. -/
  supply : ρ → Nat
  /-- A bound on the interruptions in a row. -/
  interruptions : ρ → Nat
  length_read (reader : ρ) (limit : Nat) (bytes : List UInt8) :
    (read reader limit).1 = .ok bytes → bytes.length ≤ limit
  supply_read (reader : ρ) (limit : Nat) :
    supply (read reader limit).2 + readCost (read reader limit).1 ≤ supply reader
  interruptions_read (reader : ρ) (limit : Nat) (failure : Failure) :
    (read reader limit).1 = .error failure → failure.kind = .interrupted →
      interruptions (read reader limit).2 < interruptions reader

/-- A byte source that reads a stream. A stream that is still being written has no end
for good: there the end counts as nothing for now. -/
structure BlockSource (ρ : Type) where
  reader : ρ
  ignoreEnd : Bool := false

namespace BlockSource

/-- The most bytes that one read asks for. -/
def blockSize : Nat := 256

variable {ρ : Type} [Reader ρ]

def pull (source : BlockSource ρ) : Except Failure Pulled × BlockSource ρ :=
  match _answer : Reader.read source.reader blockSize with
  | (.ok bytes, reader) =>
    let pulled : Pulled := match bytes with
      | [] => if source.ignoreEnd then .pending else .exhausted
      | bytes => .data bytes
    (.ok pulled, { source with reader })
  | (.error failure, reader) =>
    if _interrupted : failure.kind = .interrupted then pull { source with reader }
    else if failure.kind = .wouldBlock then (.ok .pending, { source with reader })
    else (.error failure, { source with reader })
termination_by Reader.interruptions source.reader
decreasing_by
  have less := Reader.interruptions_read source.reader blockSize failure (by rw [_answer]) _interrupted
  rw [_answer] at less
  exact less

theorem supply_pull (source : BlockSource ρ) :
    Reader.supply source.pull.2.reader + Pulled.cost source.pull.1 ≤ Reader.supply source.reader := by
  fun_induction pull source with
  | case1 source bytes reader answer pulled =>
    have bound := Reader.supply_read source.reader blockSize
    simp only [answer, readCost] at bound
    cases bytes with
    | nil => cases ending : source.ignoreEnd <;> simp_all [pulled, Pulled.cost]
    | cons byte rest => exact bound
  | case2 source failure reader answer interrupted ih =>
    have bound := Reader.supply_read source.reader blockSize
    simp only [answer, readCost] at bound
    exact Nat.le_trans ih (Nat.le_trans (Nat.le_add_right _ _) bound)
  | case3 source failure reader answer interrupted blocked =>
    have bound := Reader.supply_read source.reader blockSize
    simp only [answer, readCost] at bound
    exact Nat.le_trans (Nat.le_add_right _ _) bound
  | case4 source failure reader answer interrupted blocked =>
    have bound := Reader.supply_read source.reader blockSize
    simpa only [answer, readCost, interrupted, blocked, or_self, ite_false, Pulled.cost] using bound

instance : ByteSource (BlockSource ρ) where
  pull := pull
  supply source := Reader.supply source.reader
  supply_pull := supply_pull

end BlockSource

/-- A stream over bytes in memory, with a position that may be set anywhere. At and
beyond the last byte there is nothing to read, and the position stays. -/
structure Cursor where
  bytes : Array UInt8
  position : Nat := 0

namespace Cursor

def read (cursor : Cursor) (limit : Nat) : Except Failure (List UInt8) × Cursor :=
  let block := (cursor.bytes.extract cursor.position (cursor.position + limit)).toList
  (.ok block, { cursor with position := cursor.position + block.length })

def seek (cursor : Cursor) (position : Nat) : Cursor := { cursor with position }

instance : Reader Cursor where
  read := read
  supply cursor := cursor.bytes.size - cursor.position
  interruptions _ := 0
  length_read cursor limit bytes found := by
    simp only [read, Except.ok.injEq] at found
    simp only [← found, Array.length_toList, Array.size_extract]
    omega
  supply_read cursor limit := by
    simp only [read, readCost, Array.length_toList, Array.size_extract]
    omega
  interruptions_read cursor limit failure found := by simp [read] at found

end Cursor

end SingleWire
