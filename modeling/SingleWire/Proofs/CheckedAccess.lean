import SingleWire.Proofs.Course

/-! Where a decoder reads its queue it never looks or removes beyond the bytes at hand, and
where it counts the bytes of a tail no count leaves its word. The decoder below asks before
each access whether it is in range, and stops if one is not. From every state that operations
lead to it does the same as the decoder that does not ask. -/

namespace SingleWire
open Continuation

namespace ByteQueue

/-- The bytes from position `start` on. They may be none, but may not begin behind the last. -/
def from? (queue : ByteQueue) (start : Nat) : Option (List UInt8) :=
  if start ≤ queue.size then some (queue.pending.drop start) else none

/-- Takes out `count` bytes, which have to be there. The bytes in front of the new head are
dropped as in `compact`, so that it has to lie in the array. -/
def remove? (queue : ByteQueue) (count : Nat) : Option (List UInt8 × ByteQueue) :=
  if inside : queue.head + count ≤ queue.storage.size then
    some (queue.slice 0 count,
      compact { queue with head := queue.head + count, removed := queue.removed + count, head_le := inside })
  else none

theorem from?_of_le {queue : ByteQueue} {start : Nat} (inside : start ≤ queue.size) :
    queue.from? start = some (queue.pending.drop start) := if_pos inside

theorem remove?_of_le {queue : ByteQueue} {count : Nat} (inside : count ≤ queue.size) :
    queue.remove? count = some (queue.remove count) := by
  have within := queue.head_le
  have whole : queue.head + count ≤ queue.storage.size := by
    unfold size at inside
    omega
  have all : min count queue.size = count := Nat.min_eq_left inside
  simp only [remove?, dif_pos whole, remove, all]

end ByteQueue

/-- The packet of a tail, read from all its bytes. The flags are in the fifth. -/
def TailKind.packet? (width : TimestampWidth) (kind : TailKind) (value length : UInt64) (bytes : List UInt8) : Option Packet :=
  if kind = .globalLow ∧ length = 4 then bytes[4]?.map (kind.packet width value length)
  else some (kind.packet width value length 0)

theorem TailKind.packet?_of_length (width : TimestampWidth) (kind : TailKind) (value : UInt64) {length : UInt64}
    {bytes : List UInt8} (whole : bytes.length = 1 + length.toNat) :
    kind.packet? width value length bytes = some (kind.packet width value length (bytes.getLastD 0)) := by
  unfold packet?
  split
  next full =>
    rw [full.2] at whole
    have five : bytes.length = 5 := whole
    have last : bytes[4]? = some (bytes.getLastD 0) := by
      rw [List.getLastD_eq_getLast?, List.getLast?_eq_getElem?, five, List.getElem?_eq_getElem (by omega)]
      rfl
    rw [last]
    rfl
  next other =>
    cases kind with
    | globalLow =>
      have short : length ≠ 4 := fun full => other ⟨rfl, full⟩
      simp only [packet, if_neg short]
    | localTimestamp | globalHigh | extension => rfl

namespace Framer

def checkedDeliver (framer : Framer) (count : Nat) (packet? : List UInt8 → Option Packet) :
    Option (Option (Except Fault Packet) × Framer) :=
  (framer.queue.remove? count).bind fun removed =>
    (packet? removed.1).map fun packet => (some (.ok packet), { framer with queue := removed.2, started := none })

def checkedDiscard (framer : Framer) (count : Nat) (cause : Malformation) : Option (Option (Except Fault Packet) × Framer) :=
  (framer.queue.remove? count).map fun removed =>
    (some (.error { offset := framer.queue.removed, bytes := removed.1, cause }),
      { framer with queue := removed.2, started := none })

def checkedResume (framer : Framer) : Started → Option (Option (Except Fault Packet) × Framer)
  | .zeroRun zeros =>
    (framer.queue.from? zeros).bind fun rest =>
      match rest.findIdx? (· ≠ 0) with
      | none => some (framer.await (.zeroRun framer.queue.size))
      | some more =>
        (framer.queue.get? (zeros + more)).bind fun terminator =>
          if terminator = syncEnd ∧ syncMinimum ≤ zeros + more then
            framer.checkedDeliver (zeros + more + 1) fun _ => some (.sync (zeros + more))
          else framer.checkedDiscard (zeros + more + 1) (.brokenSync (zeros + more) terminator)
  | .payload kind size =>
    if framer.queue.size < 1 + size.bytes then some (framer.await (.payload kind size))
    else framer.checkedDeliver (1 + size.bytes) fun bytes => bytes.tail?.map (kind.packet size)
  | .tail kind field =>
    (framer.queue.from? (1 + field.length.toNat)).bind fun rest =>
      (field.resume rest).bind fun field =>
        match field.ended? with
        | none => some (framer.await (.tail kind field))
        | some length =>
          framer.checkedDeliver (1 + length.toNat) (kind.packet? framer.options.timestampWidth field.value length)

def checkedStart (framer : Framer) (byte : UInt8) : Option (Option (Except Fault Packet) × Framer) :=
  match Header.ofByte? byte with
  | none => framer.checkedDiscard 1 (.reservedHeader byte)
  | some (.whole packet) => framer.checkedDeliver 1 fun _ => some packet
  | some .zeroRun => framer.checkedResume (.zeroRun 0)
  | some (.payload kind size) => framer.checkedResume (.payload kind size)
  | some (.tail kind) => framer.checkedResume (.tail kind (Field.new (kind.cap framer.options.timestampWidth)))

/-- The next packet or fault with all accesses in range. A packet in progress is taken up
without a look at whether there are any bytes. -/
def checkedNext (framer : Framer) : Option (Option (Except Fault Packet) × Framer) :=
  match framer.started with
  | some started => framer.checkedResume started
  | none =>
    match framer.queue.get? 0 with
    | none => some (none, framer)
    | some byte => framer.checkedStart byte

variable {framer : Framer}

private theorem checkedDeliver_of_le {count : Nat} {packet? : List UInt8 → Option Packet} {packet : List UInt8 → Packet}
    (inside : count ≤ framer.queue.size)
    (made : packet? (framer.queue.pending.take count) = some (packet (framer.queue.pending.take count))) :
    framer.checkedDeliver count packet? = some (framer.deliver count packet) := by
  rw [← ByteQueue.fst_remove] at made
  rw [checkedDeliver, ByteQueue.remove?_of_le inside, Option.bind_some, made]
  rfl

private theorem checkedDiscard_of_le {count : Nat} (inside : count ≤ framer.queue.size) (cause : Malformation) :
    framer.checkedDiscard count cause = some (framer.discard count cause) := by
  rw [checkedDiscard, ByteQueue.remove?_of_le inside]
  rfl

private theorem checkedResume_zeroRun {zeros : Nat} (inside : zeros ≤ framer.queue.size) :
    framer.checkedResume (.zeroRun zeros) = some (framer.resume (.zeroRun zeros)) := by
  have size : (framer.queue.pending.drop zeros).length = framer.queue.size - zeros := by
    rw [List.length_drop, ByteQueue.length_pending]
  have same (more : Nat) : framer.queue.get? (zeros + more) = (framer.queue.pending.drop zeros)[more]? := by
    rw [ByteQueue.get?_eq_pending, List.getElem?_drop]
  rw [checkedResume, ByteQueue.from?_of_le inside, Option.bind_some, resume, ByteQueue.firstNonzero?_eq_pending]
  generalize framer.queue.pending.drop zeros = rest at size same ⊢
  cases found : rest.findIdx? (· ≠ 0) with
  | none =>
    have empty : rest.dropWhile (· = 0) = [] := by
      apply List.dropWhile_eq_nil_iff.mpr
      intro byte member
      have zero := List.findIdx?_eq_none_iff.mp found byte member
      simpa using zero
    rw [empty]
    rfl
  | some more =>
    obtain ⟨within, index⟩ := List.findIdx?_eq_some_iff_findIdx_eq.mp found
    have other : (fun byte : UInt8 => !decide (byte = 0)) = fun byte => decide (byte ≠ 0) := by simp
    have run : (rest.takeWhile (· = 0)).length = more := by
      rw [List.takeWhile_eq_take_findIdx_not, other, index, List.length_take_of_le (Nat.le_of_lt within)]
    have ending : (rest.dropWhile (· = 0)).head? = some rest[more] := by
      rw [List.dropWhile_eq_drop_findIdx_not, other, index, List.head?_drop, List.getElem?_eq_getElem within]
    simp only [same, List.getElem?_eq_getElem within, ending, run, Option.bind_some, Option.map_some]
    split
    · exact checkedDeliver_of_le (by omega) rfl
    · exact checkedDiscard_of_le (by omega) _

private theorem checkedResume_payload (kind : SourceKind) (size : PayloadSize) :
    framer.checkedResume (.payload kind size) = some (framer.resume (.payload kind size)) := by
  simp only [checkedResume, resume]
  split
  · rfl
  next enough =>
    have inside : 1 + size.bytes ≤ framer.queue.size := Nat.not_lt.mp enough
    apply checkedDeliver_of_le inside
    rw [← ByteQueue.length_pending] at inside
    obtain ⟨header, rest, front⟩ : ∃ header rest, framer.queue.pending.take (1 + size.bytes) = header :: rest := by
      apply List.exists_cons_of_length_pos
      rw [List.length_take_of_le inside]
      omega
    rw [front]
    rfl

/-- A field goes on behind the bytes that it has taken, and ends within the queue. -/
private theorem checkedResume_tail {byte : UInt8} {kind : TailKind} {field : Field} (read : List UInt8) {rest : List UInt8}
    (front : framer.queue.pending = byte :: (read ++ rest))
    (unended : split? (kind.cap framer.options.timestampWidth).toNat read = none)
    (resumed : (Field.new (kind.cap framer.options.timestampWidth)).resume read = some field) :
    framer.checkedResume (.tail kind field) = some (framer.resume (.tail kind field)) := by
  have positive := Grammar.cap_pos framer.options.timestampWidth kind
  have few := kind.cap_le framer.options.timestampWidth
  have size : framer.queue.size = 1 + (read ++ rest).length := by
    rw [← ByteQueue.length_pending, front, List.length_cons, Nat.add_comm]
  have seen : field.length.toNat = read.length := (Field.waiting_of_resumed positive few unended resumed).length
  have inside : 1 + field.length.toNat ≤ framer.queue.size := by
    rw [seen, size, List.length_append]
    omega
  have unseen : framer.queue.pending.drop (1 + field.length.toNat) = rest := by
    rw [seen, front, Nat.add_comm, List.drop_succ_cons, List.drop_left' rfl]
  obtain ⟨after, all⟩ := Field.exists_resume_new positive few (read ++ rest)
  have late := (resume_slice read front positive few unended resumed).trans all
  have next : field.resume rest = some after := by rwa [Field.resume_append, resumed, Option.bind_some] at all
  rw [checkedResume, ByteQueue.from?_of_le inside, Option.bind_some, unseen, next, Option.bind_some, resume, late,
    Option.getD_some]
  cases ended : split? (kind.cap framer.options.timestampWidth).toNat (read ++ rest) with
  | none =>
    have going := (Field.waiting_of_resumed positive few ended all).going
    simp only [Field.ended?, if_neg (Bool.eq_false_iff.mp going)]
  | some parts =>
    obtain ⟨whole, left⟩ := parts
    obtain ⟨other, same, length, -⟩ := Field.resume_ended positive few ended
    cases same.symm.trans all
    obtain ⟨length, complete, counted⟩ := Option.map_eq_some_iff.mp length
    have fits : whole.length ≤ (read ++ rest).length := by
      rw [(split?_eq_some ended).1, List.length_append]
      exact Nat.le_add_right _ _
    have within : 1 + length.toNat ≤ framer.queue.size := by omega
    simp only [complete]
    apply checkedDeliver_of_le within
    apply TailKind.packet?_of_length
    rw [List.length_take_of_le]
    rwa [ByteQueue.length_pending]

theorem checkedResume_of_coherent {started : Started}
    (coherent : started.Coherent framer.options.timestampWidth framer.queue.pending) :
    framer.checkedResume started = some (framer.resume started) := by
  generalize front : framer.queue.pending = bytes at coherent
  cases coherent with
  | zeroRun zeros rest =>
    apply checkedResume_zeroRun
    rw [← ByteQueue.length_pending, front, List.length_append, List.length_replicate]
    exact Nat.le_add_right _ _
  | payload named rest => exact checkedResume_payload _ _
  | tail named read rest unended resumed => exact checkedResume_tail read front unended resumed

private theorem checkedStart_of_front {byte : UInt8} {rest : List UInt8} (front : framer.queue.pending = byte :: rest) :
    framer.checkedStart byte = some (framer.start byte) := by
  have inside : 1 ≤ framer.queue.size := by
    rw [← ByteQueue.length_pending, front]
    exact Nat.succ_pos _
  unfold checkedStart start
  cases Header.ofByte? byte with
  | none => exact checkedDiscard_of_le inside _
  | some header =>
    cases header with
    | zeroRun => exact checkedResume_zeroRun (Nat.zero_le _)
    | whole packet => exact checkedDeliver_of_le inside rfl
    | payload kind size => exact checkedResume_payload kind size
    | tail kind => exact checkedResume_tail [] front rfl rfl

theorem checkedNext_of_coherent (coherent : framer.Coherent) : framer.checkedNext = some framer.next := by
  cases front : framer.queue.pending with
  | nil =>
    rw [checkedNext, coherent.started_of_nil front, next, ByteQueue.get?_eq_pending, front]
    rfl
  | cons byte rest =>
    rw [checkedNext, next, ByteQueue.get?_eq_pending, front]
    cases held : framer.started with
    | none => exact checkedStart_of_front front
    | some started => exact checkedResume_of_coherent (coherent started held)

end Framer

namespace Decoder
open Grammar Event

variable {σ : Type} [ByteSource σ] {decoder : Decoder σ}

def checkedPull (decoder : Decoder σ) : Option (Pull σ) :=
  match decoder.framer.checkedNext with
  | none => none
  | some (some (.ok packet), framer) =>
    some { delivery := some (.ok packet), log := [.decoded packet], decoder := { decoder with framer } }
  | some (some (.error fault), framer) =>
    some { delivery := some (.error (.malformed fault)), log := [.skipped fault], decoder := { decoder with framer } }
  | some (none, framer) =>
    let current := { decoder with framer }
    match _filled : current.fill with
    | (.ok true, log, supplied) => supplied.checkedPull.map fun rest => { rest with log := log ++ rest.log }
    | (.ok false, log, supplied) => some { delivery := none, log, decoder := supplied }
    | (.error failure, log, supplied) => some { delivery := some (.error (.source failure)), log, decoder := supplied }
termination_by decoder.supply
decreasing_by
  have less := (supply_fill current).2.1
  rw [_filled] at less
  exact less rfl

theorem checkedPull_of_coherent (coherent : decoder.Coherent) : decoder.checkedPull = some decoder.pull := by
  fun_induction pull decoder with
  | case1 decoder framer current packet cut | case2 decoder framer current fault cut =>
    rw [checkedPull, Framer.checkedNext_of_coherent coherent, cut]
  | case3 decoder framer current log supplied filled rest waiting ih =>
    have later := coherent_of_fill coherent waiting filled
    rw [checkedPull, Framer.checkedNext_of_coherent coherent, waiting]
    simp only
    rw [filled]
    simp only [ih later, Option.map_some, rest]
  | case4 decoder framer current log supplied filled waiting =>
    rw [checkedPull, Framer.checkedNext_of_coherent coherent, waiting]
    simp only
    rw [filled]
  | case5 decoder framer current failure log supplied filled waiting =>
    rw [checkedPull, Framer.checkedNext_of_coherent coherent, waiting]
    simp only
    rw [filled]

/-- What is remembered of a packet in progress points into the bytes at hand: so many of the
first are zeros, or the field has taken those behind the header and has not ended. -/
structure Anchored (decoder : Decoder σ) : Prop where
  head : decoder.framer.queue.head ≤ decoder.framer.queue.storage.size
  zeroRun : ∀ zeros, decoder.framer.started = some (.zeroRun zeros) →
    zeros ≤ decoder.buffered ∧ decoder.pending.take zeros = List.replicate zeros 0
  tail : ∀ kind field, decoder.framer.started = some (.tail kind field) →
    field.complete = false ∧ 1 + field.length.toNat ≤ decoder.buffered ∧
    (Field.new (kind.cap decoder.width)).resume (decoder.pending.tail.take field.length.toNat) = some field

omit [ByteSource σ] in
theorem Coherent.anchored (coherent : decoder.Coherent) : decoder.Anchored := by
  refine ⟨decoder.framer.queue.head_le, ?_, ?_⟩
  · intro zeros held
    have front : Started.Coherent decoder.width (.zeroRun zeros) decoder.pending := coherent _ held
    rw [← length_pending]
    generalize decoder.pending = bytes at front ⊢
    cases front with
    | zeroRun zeros rest =>
      refine ⟨?_, List.take_left' (List.length_replicate ..)⟩
      rw [List.length_append, List.length_replicate]
      exact Nat.le_add_right _ _
  · intro kind field held
    have front : Started.Coherent decoder.width (.tail kind field) decoder.pending := coherent _ held
    rw [← length_pending]
    generalize decoder.pending = bytes at front ⊢
    cases front with
    | tail named read rest unended resumed =>
      have waiting := Field.waiting_of_resumed (cap_pos decoder.width kind) (kind.cap_le decoder.width) unended resumed
      rw [waiting.length, List.tail_cons, List.take_left' rfl, List.length_cons, List.length_append]
      exact ⟨waiting.going, by omega, resumed⟩

/-- No operations lead to an access out of range: every pull in their course does the same
with all accesses checked, and what is remembered for later ones points into the queue. -/
theorem accesses_in_range (options : Options) (source : Option σ) (operations : List Operation) :
    let start : Decoder σ := source.elim (new options) (withSource · options)
    (∀ puller ∈ start.pullers operations,
      puller.checkedPull = some puller.pull ∧ puller.Anchored ∧ ∀ call ∈ puller.calls, call.caller.Anchored) ∧
    (start.perform operations).Anchored := by
  intro start
  obtain ⟨pulling, last⟩ := coherent_pullers options source operations
  refine ⟨?_, last.1.anchored⟩
  intro puller member
  have coherent := (pulling puller member).1
  refine ⟨checkedPull_of_coherent coherent, coherent.anchored, ?_⟩
  intro call called
  exact ((pulls_pull coherent).caller call called).1.anchored

end Decoder

end SingleWire
