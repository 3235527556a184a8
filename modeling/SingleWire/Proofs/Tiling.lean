import SingleWire.Proofs.History

/-! Where the packets and faults of a stream lie in it. Those that have been returned fill
the stream up to the offset of the decoder, one behind the other, and the bytes at hand
are the rest. -/

namespace SingleWire

namespace Grammar
open Continuation

/-- A tail ends at its first byte with a clear top bit, or at the cap. -/
def tailLength (cap : Nat) (bytes : List UInt8) : Nat := ((bytes.take (cap - 1)).takeWhile (128 ≤ ·.toNat)).length + 1

/-- How many bytes a packet or a fault takes at the front of a stream. Other errors take none. -/
def wireLength (width : TimestampWidth) (stream : List UInt8) : Except DecodeError Packet → Nat
  | .ok (.sync zeros) => zeros + 1
  | .ok .overflow => 1
  | .ok (.localTimestamp .short _ _) => 1
  | .ok (.localTimestamp .long _ _) => 1 + tailLength 4 stream.tail
  | .ok (.globalLow _ _ _) => 1 + tailLength 4 stream.tail
  | .ok (.globalHigh _) => 1 + tailLength width.highTailCap stream.tail
  | .ok (.extension _ _) => if stream.headD 0 < 0x80 then 1 else 1 + tailLength 4 stream.tail
  | .ok (.stimulus _ size _) => 1 + size.bytes
  | .ok (.hardware _ size _) => 1 + size.bytes
  | .error (.malformed fault) =>
    match fault.cause with
    | .reservedHeader _ => 1
    | .brokenSync zeros _ => zeros + 1
    | _ => 0
  | .error (.source _) => 0

/-- Cuts off the bytes of packets and faults that follow each other. -/
def blocks (width : TimestampWidth) : (stream : List UInt8) → List (Except DecodeError Packet) → List (List UInt8)
  | _, [] => []
  | stream, item :: later =>
    let length := wireLength width stream item
    stream.take length :: blocks width (stream.drop length) later

private theorem length_of_split? {cap : Nat} {bytes field rest : List UInt8} (ended : split? cap bytes = some (field, rest)) :
    field.length = tailLength cap bytes := by
  induction bytes generalizing cap field rest with
  | nil => cases ended
  | cons byte bytes ih =>
    simp only [split?] at ended
    split at ended
    next last =>
      cases ended
      rcases last with reached | clear
      · simp [tailLength, Nat.sub_eq_zero_of_le reached]
      · rw [tailLength]
        cases cap - 1 with
        | zero => rfl
        | succ others => simp [Nat.not_le.mpr clear]
    next more =>
      obtain ⟨marked, going⟩ := not_or.mp more
      obtain ⟨⟨group, left⟩, found, same⟩ := Option.map_eq_some_iff.mp ended
      cases same
      obtain ⟨others, rfl⟩ := Nat.exists_eq_add_of_le' (Nat.not_le.mp marked)
      rw [List.length_cons, ih found]
      simp [tailLength, Nat.not_lt.mp going]

variable {width : TimestampWidth} {stream rest : List UInt8} {frame : Frame}

private theorem wireLength_zeroRun {zeros : Nat} (found : zeroRun zeros rest = some frame) (offset : Nat) (bytes : List UInt8) :
    wireLength width stream (Decoder.delivered (frame.item offset bytes)) = frame.length := by
  cases rest with
  | nil => cases found
  | cons terminator rest =>
    simp only [zeroRun] at found
    split at found
    · cases found
      rfl
    · cases found
      rfl

private theorem wireLength_tail {cap : Nat} {packet : List UInt8 → Nat → Packet} (found : tail cap rest packet = some frame)
    (long : ∀ field value, wireLength width stream (.ok (packet field value)) = 1 + tailLength cap rest)
    (offset : Nat) (bytes : List UInt8) :
    wireLength width stream (Decoder.delivered (frame.item offset bytes)) = frame.length := by
  obtain ⟨⟨field, left⟩, ended, rfl⟩ := Option.map_eq_some_iff.mp found
  exact (long _ _).trans (congrArg (1 + ·) (length_of_split? ended).symm)

private theorem wireLength_payload {size : PayloadSize} {packet : PayloadSize → List UInt8 → Packet}
    (found : payload size rest packet = some frame)
    (sized : ∀ payload, wireLength width stream (.ok (packet size payload)) = 1 + size.bytes)
    (offset : Nat) (bytes : List UInt8) :
    wireLength width stream (Decoder.delivered (frame.item offset bytes)) = frame.length := by
  unfold payload at found
  split at found
  · cases found
  · cases found
    exact sized _

private theorem wireLength_source {header : Nat} (found : source header rest = some frame) (offset : Nat) (bytes : List UInt8) :
    wireLength width stream (Decoder.delivered (frame.item offset bytes)) = frame.length := by
  have sized (size : PayloadSize) (payload : List UInt8) : wireLength width stream
      (.ok (if header / 4 % 2 = 0 then .stimulus (header / 8).toUInt8 size payload
        else .hardware (header / 8).toUInt8 size payload)) = 1 + size.bytes := by
    split <;> rfl
  unfold source at found
  simp only at found
  split at found
  · exact wireLength_payload found (sized _) offset bytes
  · exact wireLength_payload found (sized _) offset bytes
  · exact wireLength_payload found (sized _) offset bytes
  · cases found
    rfl

/-- A frame has the length that its packet or fault gives it. -/
theorem wireLength_frame (found : frame? width stream = some frame) (offset : Nat) (bytes : List UInt8) :
    wireLength width stream (Decoder.delivered (frame.item offset bytes)) = frame.length := by
  cases stream with
  | nil => cases found
  | cons byte rest =>
    unfold frame? at found
    simp only at found
    -- One case for each kind of header, in the order in which they are told apart.
    split at found
    · exact wireLength_zeroRun found offset bytes
    split at found
    · cases found
      rfl
    split at found
    · cases found
      rfl
    split at found
    · exact wireLength_tail found (fun _ _ => rfl) offset bytes
    split at found
    · refine wireLength_tail found ?_ offset bytes
      intro field value
      unfold lowPacket
      split <;> rfl
    split at found
    · exact wireLength_tail found (fun _ _ => rfl) offset bytes
    split at found
    · split at found
      next header =>
        cases found
        exact if_pos (UInt8.lt_iff_toNat_lt.mpr header)
      next more =>
        refine wireLength_tail found ?_ offset bytes
        intro field value
        exact if_neg (fun header => more (UInt8.lt_iff_toNat_lt.mp header))
    · exact wireLength_source found offset bytes

theorem flatten_blocks (settled : leftover width stream = []) (offset : Nat) (more : List UInt8) :
    (blocks width (stream ++ more) ((parse width offset stream).map Decoder.delivered)).flatten = stream := by
  induction stream using frame_induction width generalizing offset with
  | waiting stream waiting =>
    rw [leftover_of_none waiting] at settled
    rw [parse_of_none waiting, settled]
    rfl
  | found stream frame found ih =>
    have bound := (length_frame? found).2
    rw [leftover_of_some found] at settled
    have length := wireLength_frame (frame?_append found more) offset stream
    rw [parse_of_some found, List.map_cons, blocks]
    simp only [length]
    rw [List.take_append_of_le_length bound, List.drop_append_of_le_length bound, List.flatten_cons, ih settled,
      List.take_append_drop]

end Grammar

namespace Decoder
open Grammar Event

variable {σ : Type} {decoder : Decoder σ} {options : Options} {stream : List UInt8}

/-- The bytes of a stream up to the offset of a decoder make up what it has returned, and
the others are at hand. -/
structure Placed (options : Options) (stream : List UInt8) (decoder : Decoder σ) : Prop where
  coherent : decoder.Coherent
  width : decoder.width = options.timestampWidth
  inside : decoder.offset ≤ stream.length
  pending : decoder.pending = stream.drop decoder.offset
  settled : leftover options.timestampWidth (stream.take decoder.offset) = []

theorem Placed.offset_add_buffered (placed : Placed options stream decoder) :
    decoder.offset + decoder.buffered = stream.length := by
  rw [← length_pending, placed.pending, List.length_drop]
  exact Nat.add_sub_of_le placed.inside

theorem Placed.whole_append (placed : Placed options stream decoder) (more : List UInt8) :
    whole options (stream ++ more) = whole options (stream.take decoder.offset) ++
      (parse decoder.width decoder.offset (decoder.pending ++ more)).map delivered := by
  have consumed : (stream.take decoder.offset).length = decoder.offset := List.length_take_of_le placed.inside
  have split : stream ++ more = stream.take decoder.offset ++ (decoder.pending ++ more) := by
    rw [placed.pending, ← List.append_assoc, List.take_append_drop]
  rw [split, whole, parse_append, placed.settled, consumed, List.map_append, placed.width]
  simp [whole]

theorem Placed.arrive {next : Decoder σ} {bytes : List UInt8} (placed : Placed options stream decoder)
    (coherent : next.Coherent) (width : next.width = decoder.width) (offset : next.offset = decoder.offset)
    (pending : next.pending = decoder.pending ++ bytes) : Placed options (stream ++ bytes) next := by
  refine ⟨coherent, width.trans placed.width, ?_, ?_, ?_⟩
  · rw [offset, List.length_append]
    exact Nat.le_add_right_of_le placed.inside
  · rw [offset, pending, placed.pending, List.drop_append_of_le_length placed.inside]
  · rw [offset, List.take_append_of_le_length placed.inside]
    exact placed.settled

theorem Placed.ask {started : Option Started} (placed : Placed options stream decoder)
    (kept : (decoder.remember started).Coherent) (source : σ) (answer : Except Failure Pulled) :
    Placed options (stream ++ Pulled.bytes answer) ((decoder.remember started).told source answer) :=
  placed.arrive (coherent_told kept source answer) (width_told _ source answer) (offset_told _ source answer)
    (pending_told _ source answer)

theorem Placed.take_after {frame : Frame} (placed : Placed options stream decoder)
    (found : frame? decoder.width decoder.pending = some frame) :
    stream.take (decoder.after frame).offset = stream.take decoder.offset ++ decoder.pending.take frame.length := by
  rw [offset_after found, placed.pending, List.take_add]

theorem Placed.deliver {frame : Frame} (placed : Placed options stream decoder)
    (found : frame? decoder.width decoder.pending = some frame) : Placed options stream (decoder.after frame) := by
  have bound := (length_frame? found).2
  -- The block of a frame is that frame also when nothing follows it.
  have block := frame?_take found
  rw [placed.width] at block
  refine ⟨Framer.coherent_after _ _, placed.width, ?_, ?_, ?_⟩
  · rw [offset_after found, ← placed.offset_add_buffered, ← length_pending]
    exact Nat.add_le_add_left bound _
  · rw [pending_after, offset_after found, placed.pending, List.drop_drop]
  · rw [placed.take_after found, leftover_append, placed.settled, List.nil_append, leftover_of_some block]
    have spent : (decoder.pending.take frame.length).drop frame.length = [] :=
      List.drop_eq_nil_of_le (List.length_take_le _ _)
    rw [spent]
    rfl

theorem Placed.whole_after {frame : Frame} (placed : Placed options stream decoder)
    (found : frame? decoder.width decoder.pending = some frame) :
    whole options (stream.take (decoder.after frame).offset) =
      whole options (stream.take decoder.offset) ++ [delivered (frame.item decoder.offset decoder.pending)] := by
  have before := placed.whole_append []
  have later := (placed.deliver found).whole_append []
  rw [later, List.append_nil, List.append_nil, pending_after, offset_after found, parse_of_some found, List.map_cons,
    List.append_cons] at before
  rw [offset_after found]
  exact List.append_cancel_right before

theorem placed_start (options : Options) (source : Option σ) :
    Placed options [] (source.elim (new options) (withSource · options)) := by
  have coherent : (new options : Decoder σ).Coherent := coherent_new options
  cases source with
  | none => exact ⟨coherent, rfl, Nat.le_refl 0, rfl, rfl⟩
  | some source => exact ⟨coherent, rfl, Nat.le_refl 0, rfl, rfl⟩

/-- The items returned so far are those of the stream up to the offset. -/
structure Tiled (options : Options) (past : List Event) (decoder : Decoder σ) : Prop where
  placed : Placed options (received past) decoder
  yielded : yielded past = whole options ((received past).take decoder.offset)

private theorem Tiled.silent {past : List Event} {event : Event} {next : Decoder σ} (tiled : Tiled options past decoder)
    (placed : Placed options (received past ++ event.bytes) next) (offset : next.offset = decoder.offset)
    (silent : event.item? = none) : Tiled options (past ++ [event]) next := by
  refine ⟨?_, ?_⟩
  · rw [received_snoc]
    exact placed
  · rw [received_snoc, yielded_snoc, silent, offset, List.take_append_of_le_length tiled.placed.inside, tiled.yielded]
    exact List.append_nil _

private theorem Tiled.step {past : List Event} {event : Event} {next : Decoder σ} (tiled : Tiled options past decoder)
    (step : Step decoder event next) : Tiled options (past ++ [event]) next := by
  have placed := tiled.placed
  cases step with
  | feed bytes =>
    have coherent := Framer.Coherent.feed placed.coherent bytes
    exact tiled.silent (placed.arrive coherent rfl rfl (pending_feed decoder bytes)) rfl rfl
  | ask coherent source answer => exact tiled.silent (placed.ask coherent source answer) (offset_told _ source answer) rfl
  | @deliver frame found =>
    have item := item?_delivered (frame.item decoder.offset decoder.pending)
    refine ⟨?_, ?_⟩
    · rw [received_snoc, Event.bytes, List.append_nil]
      exact placed.deliver found
    · rw [received_snoc, yielded_snoc, item, Event.bytes, List.append_nil, placed.whole_after found, tiled.yielded]
      rfl
  | giveUp waiting coherent gaveUp =>
    exact tiled.silent (placed.arrive coherent rfl rfl (List.append_nil _).symm) rfl (item?_of_givesUp gaveUp)

variable [ByteSource σ]

theorem tiled_history (options : Options) (source : Option σ) (operations : List Operation) :
    let start : Decoder σ := source.elim (new options) (withSource · options)
    Tiled options (start.history operations) (start.perform operations) := by
  intro start
  have first : Tiled options [] start := ⟨placed_start options source, congrArg (whole options) List.take_nil.symm⟩
  exact (steps_history first.placed.coherent operations).invariant Tiled.step first

/-- What a pull does to the offset. The block of a packet or fault is not empty. -/
def Advances (width : TimestampWidth) (stream : List UInt8) (before after : Nat) :
    Option (Except DecodeError Packet) → Prop
  | some (.ok packet) => before < after ∧ after = before + wireLength width (stream.drop before) (.ok packet)
  | some (.error (.malformed fault)) =>
    before < after ∧ after = before + wireLength width (stream.drop before) (.error (.malformed fault)) ∧
      fault.offset = before ∧ fault.bytes = (stream.drop before).take (after - before)
  | some (.error (.source _)) | none => after = before

omit [ByteSource σ] in
private theorem Placed.advances_after {frame : Frame} (placed : Placed options stream decoder)
    (found : frame? decoder.width decoder.pending = some frame) :
    Advances options.timestampWidth stream decoder.offset (decoder.after frame).offset
      (some (delivered (frame.item decoder.offset decoder.pending))) := by
  have positive := (length_frame? found).1
  have length := wireLength_frame found decoder.offset decoder.pending
  rw [placed.pending, placed.width] at length
  rw [offset_after found]
  have grown : decoder.offset < decoder.offset + frame.length := Nat.lt_add_of_pos_right positive
  cases content : frame.content with
  | ok packet =>
    rw [Frame.item, content] at length ⊢
    exact ⟨grown, congrArg _ length.symm⟩
  | error cause =>
    rw [Frame.item, content] at length ⊢
    refine ⟨grown, congrArg _ length.symm, rfl, ?_⟩
    rw [Nat.add_sub_cancel_left, ← placed.pending]

private theorem Placed.advances {calls : List (Call σ)} {pull : Pull σ} (placed : Placed options stream decoder)
    (pulls : Pulls decoder calls pull) :
    Advances options.timestampWidth (stream ++ calls.flatMap fun call => Pulled.bytes call.answer) decoder.offset
      pull.decoder.offset pull.delivery := by
  induction pulls generalizing stream with
  | found found =>
    rw [List.flatMap_nil, List.append_nil]
    exact placed.advances_after found
  | unsupplied waiting kept unsupplied => rfl
  | @refused decoder started source answer waiting kept going present answered empty =>
    have same := offset_told (decoder.remember started) (ByteSource.pull source).2 answer
    cases answer with
    | ok pulled => exact same
    | error failure => exact same
  | @more decoder started source answer calls pull waiting kept going present answered bytes rest ih =>
    -- To ask the source only makes the stream longer, the offset stays.
    have later := ih (placed.ask kept _ answer)
    rw [offset_told, List.append_assoc] at later
    exact later

/-- At every moment the packets and faults returned so far fill the stream up to the
offset, the bytes at hand are the rest of it, and the next pull goes on from there. -/
theorem blocks_history (options : Options) (source : Option σ) (operations : List Operation) :
    let start : Decoder σ := source.elim (new options) (withSource · options)
    let past := start.history operations
    let decoder := start.perform operations
    decoder.offset + decoder.buffered = (received past).length ∧
    decoder.pending = (received past).drop decoder.offset ∧
    (blocks options.timestampWidth (received past) (yielded past)).flatten = (received past).take decoder.offset ∧
    Advances options.timestampWidth (received (past ++ decoder.pullEvents)) decoder.offset decoder.pull.decoder.offset
      decoder.pull.delivery := by
  intro start past decoder
  obtain ⟨placed, items⟩ := tiled_history options source operations
  refine ⟨placed.offset_add_buffered, placed.pending, ?_, ?_⟩
  · have filled := flatten_blocks placed.settled 0 ((received past).drop decoder.offset)
    rwa [List.take_append_drop, ← whole, ← items] at filled
  · have brought : received (past ++ decoder.pullEvents) =
        received past ++ decoder.calls.flatMap fun call => Pulled.bytes call.answer := by
      simp [received, pullEvents, List.flatMap_map, Event.bytes]
    rw [brought]
    exact placed.advances (pulls_pull placed.coherent)

end Decoder

end SingleWire
