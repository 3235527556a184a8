import SingleWire.Decoder
import SingleWire.Proofs.FramerGrammar

/-! Pulls in terms of the grammar. A decoder to which no source gives bytes any more
returns the packets and faults of the bytes at hand, one with each pull. -/

namespace SingleWire.Decoder
open Grammar

variable {σ : Type} [ByteSource σ] {decoder : Decoder σ}

def pending (decoder : Decoder σ) : List UInt8 := decoder.framer.queue.pending

def width (decoder : Decoder σ) : TimestampWidth := decoder.framer.options.timestampWidth

def Coherent (decoder : Decoder σ) : Prop := decoder.framer.Coherent

/-- No source gives bytes: there is none, or it has ended. -/
def Unsupplied (decoder : Decoder σ) : Prop := decoder.exhausted = true ∨ decoder.source = none

def delivered : Except Fault Packet → Except DecodeError Packet := Except.mapError .malformed

def after (decoder : Decoder σ) (frame : Frame) : Decoder σ := { decoder with framer := decoder.framer.after frame }

omit [ByteSource σ] in
@[simp] theorem length_pending (decoder : Decoder σ) : decoder.pending.length = decoder.buffered :=
  ByteQueue.length_pending _

omit [ByteSource σ] in
@[simp] theorem pending_feed (decoder : Decoder σ) (bytes : List UInt8) :
    (decoder.feed bytes).pending = decoder.pending ++ bytes := ByteQueue.pending_append _ bytes

omit [ByteSource σ] in
@[simp] theorem pending_after (decoder : Decoder σ) (frame : Frame) :
    (decoder.after frame).pending = decoder.pending.drop frame.length := ByteQueue.pending_remove _ _

omit [ByteSource σ] in
theorem offset_after {frame : Frame} (found : frame? decoder.width decoder.pending = some frame) :
    (decoder.after frame).offset = decoder.offset + frame.length := by
  have bound := (length_frame? found).2
  show (decoder.framer.queue.remove frame.length).2.removed = decoder.framer.queue.removed + frame.length
  rw [ByteQueue.removed_remove, ← ByteQueue.length_pending]
  exact congrArg _ (Nat.min_eq_left bound)

theorem pull_of_some (coherent : decoder.Coherent) {frame : Frame}
    (found : frame? decoder.width decoder.pending = some frame) :
    decoder.pull =
      { delivery := some (delivered (frame.item decoder.offset decoder.pending))
        log := [.ofItem (frame.item decoder.offset decoder.pending)]
        decoder := decoder.after frame } := by
  have next := Framer.next_of_some coherent found
  rw [pull, next]
  unfold Frame.item
  cases frame.content with
  | ok packet => rfl
  | error cause => rfl

def remember (decoder : Decoder σ) (started : Option Started) : Decoder σ :=
  { decoder with framer := { decoder.framer with started } }

theorem pull_of_none {started : Option Started} (next : decoder.framer.next = (none, (decoder.remember started).framer)) :
    decoder.pull = match (decoder.remember started).fill with
      | (.ok true, log, supplied) => { supplied.pull with log := log ++ supplied.pull.log }
      | (.ok false, log, supplied) => { delivery := none, log, decoder := supplied }
      | (.error failure, log, supplied) => { delivery := some (.error (.source failure)), log, decoder := supplied } := by
  rw [pull, next]
  simp only
  split
  next log supplied filled =>
    have same : (decoder.remember started).fill = (.ok true, log, supplied) := filled
    rw [same]
  next log supplied filled =>
    have same : (decoder.remember started).fill = (.ok false, log, supplied) := filled
    rw [same]
  next failure log supplied filled =>
    have same : (decoder.remember started).fill = (.error failure, log, supplied) := filled
    rw [same]

theorem fill_of_unsupplied (unsupplied : decoder.Unsupplied) : decoder.fill = (.ok false, [], decoder) := by
  unfold fill
  rcases unsupplied with ended | absent
  · rw [if_pos ended]
  · rw [absent]
    split <;> rfl

private theorem coherent_fill (coherent : decoder.Coherent) : decoder.fill.2.2.Coherent := by
  unfold fill
  split
  · exact coherent
  split
  · exact coherent
  next source present =>
    dsimp only
    split
    · exact Framer.Coherent.feed coherent _
    · exact coherent
    · exact coherent
    · exact coherent

theorem coherent_of_fill {framer : Framer} {result : Except Failure Bool} {log : List LogEntry} {supplied : Decoder σ}
    (coherent : decoder.Coherent) (next : decoder.framer.next = (none, framer))
    (filled : ({ decoder with framer } : Decoder σ).fill = (result, log, supplied)) : supplied.Coherent := by
  have kept := Framer.coherent_next coherent
  rw [next] at kept
  have remembered : ({ decoder with framer } : Decoder σ).Coherent := kept
  have later := coherent_fill remembered
  rwa [filled] at later

omit [ByteSource σ] in
theorem present_of_supplied (supplied : ¬ decoder.Unsupplied) :
    decoder.exhausted = false ∧ ∃ source, decoder.source = some source := by
  obtain ⟨running, there⟩ := not_or.mp supplied
  exact ⟨Bool.eq_false_iff.mpr running, Option.ne_none_iff_exists'.mp there⟩

theorem pull_of_unsupplied (unsupplied : decoder.Unsupplied) (coherent : decoder.Coherent)
    (waiting : frame? decoder.width decoder.pending = none) :
    ∃ started, (decoder.remember started).Coherent ∧
      decoder.pull = { delivery := none, log := [], decoder := decoder.remember started } := by
  obtain ⟨started, next, kept⟩ := Framer.next_of_none coherent waiting
  have quiet : (decoder.remember started).Unsupplied := unsupplied
  have pulled := pull_of_none next
  rw [fill_of_unsupplied quiet] at pulled
  exact ⟨started, kept, pulled⟩

theorem singles_of_none (quiet : decoder.pull.delivery = none) :
    decoder.singles = { deliveries := [], log := decoder.pull.log, decoder := decoder.pull.decoder } := by
  rw [singles]
  split
  · rfl
  next delivery given => rw [given] at quiet; cases quiet

theorem singles_of_some {delivery : Except DecodeError Packet} (given : decoder.pull.delivery = some delivery) :
    decoder.singles =
      { deliveries := delivery :: decoder.pull.decoder.singles.deliveries
        log := decoder.pull.log ++ decoder.pull.decoder.singles.log
        decoder := decoder.pull.decoder.singles.decoder } := by
  rw [singles]
  split
  next quiet => rw [given] at quiet; cases quiet
  next other found =>
    rw [given] at found
    cases found
    rfl

/-- All that a decoder without supply returns before it has to wait. -/
structure Drained (decoder : Decoder σ) (run : Run σ) : Prop where
  deliveries : run.deliveries = (parse decoder.width decoder.offset decoder.pending).map delivered
  pending : run.decoder.pending = leftover decoder.width decoder.pending
  offset : run.decoder.offset + run.decoder.pending.length = decoder.offset + decoder.pending.length
  coherent : run.decoder.Coherent
  width : run.decoder.width = decoder.width
  unsupplied : run.decoder.Unsupplied

theorem drained_singles (unsupplied : decoder.Unsupplied) (coherent : decoder.Coherent) :
    decoder.Drained decoder.singles := by
  generalize front : decoder.pending = bytes
  generalize named : decoder.width = width
  induction bytes using frame_induction width generalizing decoder with
  | waiting bytes waiting =>
    rw [← front, ← named] at waiting
    obtain ⟨started, kept, pulled⟩ := pull_of_unsupplied unsupplied coherent waiting
    rw [singles_of_none (by rw [pulled]), pulled]
    refine ⟨?_, ?_, rfl, kept, rfl, unsupplied⟩
    · rw [parse_of_none waiting]
      rfl
    · rw [leftover_of_none waiting]
      rfl
  | found bytes frame found ih =>
    rw [← front, ← named] at found
    rw [← front] at ih
    have pulled := pull_of_some coherent found
    have quiet : (decoder.after frame).Unsupplied := unsupplied
    have rest := ih quiet (Framer.coherent_after _ _) (pending_after decoder frame) named
    have bound := (length_frame? found).2
    rw [singles_of_some (by rw [pulled]), pulled]
    refine ⟨?_, ?_, ?_, rest.coherent, rest.width, rest.unsupplied⟩
    · rw [parse_of_some found, List.map_cons, rest.deliveries, offset_after found, pending_after]
      rfl
    · rw [leftover_of_some found, rest.pending, pending_after]
      rfl
    · rw [rest.offset, offset_after found, pending_after, List.length_drop]
      omega

omit [ByteSource σ] in
theorem coherent_new (options : Options) : (new options : Decoder σ).Coherent := by
  intro started impossible
  cases impossible

/-- What comes of a stream that is fed as a whole. -/
structure Decoded (options : Options) (bytes : List UInt8) (run : Run σ) : Prop where
  deliveries : run.deliveries = (parse options.timestampWidth 0 bytes).map delivered
  pending : run.decoder.pending = leftover options.timestampWidth bytes
  offset : run.decoder.offset + run.decoder.pending.length = bytes.length
  coherent : run.decoder.Coherent

theorem decoded_feed (options : Options) (bytes : List UInt8) :
    Decoded options bytes ((new options : Decoder σ).feed bytes).singles := by
  have coherent : ((new options : Decoder σ).feed bytes).Coherent := Framer.Coherent.feed (coherent_new options) bytes
  have front : ((new options : Decoder σ).feed bytes).pending = bytes := pending_feed _ bytes
  have drained := drained_singles (.inr rfl) coherent
  refine ⟨?_, ?_, ?_, drained.coherent⟩
  · rw [drained.deliveries, front]
    rfl
  · rw [drained.pending, front]
    rfl
  · rw [drained.offset, front]
    exact Nat.zero_add _

/-- A decoder returns the packets and faults of the grammar, and keeps the bytes that
complete none. -/
theorem singles_feed_eq_grammar (width : TimestampWidth) (bytes : List UInt8) :
    let run := ((new { timestampWidth := width } : Decoder σ).feed bytes).singles
    let (frames, rest) := frames width bytes
    run.deliveries = (items 0 bytes frames).map (Except.mapError .malformed) ∧ run.decoder.buffered = rest.length := by
  have decoded : Decoded _ bytes ((new { timestampWidth := width } : Decoder σ).feed bytes).singles := decoded_feed _ bytes
  refine ⟨decoded.deliveries, ?_⟩
  rw [← length_pending, decoded.pending]
  rfl

end SingleWire.Decoder
