import SingleWire.Proofs.ListedInput
import SingleWire.Proofs.WireRoundTrip

/-! What is written to the stimulus ports of a chip, and what the command recovers of it. -/

namespace SingleWire

namespace Wire

/-- `Interleaved width writes bytes` says that a chip with counters of this width may send
these writes to its ports, each with its payload, as these bytes. Other packets may stand
before, between and after those of the writes. -/
inductive Interleaved (width : TimestampWidth) : List (UInt8 × List UInt8) → List UInt8 → Prop where
  | nil : Interleaved width [] []
  | write {port : UInt8} {payload rest : List UInt8} {writes : List (UInt8 × List UInt8)} (size : PayloadSize)
      (known : port ≤ 31) (sized : payload.length = size.bytes) (later : Interleaved width writes rest) :
    Interleaved width ((port, payload) :: writes) (((port <<< 3) ||| UInt8.ofNat (sizeBits size)) :: payload ++ rest)
  | other {packet : Packet} {bytes rest : List UInt8} {writes : List (UInt8 × List UInt8)} (form : Form width packet bytes)
      (apart : ∀ port size payload, packet ≠ .stimulus port size payload) (later : Interleaved width writes rest) :
    Interleaved width writes (bytes ++ rest)

theorem stimulus_header {port : UInt8} (known : port ≤ 31) (size : PayloadSize) :
    (port <<< 3) ||| UInt8.ofNat (sizeBits size) = (8 * port.toNat + sizeBits size).toUInt8 := by
  have all : ∀ port : Fin 32, (UInt8.ofNat port <<< 3) ||| UInt8.ofNat (sizeBits size) = (8 * port + sizeBits size).toUInt8 := by
    cases size <;> decide
  have same := all ⟨port.toNat, Nat.lt_succ_of_le (UInt8.le_iff_toNat_le.mp known)⟩
  rwa [UInt8.ofNat_toNat] at same

theorem Interleaved.stream {width : TimestampWidth} {writes : List (UInt8 × List UInt8)} {bytes : List UInt8}
    (interleaved : Interleaved width writes bytes) :
    ∃ packets, Stream width packets bytes ∧
      ∀ port, packets.flatMap (Packet.writtenTo port) = (writes.filter (·.1 = port)).flatMap Prod.snd := by
  induction interleaved with
  | nil => exact ⟨[], .nil, fun _ => rfl⟩
  | @write port payload rest writes size known sized later ih =>
    obtain ⟨packets, stream, split⟩ := ih
    refine ⟨.stimulus port size payload :: packets, ?_, ?_⟩
    · rw [stimulus_header known]
      have small : port < 32 := UInt8.lt_of_le_of_lt known (by decide)
      exact .cons (.stimulus port size payload small sized) stream
    · intro other
      rw [List.flatMap_cons, split, List.filter_cons]
      by_cases same : port = other <;> simp [Packet.writtenTo, same]
  | @other packet bytes rest writes form apart later ih =>
    obtain ⟨packets, stream, split⟩ := ih
    refine ⟨packet :: packets, .cons form stream, ?_⟩
    intro port
    have nothing : packet.writtenTo port = [] := by
      cases packet with
      | stimulus origin size payload => exact absurd rfl (apart origin size payload)
      | _ => rfl
    rw [List.flatMap_cons, split, nothing]
    rfl

end Wire

namespace CommandLine

/-- Each port gets what was written to it, in order and nothing else. -/
theorem port_recovers_writes {ρ : Type} [Reader ρ] {reader : ρ} {bytes : List UInt8} {request : Request} {port : UInt8}
    {writes : List (UInt8 × List UInt8)} (only : request.stimulus = some port) (ends : request.follow = false)
    (interleaved : Wire.Interleaved (request.width.getD .bits48) writes bytes) (reads : Reads reader bytes) :
    let transcript := request.command.run reader
    (request.command.decoder reader).singles.decoder.exhausted = true ∧ transcript.exitCode = 0 ∧
      transcript.errorOutput = "" ∧ transcript.standardOutput = (writes.filter (·.1 = port)).flatMap Prod.snd := by
  obtain ⟨packets, stream, split⟩ := interleaved.stream
  obtain ⟨run, exhausted⟩ := run_of_reads ends reads
  have items : Decoder.atOnce request.command.options bytes = packets.map .ok := by
    let start : Decoder Script := .new request.command.options
    have decoded : Decoder.Decoded request.command.options bytes (start.feed bytes).singles := Decoder.decoded_feed _ bytes
    have parsed : Grammar.parse request.command.options.timestampWidth 0 bytes = packets.map .ok := (stream.parse 0).1
    rw [Decoder.atOnce, decoded.deliveries, parsed, List.map_map]
    rfl
  have quiet : ∀ item ∈ packets.map .ok, request.complaint item = none := by
    rw [quiet_port_iff (by rw [only]; rfl)]
    simp
  obtain ⟨goesOn, shows, silent⟩ := transcript_of_quiet (items ▸ ofBytes_atOnce request.command.options bytes) quiet
  intro transcript
  have whole : transcript = request.command.transcript (packets.map .ok) := by rw [← items, ← run]
  refine ⟨exhausted, ?_, ?_, ?_⟩
  · rw [whole, Transcript.exitCode, goesOn]
    rfl
  · rw [whole, silent]
  · have written : (fun packet => request.shown (.ok packet)) = Packet.writtenTo port := by
      funext packet
      rw [Request.shown, only]
    rw [whole, shows, ← split, List.flatMap_map, written]

/-- Payloads that look like a run of zeros, the end of one, or a header belong to their ports all the same. -/
theorem port_recovers_writes_like_headers :
    let request : Request := { width := some .bits64, stimulus := some 5 }
    let writes : List (UInt8 × List UInt8) := [(5, [0x80, 0x00]), (6, [0x00, 0x00, 0x00, 0x00]), (5, [0x70])]
    let bytes : List UInt8 := [0x2A, 0x80, 0x00, 0x00, 0x00, 0x00, 0x00, 0x00, 0x80, 0x33, 0x00, 0x00, 0x00, 0x00,
      0xB4, 0x01, 0x29, 0x70]
    let reader : Cursor := { bytes := bytes.toArray }
    Wire.Interleaved .bits64 writes bytes ∧ Reads reader bytes ∧
    (request.command.decoder reader).singles.decoder.exhausted = true ∧ (request.command.run reader).exitCode = 0 ∧
    (request.command.run reader).errorOutput = "" ∧ (request.command.run reader).standardOutput = [0x80, 0x00, 0x70] := by
  intro request writes bytes reader
  have interleaved : Wire.Interleaved .bits64 writes bytes :=
    .write .two (by decide) rfl (.other (.sync 5 (by decide)) (by simp)
      (.write .four (by decide) rfl (.other (.high 1 1 (by decide) (by decide)) (by simp) (.write .one (by decide) rfl .nil))))
  have reads : Reads reader bytes := reads_cursor bytes.toArray 0
  have only : request.stimulus = some 5 := rfl
  exact ⟨interleaved, reads, port_recovers_writes only rfl interleaved reads⟩

end CommandLine

end SingleWire
