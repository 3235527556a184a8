import SingleWire.Framer
import SingleWire.DecodeError
import SingleWire.LogEntry

/-! Packets from a stream whose bytes are fed by the caller, pulled from a source, or
both. A pull asks the source only when the bytes at hand hold no packet, and keeps a
packet that has not fully arrived for the next pull. -/

namespace SingleWire

structure Decoder (σ : Type) where
  framer : Framer := {}
  /-- Without a source all bytes are fed. -/
  source : Option σ := none
  /-- Whether the source has said that the stream has ended. -/
  exhausted : Bool := false

/-- What one pull gives: a packet, an error, or nothing as long as no more bytes come.
With it come the notes made on the way and the decoder afterwards. -/
structure Pull (σ : Type) where
  delivery : Option (Except DecodeError Packet)
  log : List LogEntry
  decoder : Decoder σ

structure Run (σ : Type) where
  deliveries : List (Except DecodeError Packet)
  log : List LogEntry
  decoder : Decoder σ

/-- A sequence of pulls in which some may have given nothing. -/
structure Polling (σ : Type) where
  deliveries : List (Option (Except DecodeError Packet))
  log : List LogEntry
  decoder : Decoder σ

namespace Decoder

variable {σ : Type}

def new (options : Options) : Decoder σ := { framer := { options } }

/-- A decoder that pulls bytes from `source` when it needs them. -/
def withSource (source : σ) (options : Options) : Decoder σ := { framer := { options }, source := some source }

def feed (decoder : Decoder σ) (bytes : List UInt8) : Decoder σ :=
  { decoder with framer := decoder.framer.feed bytes }

def options (decoder : Decoder σ) : Options := decoder.framer.options

/-- How many bytes have been received and belong to no packet or fault yet. -/
def buffered (decoder : Decoder σ) : Nat := decoder.framer.queue.size

/-- How many bytes belong to packets and faults that have been returned. -/
def offset (decoder : Decoder σ) : Nat := decoder.framer.queue.removed

variable [ByteSource σ]

/-- What the source has left. An exhausted source is not asked again. -/
def supply (decoder : Decoder σ) : Nat :=
  match decoder.source with
  | some source => ByteSource.supply source
  | none => 0

/-- Asks the source once, if there is one that has not ended. The answer is whether
bytes have been appended. -/
def fill (decoder : Decoder σ) : Except Failure Bool × List LogEntry × Decoder σ :=
  if decoder.exhausted then (.ok false, [], decoder)
  else match decoder.source with
    | none => (.ok false, [], decoder)
    | some source =>
      let (answer, source) := ByteSource.pull source
      let decoder := { decoder with source := some source }
      match answer with
      | .ok (.data bytes) => (.ok !bytes.isEmpty, [.pulled bytes.length], decoder.feed bytes)
      | .ok .pending => (.ok false, [], decoder)
      | .ok .exhausted =>
        (.ok false, [.exhausted (decoder.offset + decoder.buffered)], { decoder with exhausted := true })
      | .error failure => (.error failure, [.failed failure], decoder)

/-- The bytes at hand together with what the source has left. Every delivery uses up
some of it. -/
def workload (decoder : Decoder σ) : Nat := decoder.buffered + decoder.supply

theorem supply_fill (decoder : Decoder σ) :
    decoder.fill.2.2.workload ≤ decoder.workload ∧
    (decoder.fill.1 = .ok true → decoder.fill.2.2.supply < decoder.supply) ∧
    (∀ failure, decoder.fill.1 = .error failure → decoder.fill.2.2.workload < decoder.workload) := by
  unfold fill
  split
  · simp
  · cases present : decoder.source with
    | none => simp
    | some source =>
      have bound := ByteSource.supply_pull source
      cases answer : (ByteSource.pull source).1 with
      | error failure =>
        simp only [answer, Pulled.cost] at bound
        simp [workload, supply, buffered, present, answer]
        omega
      | ok pulled =>
        cases pulled with
        | pending =>
          simp only [answer, Pulled.cost] at bound
          simp [workload, supply, buffered, present, answer]
          omega
        | exhausted =>
          simp only [answer, Pulled.cost] at bound
          simp [workload, supply, buffered, present, answer]
          omega
        | data bytes =>
          simp only [answer, Pulled.cost] at bound
          have grown := ByteQueue.size_append decoder.framer.queue bytes
          cases bytes with
          | nil =>
            simp [workload, supply, buffered, present, answer, feed, Framer.feed] at grown ⊢
            simp at bound
            omega
          | cons byte rest =>
            simp [workload, supply, buffered, present, answer, feed, Framer.feed] at grown ⊢
            simp at bound
            omega

/-- Decodes the next packet. Faults and failures of the source are errors, after which
decoding goes on. -/
def pull (decoder : Decoder σ) : Pull σ :=
  let (item, framer) := decoder.framer.next
  let current := { decoder with framer }
  match item with
  | some (.ok packet) => { delivery := some (.ok packet), log := [.decoded packet], decoder := current }
  | some (.error fault) =>
    { delivery := some (.error (.malformed fault)), log := [.skipped fault], decoder := current }
  | none =>
    match _filled : current.fill with
    | (.ok true, log, supplied) =>
      let rest := supplied.pull
      { rest with log := log ++ rest.log }
    | (.ok false, log, supplied) => { delivery := none, log, decoder := supplied }
    | (.error failure, log, supplied) =>
      { delivery := some (.error (.source failure)), log, decoder := supplied }
termination_by decoder.supply
decreasing_by
  have less := (supply_fill current).2.1
  rw [_filled] at less
  exact less rfl

/-- Every packet, fault and failure uses up some of the workload. -/
theorem workload_pull (decoder : Decoder σ) (delivered : decoder.pull.delivery.isSome) :
    decoder.pull.decoder.workload < decoder.workload := by
  fun_induction pull decoder with
  | case1 decoder framer current packet cut | case2 decoder framer current fault cut =>
    have less := Framer.size_next_lt (congrArg Prod.fst cut)
    rw [cut] at less
    exact Nat.add_lt_add_right less _
  | case3 decoder framer current log supplied filled rest waiting ih =>
    have less := ih delivered
    have bound := (supply_fill current).1
    rw [filled] at bound
    have same := Framer.queue_next_of_none (congrArg Prod.fst waiting)
    rw [waiting] at same
    have equal : current.workload = decoder.workload := by
      simp only [workload, buffered, supply, current]
      rw [same]
    exact Nat.lt_of_lt_of_le less (equal ▸ bound)
  | case4 => cases delivered
  | case5 decoder framer current failure log supplied filled waiting =>
    have less := (supply_fill current).2.2 failure (by rw [filled])
    rw [filled] at less
    have same := Framer.queue_next_of_none (congrArg Prod.fst waiting)
    rw [waiting] at same
    have equal : current.workload = decoder.workload := by
      simp only [workload, buffered, supply, current]
      rw [same]
    exact equal ▸ less

/-- Pulls until a pull gives nothing. More bytes may come later, and another run then
goes on where this one stopped. -/
def singles (decoder : Decoder σ) : Run σ :=
  let first := decoder.pull
  match _given : first.delivery with
  | none => { deliveries := [], log := first.log, decoder := first.decoder }
  | some delivery =>
    let rest := first.decoder.singles
    { deliveries := delivery :: rest.deliveries, log := first.log ++ rest.log, decoder := rest.decoder }
termination_by decoder.workload
decreasing_by exact workload_pull decoder (by rw [_given]; rfl)

def take (decoder : Decoder σ) : Nat → Run σ
  | 0 => { deliveries := [], log := [], decoder }
  | limit + 1 =>
    let first := decoder.pull
    match first.delivery with
    | none => { deliveries := [], log := first.log, decoder := first.decoder }
    | some delivery =>
      let rest := first.decoder.take limit
      { deliveries := delivery :: rest.deliveries, log := first.log ++ rest.log, decoder := rest.decoder }

def poll (decoder : Decoder σ) : Nat → Polling σ
  | 0 => { deliveries := [], log := [], decoder }
  | times + 1 =>
    let first := decoder.pull
    let rest := first.decoder.poll times
    { deliveries := first.delivery :: rest.deliveries, log := first.log ++ rest.log, decoder := rest.decoder }

end Decoder

namespace Run

variable {σ : Type}

def packetCount (run : Run σ) : Nat := run.deliveries.countP (·.isOk)

def errorCount (run : Run σ) : Nat := run.deliveries.countP (!·.isOk)

end Run

end SingleWire
