import SingleWire.Proofs.Tiling

/-! What a decoder remembers of a packet in progress saves it from reading the bytes at
hand again, and nothing else depends on it. -/

namespace SingleWire

namespace Framer

private theorem start_forget (framer : Framer) (byte : UInt8) :
    Framer.start { framer with started := none } byte = framer.start byte := by
  unfold start
  cases Header.ofByte? byte with
  | none => rfl
  | some header => cases header <;> rfl

theorem next_forget {framer : Framer} (coherent : framer.Coherent) :
    Framer.next { framer with started := none } = framer.next := by
  cases front : framer.queue.pending with
  | nil =>
    have idle := coherent.started_of_nil front
    rw [← idle]
  | cons byte rest =>
    have forgotten : Coherent { framer with started := none } := by
      intro started impossible
      cases impossible
    rw [next_eq_start coherent front, next_eq_start forgotten front, start_forget]

end Framer

def Operation.pulls : Operation → Bool
  | .feed _ | .take 0 => false
  | .pull | .singles | .take (_ + 1) => true

namespace Decoder

variable {σ : Type} [ByteSource σ] {decoder : Decoder σ}

private theorem pull_forget (coherent : decoder.Coherent) :
    (decoder.remember none).pull = decoder.pull ∧ (decoder.remember none).calls = decoder.calls := by
  have next : (decoder.remember none).framer.next = decoder.framer.next := Framer.next_forget coherent
  refine ⟨?_, ?_⟩
  · rw [pull, next, pull]
    rfl
  · rw [calls, next, calls]
    rfl

private theorem operate_forget (coherent : decoder.Coherent) {operation : Operation} (pulls : operation.pulls = true) :
    (decoder.remember none).events operation = decoder.events operation ∧
    (decoder.remember none).operate operation = decoder.operate operation := by
  obtain ⟨pulled, called⟩ := pull_forget coherent
  have seen : (decoder.remember none).pullEvents = decoder.pullEvents := by rw [pullEvents, called, pulled, pullEvents]
  cases operation with
  | feed bytes => cases pulls
  | pull => exact ⟨seen, congrArg Pull.decoder pulled⟩
  | singles =>
    refine ⟨?_, ?_⟩
    · rw [events, singlesEvents, seen, pulled]
      exact (singlesEvents.eq_def decoder).symm
    · rw [operate, singles, pulled]
      exact congrArg Run.decoder (singles.eq_def decoder).symm
  | take limit =>
    cases limit with
    | zero => cases pulls
    | succ limit =>
      refine ⟨?_, ?_⟩
      · rw [events, takeEvents, seen, pulled, events, takeEvents]
      · rw [operate, take, pulled, operate, take]

private theorem history_forget (coherent : decoder.Coherent) (later : List Operation) :
    (decoder.remember none).history later = decoder.history later ∧
    (decoder.remember none).perform later = (decoder.perform later).remember
      (if later.any Operation.pulls then (decoder.perform later).framer.started else none) := by
  induction later generalizing decoder with
  | nil => exact ⟨rfl, rfl⟩
  | cons operation later ih =>
    -- The first pull makes the decoders equal. Until then the one that forgot stays so.
    cases pulls : operation.pulls with
    | true =>
      obtain ⟨seen, same⟩ := operate_forget coherent pulls
      rw [history, perform, seen, same, List.any_cons, pulls]
      exact ⟨rfl, rfl⟩
    | false =>
      rw [List.any_cons, pulls, Bool.false_or]
      cases operation with
      | pull | singles => cases pulls
      | feed bytes =>
        have fed : (decoder.feed bytes).Coherent := Framer.Coherent.feed coherent bytes
        obtain ⟨seen, state⟩ := ih fed
        exact ⟨congrArg (List.cons (Event.fed bytes)) seen, state⟩
      | take limit =>
        cases limit with
        | zero => exact ih coherent
        | succ limit => cases pulls

/-- A decoder that forgets the packet in progress and reads it again from the first byte at
hand can be told apart by nothing, and remembers the same after its next pull. -/
theorem history_rescanned (options : Options) (source : Option σ) (earlier later : List Operation) :
    let start : Decoder σ := source.elim (new options) (withSource · options)
    let resuming := start.perform earlier
    let rescanning := resuming.remember none
    let resumed := resuming.perform later
    let rescanned := rescanning.perform later
    rescanning.history later = resuming.history later ∧
    rescanned.offset = resumed.offset ∧ rescanned.buffered = resumed.buffered ∧
    rescanned.exhausted = resumed.exhausted ∧ rescanned.source = resumed.source ∧
    rescanned.framer.started = if later.any Operation.pulls then resumed.framer.started else none := by
  intro start resuming rescanning resumed rescanned
  have coherent : resuming.Coherent := (tiled_history options source earlier).placed.coherent
  obtain ⟨seen, state⟩ := history_forget coherent later
  refine ⟨seen, ?_⟩
  rw [show rescanned = _ from state]
  exact ⟨rfl, rfl, rfl, rfl, rfl⟩

end Decoder

end SingleWire
