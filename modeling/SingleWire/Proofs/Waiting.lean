import SingleWire.Proofs.PaddedScript
import SingleWire.Proofs.Resumption

/-! A pull that gives up has lost nothing. It keeps its place and the bytes at hand, and
remembers what a decoder does that has just been fed the same bytes. Until more bytes come
further pulls change nothing, and so answers without bytes have no effect in the end. -/

namespace SingleWire
open Grammar

namespace Framer

variable {first second framer waiting : Framer}

theorem next_congr (firstCoherent : first.Coherent) (secondCoherent : second.Coherent) (queue : first.queue = second.queue)
    (options : first.options = second.options) : first.next = second.next := by
  rw [← next_forget firstCoherent, ← next_forget secondCoherent, queue, options]

theorem frame?_of_waiting (coherent : framer.Coherent) (unfinished : framer.next = (none, waiting)) :
    frame? framer.options.timestampWidth framer.queue.pending = none := by
  cases found : frame? framer.options.timestampWidth framer.queue.pending with
  | none => rfl
  | some frame =>
    rw [next_of_some coherent found] at unfinished
    cases unfinished

theorem next_of_waiting (coherent : framer.Coherent) (unfinished : framer.next = (none, waiting)) :
    waiting.next = (none, waiting) := by
  obtain ⟨started, same, kept⟩ := next_of_none coherent (frame?_of_waiting coherent unfinished)
  rw [unfinished] at same
  cases same
  exact (next_congr kept coherent rfl rfl).trans unfinished

end Framer

namespace Decoder
open Event ScriptEvent

variable {σ : Type} [ByteSource σ] {decoder next : Decoder σ} {calls : List (Call σ)} {pull : Pull σ}

private theorem bytes_of_outcome {answer : Except Failure Pulled} (stalled : outcome answer ≠ .ok true) :
    Pulled.bytes answer = [] := by
  rcases answer with failure | ((_ | ⟨first, rest⟩) | _ | _)
  · rfl
  · rfl
  · exact absurd rfl stalled
  · rfl
  · rfl

private theorem framer_fill (stalled : decoder.fill.1 ≠ .ok true) : decoder.fill.2.2.framer = decoder.framer := by
  by_cases unsupplied : decoder.Unsupplied
  · rw [fill_of_unsupplied unsupplied]
  · obtain ⟨going, source, present⟩ := present_of_supplied unsupplied
    have filled := fill_of_present decoder going present
    rw [filled] at stalled ⊢
    have told := framer_told decoder (ByteSource.pull source).2 (ByteSource.pull source).1
    rwa [bytes_of_outcome stalled, Framer.feed_nil] at told

private theorem settled_pull (coherent : decoder.Coherent) (gaveUp : (returned decoder.pull.delivery).GivesUp) :
    decoder.pull.decoder.framer.next = (none, decoder.pull.decoder.framer) := by
  fun_induction Decoder.pull decoder with
  | case1 | case2 => exact gaveUp.elim
  | case3 decoder framer current log supplied filled rest waiting ih =>
    -- Bytes have come, and the pull that goes on from there gives up.
    exact ih (coherent_of_fill coherent waiting filled) gaveUp
  | case4 decoder framer current log supplied filled waiting | case5 decoder framer current failure log supplied filled waiting =>
    have stalled : current.fill.1 ≠ .ok true := by
      rw [filled]
      intro impossible
      cases impossible
    have same := framer_fill stalled
    rw [filled] at same
    have settled := Framer.next_of_waiting coherent waiting
    rwa [← show supplied.framer = framer from same] at settled

private theorem Pulls.queue (pulls : Pulls decoder calls pull) (gaveUp : (returned pull.delivery).GivesUp) :
    pull.decoder.framer.queue = decoder.framer.queue.append (calls.flatMap fun call => Pulled.bytes call.answer) ∧
    pull.decoder.framer.options = decoder.framer.options := by
  induction pulls with
  | found found =>
    have silent := item?_of_givesUp gaveUp
    rw [item?_delivered] at silent
    cases silent
  | unsupplied waiting kept unsupplied => exact ⟨(ByteQueue.append_nil _).symm, rfl⟩
  | @refused decoder started source answer waiting kept going present answered empty =>
    have framer := framer_told (decoder.remember started) (ByteSource.pull source).2 answer
    rw [empty, Framer.feed_nil] at framer
    rw [framer, List.flatMap_singleton, empty, ByteQueue.append_nil]
    exact ⟨rfl, rfl⟩
  | @more decoder started source answer calls pull waiting kept going present answered bytes rest ih =>
    obtain ⟨queue, options⟩ := ih gaveUp
    rw [framer_told] at queue options
    refine ⟨?_, options⟩
    rw [queue, List.flatMap_cons, ← ByteQueue.append_append]
    rfl

/-- A pull that gives up ends as if the bytes that have come had been fed before. -/
theorem next_of_givesUp (coherent : decoder.Coherent) (gaveUp : (returned decoder.pull.delivery).GivesUp) :
    (decoder.framer.feed (received decoder.pullEvents)).next = (none, decoder.pull.decoder.framer) := by
  obtain ⟨queue, options⟩ := (pulls_pull coherent).queue gaveUp
  rw [received_pullEvents, ← settled_pull coherent gaveUp]
  exact Framer.next_congr (Framer.Coherent.feed coherent _) (coherent_pull coherent) queue.symm options.symm

private theorem framer_pull_of_unsupplied {waiting : Framer} (unsupplied : decoder.Unsupplied) (coherent : decoder.Coherent)
    (unfinished : decoder.framer.next = (none, waiting)) : decoder.pull.decoder.framer = waiting := by
  obtain ⟨started, next, -⟩ := Framer.next_of_none coherent (Framer.frame?_of_waiting coherent unfinished)
  have quiet : (decoder.remember started).Unsupplied := unsupplied
  rw [pull_of_none next, fill_of_unsupplied quiet]
  exact congrArg Prod.snd (next.symm.trans unfinished)

private theorem Pulls.givesUp (pulls : Pulls decoder calls pull) (waiting : frame? decoder.width decoder.pending = none)
    (silent : (calls.flatMap fun call => Pulled.bytes call.answer) = []) : (returned pull.delivery).GivesUp := by
  cases pulls with
  | found found =>
    rw [waiting] at found
    cases found
  | unsupplied => trivial
  | refused waiting kept going present answered empty => exact givesUp_refusal _
  | more waiting kept going present answered bytes rest =>
    rw [List.flatMap_cons] at silent
    exact absurd (List.append_eq_nil_iff.mp silent).1 bytes

private theorem Course.still {pullers : List (Decoder σ)} {events : List Event} (course : Course decoder pullers events next)
    (coherent : decoder.Coherent) (settled : decoder.framer.next = (none, decoder.framer)) (silent : received events = []) :
    yielded events = [] ∧ next.framer = decoder.framer := by
  induction course with
  | nil => exact ⟨rfl, rfl⟩
  | @feed decoder next pullers events bytes _ ih =>
    obtain ⟨rfl, later⟩ := List.append_eq_nil_iff.mp silent
    have same : (decoder.feed []).framer = decoder.framer := Framer.feed_nil _
    obtain ⟨none, framer⟩ := ih (Framer.Coherent.feed coherent []) (by rw [same, settled]) later
    exact ⟨none, framer.trans same⟩
  | @pull decoder next pullers events _ ih =>
    -- Such a pull gives up, and has told its framer of nothing that it did not know.
    rw [received, List.flatMap_append] at silent
    obtain ⟨now, later⟩ := List.append_eq_nil_iff.mp silent
    have called : (decoder.calls.flatMap fun call => Pulled.bytes call.answer) = [] := (received_pullEvents decoder).symm.trans now
    have gaveUp := (pulls_pull coherent).givesUp (Framer.frame?_of_waiting coherent settled) called
    have same := next_of_givesUp coherent gaveUp
    rw [show received decoder.pullEvents = [] from now, Framer.feed_nil, settled] at same
    have framer : decoder.framer = decoder.pull.decoder.framer := congrArg Prod.snd same
    obtain ⟨none, kept⟩ := ih (coherent_pull coherent) (by rw [← framer, settled]) later
    refine ⟨?_, kept.trans framer.symm⟩
    rw [yielded, List.filterMap_append]
    exact List.append_eq_nil_iff.mpr ⟨(yielded_pullEvents decoder).trans (by rw [item?_of_givesUp gaveUp]; rfl), none⟩

/-- A pull that gives up leaves what a decoder has that was fed the bytes which have come,
and no operation changes that until more come. To pull until the end of a script gives the
same whatever answers without bytes are in it. -/
theorem waiting_changes_nothing {σ : Type} [ByteSource σ] (options : Options) :
    (∀ (source : Option σ) (operations : List Operation),
      let start : Decoder σ := source.elim (new options) (withSource · options)
      let decoder := start.perform operations
      let brought := received decoder.pullEvents
      let waiting := decoder.pull.decoder
      let pushed : Decoder σ := { decoder with source := none, exhausted := false }
      (returned decoder.pull.delivery).GivesUp →
        waiting.offset = decoder.offset ∧ waiting.pending = decoder.pending ++ brought ∧
        waiting.framer = (pushed.feed brought).pull.decoder.framer ∧
        ∀ later, received (waiting.history later) = [] →
          yielded (waiting.history later) = [] ∧ (waiting.perform later).framer = waiting.framer) ∧
    (∀ events, ∃ times, ((withSource { events } options : Decoder Script).perform (List.replicate times .pull)).exhausted = true) ∧
    (∀ events padded, Padded events padded → ∀ times others : Nat,
      let plain : Decoder Script := withSource { events } options
      let noisy : Decoder Script := withSource { events := padded } options
      let pulls := List.replicate times Operation.pull
      let morePulls := List.replicate others Operation.pull
      (plain.perform pulls).exhausted = true → (noisy.perform morePulls).exhausted = true →
        yielded (noisy.history morePulls) = yielded (plain.history pulls) ∧
        received (noisy.history morePulls) = received (plain.history pulls) ∧
        (noisy.perform morePulls).offset = (plain.perform pulls).offset ∧
        (noisy.perform morePulls).pending = (plain.perform pulls).pending) := by
  refine ⟨?_, exists_pulling_until_end options, ?_⟩
  · intro source operations start decoder brought waiting pushed gaveUp
    have coherent : decoder.Coherent := (tiled_history options source operations).placed.coherent
    have fed : (decoder.feed brought).Coherent := Framer.Coherent.feed coherent brought
    have told : (decoder.feed brought).framer.next = (none, waiting.framer) := next_of_givesUp coherent gaveUp
    have queue : waiting.framer.queue = (decoder.feed brought).framer.queue := by
      have same := Framer.queue_next_of_none (congrArg Prod.fst told)
      rwa [told] at same
    have settled := Framer.next_of_waiting fed told
    refine ⟨?_, ?_, ?_, ?_⟩
    · show waiting.framer.queue.removed = decoder.framer.queue.removed
      rw [queue]
      rfl
    · exact (congrArg ByteQueue.pending queue).trans (pending_feed decoder brought)
    · have quiet : (pushed.feed brought).Unsupplied := .inr rfl
      exact (framer_pull_of_unsupplied quiet fed told).symm
    · intro later silent
      exact (course_history waiting later).still (coherent_pull coherent) settled silent
  · intro events padded put times others plain noisy pulls morePulls plainEnded noisyEnded
    obtain ⟨plainStream, plainItems⟩ := pulled_until_end options events times plainEnded
    obtain ⟨noisyStream, noisyItems⟩ := pulled_until_end options padded others noisyEnded
    rw [put.streamed, ← plainStream] at noisyStream
    rw [put.streamed, ← plainItems] at noisyItems
    let script : Script := { events }
    let paddedScript : Script := { events := padded }
    have one : Tiled options (plain.history pulls) (plain.perform pulls) := tiled_history options (some script) pulls
    have other : Tiled options (noisy.history morePulls) (noisy.perform morePulls) :=
      tiled_history options (some paddedScript) morePulls
    obtain ⟨placed, taken⟩ := other
    rw [noisyStream] at placed taken
    rw [noisyItems, one.yielded] at taken
    exact ⟨noisyItems, noisyStream, placed.congr one.placed taken.symm⟩

end Decoder

end SingleWire
