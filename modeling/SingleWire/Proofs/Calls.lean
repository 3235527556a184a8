import SingleWire.Proofs.DecoderGrammar

/-! What happens in one pull. A frame at hand is returned at once; otherwise the source
is called, and called again only after it has given bytes that complete no frame. -/

namespace SingleWire

/-- A call of the source: the decoder that needs bytes, and the answer. -/
structure Call (σ : Type) where
  caller : Decoder σ
  answer : Except Failure Pulled

def Pulled.bytes : Except Failure Pulled → List UInt8
  | .ok (.data bytes) => bytes
  | _ => []

namespace Decoder
open Grammar

variable {σ : Type} [ByteSource σ] {decoder : Decoder σ}

def call? (decoder : Decoder σ) : Option (Call σ) :=
  if decoder.exhausted then none
  else decoder.source.map fun source => { caller := decoder, answer := (ByteSource.pull source).1 }

def calls (decoder : Decoder σ) : List (Call σ) :=
  let (item, framer) := decoder.framer.next
  let current := { decoder with framer }
  match item with
  | some _ => []
  | none =>
    match _filled : current.fill with
    | (.ok true, _, supplied) => current.call?.toList ++ supplied.calls
    | (.ok false, _, _) => current.call?.toList
    | (.error _, _, _) => current.call?.toList
termination_by decoder.supply
decreasing_by
  have less := (supply_fill current).2.1
  rw [_filled] at less
  exact less rfl

/-- The decoder after an answer of its source, which has become `source`. -/
def told (decoder : Decoder σ) (source : σ) : Except Failure Pulled → Decoder σ
  | .ok (.data bytes) => ({ decoder with source := some source } : Decoder σ).feed bytes
  | .ok .exhausted => { decoder with source := some source, exhausted := true }
  | _ => { decoder with source := some source }

def note (decoder : Decoder σ) : Except Failure Pulled → List LogEntry
  | .ok (.data bytes) => [.pulled bytes.length]
  | .ok .pending => []
  | .ok .exhausted => [.exhausted (decoder.offset + decoder.buffered)]
  | .error failure => [.failed failure]

def refusal : Except Failure Pulled → Option (Except DecodeError Packet)
  | .ok _ => none
  | .error failure => some (.error (.source failure))

/-- One pull, by what is at hand and by what the source answers. -/
inductive Pulls : Decoder σ → List (Call σ) → Pull σ → Prop where
  | found {decoder : Decoder σ} {frame : Frame} (found : frame? decoder.width decoder.pending = some frame) :
    Pulls decoder []
      { delivery := some (delivered (frame.item decoder.offset decoder.pending))
        log := [.ofItem (frame.item decoder.offset decoder.pending)]
        decoder := decoder.after frame }
  | unsupplied {decoder : Decoder σ} {started : Option Started}
      (waiting : frame? decoder.width decoder.pending = none) (kept : (decoder.remember started).Coherent)
      (unsupplied : decoder.Unsupplied) :
    Pulls decoder [] { delivery := none, log := [], decoder := decoder.remember started }
  | refused {decoder : Decoder σ} {started : Option Started} {source : σ} {answer : Except Failure Pulled}
      (waiting : frame? decoder.width decoder.pending = none) (kept : (decoder.remember started).Coherent)
      (going : decoder.exhausted = false) (present : decoder.source = some source)
      (answered : (ByteSource.pull source).1 = answer) (empty : Pulled.bytes answer = []) :
    Pulls decoder [{ caller := decoder.remember started, answer }]
      { delivery := refusal answer
        log := (decoder.remember started).note answer
        decoder := (decoder.remember started).told (ByteSource.pull source).2 answer }
  | more {decoder : Decoder σ} {started : Option Started} {source : σ} {answer : Except Failure Pulled}
      {calls : List (Call σ)} {pull : Pull σ}
      (waiting : frame? decoder.width decoder.pending = none) (kept : (decoder.remember started).Coherent)
      (going : decoder.exhausted = false) (present : decoder.source = some source)
      (answered : (ByteSource.pull source).1 = answer) (bytes : Pulled.bytes answer ≠ [])
      (rest : Pulls ((decoder.remember started).told (ByteSource.pull source).2 answer) calls pull) :
    Pulls decoder ({ caller := decoder.remember started, answer } :: calls)
      { pull with log := (decoder.remember started).note answer ++ pull.log }

def outcome : Except Failure Pulled → Except Failure Bool
  | .ok (.data bytes) => .ok !bytes.isEmpty
  | .ok _ => .ok false
  | .error failure => .error failure

theorem fill_of_present (decoder : Decoder σ) (going : decoder.exhausted = false) {source : σ} (present : decoder.source = some source) :
    decoder.fill = (outcome (ByteSource.pull source).1, decoder.note (ByteSource.pull source).1,
      decoder.told (ByteSource.pull source).2 (ByteSource.pull source).1) := by
  obtain ⟨framer, supplier, exhausted⟩ := decoder
  cases going
  cases present
  rw [fill, if_neg Bool.false_ne_true]
  dsimp only
  generalize ByteSource.pull source = reply
  rcases reply with ⟨failure | (bytes | _ | _), next⟩
  · rfl
  · rfl
  · rfl
  · rfl

theorem call?_of_present (decoder : Decoder σ) (going : decoder.exhausted = false) {source : σ} (present : decoder.source = some source) :
    decoder.call? = some { caller := decoder, answer := (ByteSource.pull source).1 } := by
  rw [call?, going, present]
  rfl

theorem call?_of_unsupplied (unsupplied : decoder.Unsupplied) : decoder.call? = none := by
  unfold call?
  rcases unsupplied with ended | absent
  · rw [if_pos ended]
  · rw [absent]
    split <;> rfl

omit [ByteSource σ] in
theorem framer_told (decoder : Decoder σ) (source : σ) (answer : Except Failure Pulled) :
    (decoder.told source answer).framer = decoder.framer.feed (Pulled.bytes answer) := by
  rcases answer with failure | (bytes | _ | _)
  · exact (Framer.feed_nil _).symm
  · rfl
  · exact (Framer.feed_nil _).symm
  · exact (Framer.feed_nil _).symm

omit [ByteSource σ] in
theorem coherent_told (coherent : decoder.Coherent) (source : σ) (answer : Except Failure Pulled) :
    (decoder.told source answer).Coherent := by
  rw [Coherent, framer_told]
  exact Framer.Coherent.feed coherent _

omit [ByteSource σ] in
@[simp] theorem pending_told (decoder : Decoder σ) (source : σ) (answer : Except Failure Pulled) :
    (decoder.told source answer).pending = decoder.pending ++ Pulled.bytes answer := by
  rw [pending, framer_told]
  exact ByteQueue.pending_append _ _

omit [ByteSource σ] in
theorem buffered_told (decoder : Decoder σ) (source : σ) (answer : Except Failure Pulled) :
    (decoder.told source answer).buffered = decoder.buffered + (Pulled.bytes answer).length := by
  rw [← length_pending, pending_told, List.length_append, length_pending]

omit [ByteSource σ] in
@[simp] theorem offset_told (decoder : Decoder σ) (source : σ) (answer : Except Failure Pulled) :
    (decoder.told source answer).offset = decoder.offset := by
  rw [offset, framer_told]
  rfl

omit [ByteSource σ] in
@[simp] theorem width_told (decoder : Decoder σ) (source : σ) (answer : Except Failure Pulled) :
    (decoder.told source answer).width = decoder.width := by
  rw [width, framer_told]
  rfl

omit [ByteSource σ] in
theorem source_told (decoder : Decoder σ) (source : σ) (answer : Except Failure Pulled) :
    (decoder.told source answer).source = some source := by
  rcases answer with failure | (bytes | _ | _) <;> rfl

theorem more_of_bytes {answer : Except Failure Pulled} (bytes : Pulled.bytes answer ≠ []) : answer ≠ .ok .exhausted := by
  intro ended
  rw [ended] at bytes
  exact bytes rfl

omit [ByteSource σ] in
theorem exhausted_told (decoder : Decoder σ) (source : σ) {answer : Except Failure Pulled} (more : answer ≠ .ok .exhausted) :
    (decoder.told source answer).exhausted = decoder.exhausted := by
  rcases answer with failure | (bytes | _ | _)
  · rfl
  · rfl
  · rfl
  · exact absurd rfl more

omit [ByteSource σ] in
theorem waiting_told (waiting : frame? decoder.width decoder.pending = none) (source : σ) {answer : Except Failure Pulled}
    (empty : Pulled.bytes answer = []) :
    frame? (decoder.told source answer).width (decoder.told source answer).pending = none := by
  rw [width_told, pending_told, empty, List.append_nil]
  exact waiting

private theorem calls_of_some {frame : Frame} (coherent : decoder.Coherent)
    (found : frame? decoder.width decoder.pending = some frame) : decoder.calls = [] := by
  rw [calls, Framer.next_of_some coherent found]

private theorem calls_of_none {started : Option Started}
    (next : decoder.framer.next = (none, (decoder.remember started).framer)) :
    decoder.calls = match (decoder.remember started).fill with
      | (.ok true, _, supplied) => (decoder.remember started).call?.toList ++ supplied.calls
      | (.ok false, _, _) => (decoder.remember started).call?.toList
      | (.error _, _, _) => (decoder.remember started).call?.toList := by
  rw [calls, next]
  simp only
  split
  next log supplied filled =>
    have same : (decoder.remember started).fill = (.ok true, log, supplied) := filled
    rw [same]
    rfl
  next log supplied filled =>
    have same : (decoder.remember started).fill = (.ok false, log, supplied) := filled
    rw [same]
    rfl
  next failure log supplied filled =>
    have same : (decoder.remember started).fill = (.error failure, log, supplied) := filled
    rw [same]
    rfl

private theorem asked_in_vain {started : Option Started} {source : σ} {answer : Except Failure Pulled}
    (next : decoder.framer.next = (none, (decoder.remember started).framer)) (going : decoder.exhausted = false)
    (present : decoder.source = some source) (answered : (ByteSource.pull source).1 = answer)
    (empty : Pulled.bytes answer = []) :
    decoder.calls = [{ caller := decoder.remember started, answer }] ∧
    decoder.pull =
      { delivery := refusal answer
        log := (decoder.remember started).note answer
        decoder := (decoder.remember started).told (ByteSource.pull source).2 answer } := by
  have filled := fill_of_present (decoder.remember started) going present
  have called := call?_of_present (decoder.remember started) going present
  rw [answered] at filled called
  rw [calls_of_none next, pull_of_none next, filled, called]
  rcases answer with failure | (bytes | _ | _)
  · exact ⟨rfl, rfl⟩
  · cases empty
    exact ⟨rfl, rfl⟩
  · exact ⟨rfl, rfl⟩
  · exact ⟨rfl, rfl⟩

private theorem asked_with_success {started : Option Started} {source : σ} {answer : Except Failure Pulled}
    (next : decoder.framer.next = (none, (decoder.remember started).framer)) (going : decoder.exhausted = false)
    (present : decoder.source = some source) (answered : (ByteSource.pull source).1 = answer)
    (bytes : Pulled.bytes answer ≠ []) :
    let supplied := (decoder.remember started).told (ByteSource.pull source).2 answer
    supplied.supply < decoder.supply ∧
    decoder.calls = { caller := decoder.remember started, answer } :: supplied.calls ∧
    decoder.pull = { supplied.pull with log := (decoder.remember started).note answer ++ supplied.pull.log } := by
  have filled := fill_of_present (decoder.remember started) going present
  have called := call?_of_present (decoder.remember started) going present
  have less := (supply_fill (decoder.remember started)).2.1
  rw [answered] at filled called
  rw [calls_of_none next, pull_of_none next, filled, called]
  rw [filled] at less
  rcases answer with failure | (_ | ⟨first, rest⟩) | _ | _
  · exact absurd rfl bytes
  · exact absurd rfl bytes
  · exact ⟨less rfl, rfl, rfl⟩
  · exact absurd rfl bytes
  · exact absurd rfl bytes

/-- A pull returns the frame at hand, or asks its source until it has one. -/
theorem pulls_pull (coherent : decoder.Coherent) : Pulls decoder decoder.calls decoder.pull := by
  -- Each answer with bytes takes them from the supply.
  induction size : decoder.supply using Nat.strongRecOn generalizing decoder with
  | ind size ih =>
    cases found : frame? decoder.width decoder.pending with
    | some frame =>
      rw [calls_of_some coherent found, pull_of_some coherent found]
      exact .found found
    | none =>
      obtain ⟨started, next, kept⟩ := Framer.next_of_none coherent found
      by_cases unsupplied : decoder.Unsupplied
      · have quiet : (decoder.remember started).Unsupplied := unsupplied
        rw [calls_of_none next, pull_of_none next, fill_of_unsupplied quiet, call?_of_unsupplied quiet]
        exact .unsupplied found kept unsupplied
      · obtain ⟨going, source, present⟩ := present_of_supplied unsupplied
        by_cases empty : Pulled.bytes (ByteSource.pull source).1 = []
        · obtain ⟨calls, pull⟩ := asked_in_vain next going present rfl empty
          rw [calls, pull]
          exact .refused found kept going present rfl empty
        · obtain ⟨less, calls, pull⟩ := asked_with_success next going present rfl empty
          have remembered : (decoder.remember started).Coherent := kept
          have rest := ih _ (size ▸ less) (coherent_told remembered (ByteSource.pull source).2 _) rfl
          rw [calls, pull]
          exact .more found kept going present rfl empty rest

/-- The source is called only where no frame is at hand. -/
theorem Pulls.caller {calls : List (Call σ)} {pull : Pull σ} (pulls : Pulls decoder calls pull) :
    ∀ call ∈ calls, call.caller.Coherent ∧ call.caller.width = decoder.width ∧
      frame? call.caller.width call.caller.pending = none := by
  induction pulls with
  | found | unsupplied =>
    intro call impossible
    cases impossible
  | refused waiting kept going present answered empty =>
    intro call member
    cases List.mem_singleton.mp member
    exact ⟨kept, rfl, waiting⟩
  | @more decoder started source answer calls pull waiting kept going present answered bytes rest ih =>
    intro call member
    rcases List.mem_cons.mp member with rfl | later
    · exact ⟨kept, rfl, waiting⟩
    · obtain ⟨coherent, width, unfinished⟩ := ih call later
      rw [width_told] at width
      exact ⟨coherent, width, unfinished⟩

end Decoder

end SingleWire
