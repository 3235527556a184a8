import SingleWire.Proofs.Course
import SingleWire.Proofs.Boundaries

/-! When a decoder calls its source. It does so only while it has no packet or fault to
return, goes on in the same pull only after bytes, and never again after the end. From then
on it is a decoder whose bytes are fed. -/

namespace SingleWire

def Event.answer? : Event → Option (Except Failure Pulled)
  | answered answer => some answer
  | _ => none

namespace Decoder
open Grammar Event

variable {σ : Type} [ByteSource σ] {decoder next : Decoder σ} {options : Options}

inductive Answers : σ → List (Except Failure Pulled) → σ → Prop where
  | nil {source : σ} : Answers source [] source
  | cons {source last : σ} {later : List (Except Failure Pulled)} (rest : Answers (ByteSource.pull source).2 later last) :
    Answers source ((ByteSource.pull source).1 :: later) last

theorem Answers.append {source middle last : σ} {earlier later : List (Except Failure Pulled)}
    (before : Answers source earlier middle) (after : Answers middle later last) :
    Answers source (earlier ++ later) last := by
  induction before with
  | nil => exact after
  | cons _ ih => exact .cons (ih after)

section Pull
variable {calls : List (Call σ)} {pull : Pull σ}

private theorem Pulls.answers (pulls : Pulls decoder calls pull) {source : σ} (present : decoder.source = some source) :
    ∃ last, pull.decoder.source = some last ∧ Answers source (calls.map Call.answer) last := by
  induction pulls generalizing source with
  | found found => exact ⟨source, present, .nil⟩
  | unsupplied waiting kept unsupplied => exact ⟨source, present, .nil⟩
  | refused waiting kept going there answered empty =>
    rw [present] at there
    cases there
    subst answered
    exact ⟨_, source_told _ _ _, .cons .nil⟩
  | more waiting kept going there answered bytes rest ih =>
    rw [present] at there
    cases there
    subst answered
    obtain ⟨last, kept, later⟩ := ih (source_told _ _ _)
    exact ⟨last, kept, .cons later⟩

/-- All calls of a pull but the last have given bytes. If the last has not, the pull returns
what it has given instead. -/
def Disciplined (calls : List (Call σ)) (pull : Pull σ) : Prop :=
  ∃ (given : List (Call σ)) (last : Option (Call σ)), calls = given ++ last.toList ∧
    (∀ call ∈ given, Pulled.bytes call.answer ≠ []) ∧
    ∀ call ∈ last, Pulled.bytes call.answer = [] ∧ pull.delivery = refusal call.answer

private theorem Pulls.disciplined (pulls : Pulls decoder calls pull) : Disciplined calls pull := by
  induction pulls with
  | found found => exact ⟨[], none, rfl, by simp, by simp⟩
  | unsupplied waiting kept unsupplied => exact ⟨[], none, rfl, by simp, by simp⟩
  | refused waiting kept going present answered empty => exact ⟨[], some _, rfl, by simp, by simp [empty]⟩
  | @more decoder started source answer calls pull waiting kept going present answered bytes rest ih =>
    obtain ⟨given, last, split, brought, refused⟩ := ih
    refine ⟨{ caller := decoder.remember started, answer } :: given, last, ?_, ?_, refused⟩
    · rw [split]
      rfl
    · exact List.forall_mem_cons.mpr ⟨bytes, brought⟩

private theorem Pulls.exhausted (pulls : Pulls decoder calls pull) :
    pull.decoder.exhausted = true ↔ decoder.exhausted = true ∨ ∃ call ∈ calls, call.answer = .ok .exhausted := by
  induction pulls with
  | found found => simp [after]
  | unsupplied waiting kept unsupplied => simp [remember]
  | @refused decoder started source answer waiting kept going present answered empty =>
    rcases answer with failure | (bytes | _ | _)
    · simp [told, remember, going]
    · simp [told, remember, feed, going]
    · simp [told, remember, going]
    · simp [told, going]
  | more waiting kept going present answered bytes rest ih =>
    have running := more_of_bytes bytes
    rw [ih, exhausted_told _ _ running]
    simp [running, remember]

private theorem Pulls.of_unsupplied (pulls : Pulls decoder calls pull) (unsupplied : decoder.Unsupplied) :
    calls = [] ∧ pull.decoder.source = decoder.source ∧ pull.decoder.exhausted = decoder.exhausted := by
  cases pulls with
  | found found => exact ⟨rfl, rfl, rfl⟩
  | unsupplied => exact ⟨rfl, rfl, rfl⟩
  | refused waiting kept going present | more waiting kept going present =>
    rcases unsupplied with ended | absent
    · rw [going] at ended
      cases ended
    · rw [present] at absent
      cases absent

theorem answers_pullEvents (decoder : Decoder σ) :
    decoder.pullEvents.filterMap answer? = decoder.calls.map Call.answer := by
  have each : (answer? ∘ fun call : Call σ => answered call.answer) = some ∘ Call.answer := rfl
  rw [pullEvents, List.filterMap_append, List.filterMap_map, each, List.filterMap_eq_map]
  exact List.append_nil _

private theorem mem_pullEvents (decoder : Decoder σ) (answer : Except Failure Pulled) :
    .answered answer ∈ decoder.pullEvents ↔ ∃ call ∈ decoder.calls, call.answer = answer := by
  simp [pullEvents]

omit [ByteSource σ] in
private theorem Disciplined.not_mem_dropLast (disciplined : Disciplined calls pull) :
    .ok .exhausted ∉ (calls.map Call.answer).dropLast := by
  obtain ⟨given, last, rfl, brought, -⟩ := disciplined
  intro member
  have inside : .ok .exhausted ∈ given.map Call.answer := by
    cases last with
    | none =>
      rw [Option.toList_none, List.append_nil] at member
      exact List.dropLast_subset _ member
    | some last =>
      rw [Option.toList_some, List.map_append, List.map_singleton, List.dropLast_concat] at member
      exact member
  obtain ⟨call, earlier, ended⟩ := List.mem_map.mp inside
  exact more_of_bytes (brought call earlier) ended

end Pull

variable {pullers : List (Decoder σ)} {events : List Event}

private theorem Course.called (course : Course decoder pullers events next) :
    events.filterMap answer? = pullers.flatMap fun puller => puller.calls.map Call.answer := by
  induction course with
  | nil => rfl
  | feed bytes _ ih => exact ih
  | pull _ ih => rw [List.filterMap_append, answers_pullEvents, ih, List.flatMap_cons]

theorem Course.answers (course : Course decoder pullers events next) (coherent : decoder.Coherent) {source : σ}
    (present : decoder.source = some source) :
    ∃ last, next.source = some last ∧ Answers source (events.filterMap answer?) last := by
  induction course generalizing source with
  | nil => exact ⟨source, present, .nil⟩
  | feed bytes _ ih => exact ih (Framer.Coherent.feed coherent bytes) present
  | @pull decoder next pullers events _ ih =>
    obtain ⟨middle, there, earlier⟩ := (pulls_pull coherent).answers present
    obtain ⟨last, kept, later⟩ := ih (coherent_pull coherent) there
    refine ⟨last, kept, ?_⟩
    rw [List.filterMap_append, answers_pullEvents]
    exact earlier.append later

theorem Course.exhausted (course : Course decoder pullers events next) (coherent : decoder.Coherent) :
    next.exhausted = true ↔ decoder.exhausted = true ∨ .answered (.ok .exhausted) ∈ events := by
  induction course with
  | nil => simp
  | feed bytes _ ih =>
    rw [ih (Framer.Coherent.feed coherent bytes), List.mem_cons]
    exact or_congr_right (or_iff_right (nomatch ·)).symm
  | pull _ ih =>
    rw [ih (coherent_pull coherent), (pulls_pull coherent).exhausted, ← mem_pullEvents, List.mem_append, or_assoc]

theorem Course.of_unsupplied (course : Course decoder pullers events next) (coherent : decoder.Coherent)
    (unsupplied : decoder.Unsupplied) :
    events.filterMap answer? = [] ∧ next.source = decoder.source ∧ next.exhausted = decoder.exhausted := by
  induction course with
  | nil => exact ⟨rfl, rfl, rfl⟩
  | feed bytes _ ih => exact ih (Framer.Coherent.feed coherent bytes) unsupplied
  | @pull decoder next pullers events _ ih =>
    obtain ⟨none, source, exhausted⟩ := (pulls_pull coherent).of_unsupplied unsupplied
    have still : decoder.pull.decoder.Unsupplied := by
      rw [Unsupplied, source, exhausted]
      exact unsupplied
    obtain ⟨silent, sameSource, sameEnd⟩ := ih (coherent_pull coherent) still
    refine ⟨?_, sameSource.trans source, sameEnd.trans exhausted⟩
    rw [List.filterMap_append, answers_pullEvents, none, silent]
    rfl

/-- No answer follows the end of a source. -/
theorem Course.not_mem_dropLast (course : Course decoder pullers events next) (coherent : decoder.Coherent) :
    .ok .exhausted ∉ (events.filterMap answer?).dropLast := by
  induction course with
  | nil => exact List.not_mem_nil
  | feed bytes _ ih => exact ih (Framer.Coherent.feed coherent bytes)
  | @pull decoder next pullers events rest ih =>
    have pulls := pulls_pull coherent
    have kept := coherent_pull coherent
    rw [List.filterMap_append, answers_pullEvents]
    by_cases silent : events.filterMap answer? = []
    · rw [silent, List.append_nil]
      exact pulls.disciplined.not_mem_dropLast
    · rw [List.dropLast_append_of_ne_nil silent]
      intro member
      rcases List.mem_append.mp member with inside | later
      · obtain ⟨call, called, ended⟩ := List.mem_map.mp inside
        have spent := pulls.exhausted.mpr (.inr ⟨call, called, ended⟩)
        exact silent (rest.of_unsupplied kept (.inl spent)).1
      · exact ih kept later

/-- Decoders without supply that have the same bytes at hand. What they remember of the
packet in progress may differ. -/
private structure Alike (first second : Decoder σ) : Prop where
  coherent : first.Coherent ∧ second.Coherent
  unsupplied : first.Unsupplied ∧ second.Unsupplied
  width : first.width = second.width
  pending : first.pending = second.pending
  offset : first.offset = second.offset

omit [ByteSource σ] in
private theorem Alike.feed {first second : Decoder σ} (alike : Alike first second) (bytes : List UInt8) :
    Alike (first.feed bytes) (second.feed bytes) := by
  obtain ⟨⟨firstCoherent, secondCoherent⟩, unsupplied, width, pending, offset⟩ := alike
  refine ⟨⟨Framer.Coherent.feed firstCoherent bytes, Framer.Coherent.feed secondCoherent bytes⟩, unsupplied, width, ?_, offset⟩
  rw [pending_feed, pending_feed, pending]

private theorem pullEvents_of_unsupplied (coherent : decoder.Coherent) (unsupplied : decoder.Unsupplied) :
    decoder.pullEvents = [.returned decoder.pull.delivery] := by
  rw [pullEvents, ((pulls_pull coherent).of_unsupplied unsupplied).1]
  rfl

private theorem Alike.pull {first second : Decoder σ} (alike : Alike first second) :
    first.pullEvents = second.pullEvents ∧ Alike first.pull.decoder second.pull.decoder := by
  obtain ⟨⟨firstCoherent, secondCoherent⟩, ⟨firstQuiet, secondQuiet⟩, width, pending, offset⟩ := alike
  rw [pullEvents_of_unsupplied firstCoherent firstQuiet, pullEvents_of_unsupplied secondCoherent secondQuiet]
  cases found : frame? first.width first.pending with
  | none =>
    obtain ⟨firstStarted, firstKept, firstPulled⟩ := pull_of_unsupplied firstQuiet firstCoherent found
    rw [width, pending] at found
    obtain ⟨secondStarted, secondKept, secondPulled⟩ := pull_of_unsupplied secondQuiet secondCoherent found
    rw [firstPulled, secondPulled]
    exact ⟨rfl, ⟨firstKept, secondKept⟩, ⟨firstQuiet, secondQuiet⟩, width, pending, offset⟩
  | some frame =>
    have same := found
    rw [width, pending] at same
    rw [pull_of_some firstCoherent found, pull_of_some secondCoherent same, offset, pending]
    refine ⟨rfl, ⟨Framer.coherent_after _ _, Framer.coherent_after _ _⟩, ⟨firstQuiet, secondQuiet⟩, width, ?_, ?_⟩
    · rw [pending_after, pending_after, pending]
    · rw [offset_after found, offset_after same, offset]

omit [ByteSource σ] in
theorem Placed.congr {stream : List UInt8} {first second : Decoder σ} (one : Placed options stream first)
    (other : Placed options stream second)
    (same : whole options (stream.take first.offset) = whole options (stream.take second.offset)) :
    first.offset = second.offset ∧ first.pending = second.pending := by
  have filled {decoder : Decoder σ} (placed : Placed options stream decoder) :
      (blocks options.timestampWidth stream (whole options (stream.take decoder.offset))).flatten =
        stream.take decoder.offset := by
    have taken := flatten_blocks placed.settled 0 (stream.drop decoder.offset)
    rwa [List.take_append_drop] at taken
  have equal := filled one
  rw [same, filled other] at equal
  have lengths := congrArg List.length equal
  rw [List.length_take_of_le one.inside, List.length_take_of_le other.inside] at lengths
  refine ⟨lengths.symm, ?_⟩
  rw [one.pending, other.pending, lengths]

/-- After the end of its source a decoder is one that has been fed the same bytes and has
returned as many of the items. -/
private theorem alike_pushed {past : List Event} (tiled : Tiled options past decoder) (ended : decoder.exhausted = true) :
    Alike decoder ((new options).perform [.feed (received past), .take (yielded past).length]) := by
  have fed : Placed options (received past) ((new options : Decoder σ).feed (received past)) :=
    (placed_start options none).arrive (Framer.Coherent.feed (coherent_new options) _) rfl rfl (pending_feed _ _)
  obtain ⟨placed, returned⟩ := placed_take fed (.inr rfl) (yielded past).length
  have quiet := ((course_operate _ (.take (yielded past).length)).of_unsupplied fed.coherent (.inr rfl)).2.1
  -- The items of the past are the first of those that the bytes received hold.
  have first := tiled.placed.whole_append []
  rw [List.append_nil, ← tiled.yielded] at first
  have items : ((new options : Decoder σ).feed (received past)).singles.deliveries.take (yielded past).length = yielded past := by
    rw [(decoded_feed options (received past)).deliveries]
    exact (congrArg _ first).trans (List.take_left' rfl)
  rw [deliveries_take, items] at returned
  obtain ⟨offset, pending⟩ := tiled.placed.congr placed (tiled.yielded.symm.trans returned.symm)
  exact ⟨⟨tiled.placed.coherent, placed.coherent⟩, ⟨.inl ended, .inr quiet⟩, tiled.placed.width.trans placed.width.symm,
    pending, offset⟩

/-- The source of a decoder is called only where the bytes at hand complete nothing, once more
in the same pull only after bytes, and never after its end. From there on the decoder is one
whose bytes are fed. A decoder without a source never meets an end. -/
theorem source_called_when_waiting (options : Options) (source : σ) (operations later : List Operation) :
    let start : Decoder σ := withSource source options
    let past := start.history operations
    let decoder := start.perform operations
    let pushed : Decoder σ := (new options).perform [.feed (received past), .take (yielded past).length]
    (∃ last, decoder.source = some last ∧ Answers source (past.filterMap answer?) last) ∧
    past.filterMap answer? = (start.pullers operations).flatMap (fun puller => puller.calls.map Call.answer) ∧
    (∀ puller ∈ start.pullers operations, Disciplined puller.calls puller.pull ∧
      ∀ call ∈ puller.calls, ((new options : Decoder σ).feed call.caller.pending).singles.deliveries = []) ∧
    (decoder.exhausted = true ↔ .answered (.ok .exhausted) ∈ past) ∧
    .ok .exhausted ∉ (past.filterMap answer?).dropLast ∧
    (decoder.exhausted = true → (decoder.perform later).exhausted = true ∧
      decoder.history later = pushed.history later ∧
      (decoder.perform later).offset = (pushed.perform later).offset ∧
      (decoder.perform later).pending = (pushed.perform later).pending) ∧
    ((new options : Decoder σ).perform operations).exhausted = false := by
  intro start past decoder pushed
  have course := course_history start operations
  have fresh : start.Coherent := (placed_start options (some source)).coherent
  refine ⟨course.answers fresh rfl, course.called, ?_, ?_, course.not_mem_dropLast fresh, ?_, ?_⟩
  · intro puller member
    obtain ⟨coherent, width⟩ := (coherent_pullers options (some source) operations).1 puller member
    have pulls := pulls_pull coherent
    refine ⟨pulls.disciplined, ?_⟩
    intro call called
    obtain ⟨-, same, waiting⟩ := pulls.caller call called
    rw [same, width] at waiting
    rw [(decoded_feed options call.caller.pending).deliveries, parse_of_none waiting]
    rfl
  · rw [course.exhausted fresh]
    exact or_iff_right Bool.false_ne_true
  · intro ended
    have tiled : Tiled options past decoder := tiled_history options (some source) operations
    have rest := (course_history decoder later).of_unsupplied tiled.placed.coherent (.inl ended)
    obtain ⟨seen, alike⟩ := history_congr (fun bytes alike => Alike.feed alike bytes) Alike.pull (alike_pushed tiled ended) later
    exact ⟨rest.2.2.trans ended, seen, alike.offset, alike.pending⟩
  · have pushing : (new options : Decoder σ).Coherent := coherent_new options
    exact ((course_history _ operations).of_unsupplied pushing (.inr rfl)).2.2

end Decoder

end SingleWire
