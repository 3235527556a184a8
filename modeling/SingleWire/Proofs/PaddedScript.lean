import SingleWire.Proofs.SourceDiscipline
import SingleWire.Proofs.SourceWalk

/-! Pulls from a scripted source until it has ended. They return what the bytes of the script
hold, and answers that bring none may stand anywhere among them. -/

namespace SingleWire
open Grammar

namespace ScriptEvent

/-- A script into which answers have been put that bring no bytes, also between bytes that
came together. -/
inductive Padded : List ScriptEvent → List ScriptEvent → Prop where
  | nil : Padded [] []
  | keep {events padded : List ScriptEvent} (event : ScriptEvent) (rest : Padded events padded) :
    Padded (event :: events) (event :: padded)
  | put {events padded : List ScriptEvent} {event : ScriptEvent} (empty : Pulled.bytes event.pulled = [])
      (going : event ≠ .finish) (rest : Padded events padded) : Padded events (event :: padded)
  | split {events padded : List ScriptEvent} (first second : List UInt8) (rest : Padded (.data second :: events) padded) :
    Padded (.data (first ++ second) :: events) (.data first :: padded)

/-- The bytes of a script up to its first end. -/
def streamed : List ScriptEvent → List UInt8
  | [] | .finish :: _ => []
  | event :: later => Pulled.bytes event.pulled ++ streamed later

private theorem streamed_cons {event : ScriptEvent} (going : event ≠ .finish) (later : List ScriptEvent) :
    streamed (event :: later) = Pulled.bytes event.pulled ++ streamed later := by
  cases event with
  | finish => exact absurd rfl going
  | data | pending | fail => rfl

theorem Padded.streamed {events padded : List ScriptEvent} (put : Padded events padded) :
    ScriptEvent.streamed padded = ScriptEvent.streamed events := by
  induction put with
  | nil => rfl
  | keep event _ ih =>
    cases event with
    | finish => rfl
    | data | pending | fail => exact congrArg (_ ++ ·) ih
  | put empty going _ ih => rw [streamed_cons going, empty, ih, List.nil_append]
  | split first second _ ih => exact (congrArg (first ++ ·) ih).trans (List.append_assoc _ _ _).symm

end ScriptEvent

namespace Decoder
open Event ScriptEvent

variable {options : Options}

private theorem streamed_of_end {script : Script} (ended : (ByteSource.pull script).1 = .ok .exhausted) :
    streamed script.events = [] := by
  obtain ⟨events, calls⟩ := script
  rcases events with _ | ⟨bytes | _ | _ | failure, later⟩
  · rfl
  · cases ended
  · cases ended
  · rfl
  · cases ended

private theorem streamed_of_answer {script : Script} (going : (ByteSource.pull script).1 ≠ .ok .exhausted) :
    streamed script.events = Pulled.bytes (ByteSource.pull script).1 ++ streamed (ByteSource.pull script).2.events := by
  obtain ⟨events, calls⟩ := script
  cases events with
  | nil => exact absurd rfl going
  | cons event later =>
    apply streamed_cons
    rintro rfl
    exact going rfl

private theorem bytes_of_answers {script last : Script} {answers : List (Except Failure Pulled)}
    (answered : Answers script answers last) (ended : .ok .exhausted ∈ answers) (once : .ok .exhausted ∉ answers.dropLast) :
    answers.flatMap Pulled.bytes = streamed script.events := by
  induction answered with
  | nil => cases ended
  | @cons script last later rest ih =>
    cases later with
    | nil =>
      have same := List.mem_singleton.mp ended
      rw [streamed_of_end same.symm, ← same]
      rfl
    | cons answer others =>
      rw [List.dropLast_cons_cons, List.mem_cons, not_or] at once
      have going : (ByteSource.pull script).1 ≠ .ok .exhausted := fun same => once.1 same.symm
      have still := (List.mem_cons.mp ended).resolve_left (fun same => going same.symm)
      rw [List.flatMap_cons, ih still once.2, streamed_of_answer going]

section Pulling
variable {σ : Type} [ByteSource σ] {decoder : Decoder σ}

private theorem received_pulling (decoder : Decoder σ) (times : Nat) :
    received (decoder.history (List.replicate times .pull)) =
      ((decoder.history (List.replicate times .pull)).filterMap answer?).flatMap Pulled.bytes := by
  induction times generalizing decoder with
  | zero => rfl
  | succ times ih =>
    rw [List.replicate_succ, history, events, operate, List.filterMap_append, List.flatMap_append, ← ih, answers_pullEvents,
      List.flatMap_map, ← received_pullEvents]
    exact List.flatMap_append

private theorem Pulls.spent {calls : List (Call σ)} {pull : Pull σ} (pulls : Pulls decoder calls pull)
    (spent : decoder.exhausted = true → frame? decoder.width decoder.pending = none) (ended : pull.decoder.exhausted = true) :
    frame? pull.decoder.width pull.decoder.pending = none := by
  induction pulls with
  | found found =>
    rw [spent ended] at found
    cases found
  | unsupplied waiting kept unsupplied => exact waiting
  | @refused decoder started source answer waiting kept going present answered empty =>
    have remembered : frame? (decoder.remember started).width (decoder.remember started).pending = none := waiting
    exact waiting_told remembered _ empty
  | more waiting kept going present answered bytes rest ih =>
    refine ih ?_ ended
    intro impossible
    rw [exhausted_told _ _ (more_of_bytes bytes)] at impossible
    exact absurd (going.symm.trans impossible) Bool.false_ne_true

private theorem spent_pulling (coherent : decoder.Coherent)
    (spent : decoder.exhausted = true → frame? decoder.width decoder.pending = none) (times : Nat) :
    let last := decoder.perform (List.replicate times .pull)
    last.exhausted = true → frame? last.width last.pending = none := by
  induction times generalizing decoder with
  | zero => exact spent
  | succ times ih => exact ih (coherent_pull coherent) ((pulls_pull coherent).spent spent)

private theorem perform_pulling (decoder : Decoder σ) (times : Nat) :
    decoder.perform (List.replicate times .pull) = (decoder.poll times).decoder := by
  induction times generalizing decoder with
  | zero => rfl
  | succ times ih => exact ih _

end Pulling

/-- Pulls until the end of a script return all that its bytes hold. -/
theorem pulled_until_end (options : Options) (events : List ScriptEvent) (times : Nat) :
    let start : Decoder Script := withSource { events } options
    let past := start.history (List.replicate times .pull)
    (start.perform (List.replicate times .pull)).exhausted = true →
      received past = streamed events ∧ yielded past = whole options (streamed events) := by
  intro start past ended
  let script : Script := { events }
  have tiled : Tiled options past (start.perform (List.replicate times .pull)) := tiled_history options (some script) _
  have fresh : start.Coherent := (placed_start options (some script)).coherent
  have course := course_history start (List.replicate times .pull)
  obtain ⟨last, -, answers⟩ := course.answers fresh rfl
  have met := ((course.exhausted fresh).mp ended).resolve_left Bool.false_ne_true
  have answered : .ok .exhausted ∈ past.filterMap answer? := List.mem_filterMap.mpr ⟨_, met, rfl⟩
  have stream : received past = streamed events :=
    (received_pulling start times).trans (bytes_of_answers answers answered (course.not_mem_dropLast fresh))
  have spent := spent_pulling fresh (fun impossible => absurd impossible Bool.false_ne_true) times ended
  have items := tiled.placed.whole_append []
  rw [List.append_nil, List.append_nil, parse_of_none spent, ← tiled.yielded, List.map_nil, List.append_nil, stream] at items
  exact ⟨stream, items.symm⟩

theorem exists_pulling_until_end (options : Options) (events : List ScriptEvent) :
    ∃ times, ((withSource { events } options : Decoder Script).perform (List.replicate times .pull)).exhausted = true := by
  let script : Script := { events }
  have placed : Placed options [] (withSource script options) := placed_start options (some script)
  obtain ⟨-, ended, -⟩ := (Ahead.going placed rfl rfl).poll rfl (upcoming options [] (withSource script options) script).length
  refine ⟨(upcoming options [] (withSource script options) script).length, ?_⟩
  rw [perform_pulling]
  exact ended.mpr (Nat.le_refl _)

end Decoder

end SingleWire
