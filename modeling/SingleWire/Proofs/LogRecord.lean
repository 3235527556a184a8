import SingleWire.Form.LogEntry
import SingleWire.Proofs.SourceDiscipline

/-! The log of a decoder is a record of its history. Each answer of the source and each packet or
fault that is returned has its line, in the order in which they come, and nothing else has one. -/

namespace SingleWire

namespace LogEntry

def item? : LogEntry → Option (Except DecodeError Packet)
  | decoded packet => some (.ok packet)
  | skipped fault => some (.error (.malformed fault))
  | _ => none

def count : LogEntry → Nat
  | pulled count => count
  | _ => 0

def total? : LogEntry → Option Nat
  | exhausted total => some total
  | _ => none

def line (entry : LogEntry) : LogLevel × String := (entry.level, entry.message)

end LogEntry

namespace Event

def fedBytes : Event → List UInt8
  | fed bytes => bytes
  | _ => []

/-- The entry about an event before which so many bytes have been received. -/
def logged? (total : Nat) : Event → Option LogEntry
  | answered (.ok (.data bytes)) => some (.pulled bytes.length)
  | answered (.ok .exhausted) => some (.exhausted total)
  | answered (.error failure) => some (.failed failure)
  | returned (some (.ok packet)) => some (.decoded packet)
  | returned (some (.error (.malformed fault))) => some (.skipped fault)
  | _ => none

def line? (total : Nat) : Event → Option (LogLevel × String)
  | answered (.ok (.data bytes)) => some (.trace, s!"pulled {bytes.length} bytes from source")
  | answered (.ok .exhausted) => some (.debug, s!"byte source exhausted after {total} bytes")
  | answered (.error failure) => some (.warn, s!"byte source failed: {failure.message}")
  | returned (some (.ok packet)) => some (.trace, s!"decoded {packet.text}")
  | returned (some (.error (.malformed fault))) => some (.debug, s!"skipping malformed bytes: {fault.message}")
  | _ => none

/-- What is noted down of events one after another, each with the number of bytes received before it. -/
def record {note : Type} (note? : Nat → Event → Option note) : (total : Nat) → List Event → List note
  | _, [] => []
  | total, event :: later => (note? total event).toList ++ record note? (total + event.bytes.length) later

theorem record_append {note : Type} (note? : Nat → Event → Option note) (total : Nat) (earlier later : List Event) :
    record note? total (earlier ++ later) =
      record note? total earlier ++ record note? (total + (received earlier).length) later := by
  induction earlier generalizing total with
  | nil => rfl
  | cons event earlier ih =>
    have bytes : received (event :: earlier) = event.bytes ++ received earlier := rfl
    rw [List.cons_append, record, ih, record, List.append_assoc, bytes, List.length_append, Nat.add_assoc]

theorem record_single {note : Type} (note? : Nat → Event → Option note) (total : Nat) (event : Event) :
    record note? total [event] = (note? total event).toList := List.append_nil _

def ends : Except Failure Pulled → Bool
  | .ok .exhausted => true
  | _ => false

private theorem record_event (total : Nat) (event : Event) :
    let entries := record logged? total [event]
    entries.map LogEntry.line = record line? total [event] ∧
    entries.filterMap LogEntry.item? = yielded [event] ∧
    (entries.map LogEntry.count).sum + event.fedBytes.length = event.bytes.length ∧
    (entries.filterMap LogEntry.total?).length = ([event].filterMap answer?).countP ends := by
  rcases event with bytes | (failure | (bytes | _ | _)) | (_ | (fault | failure) | packet)
  · exact ⟨rfl, rfl, Nat.zero_add _, rfl⟩
  all_goals exact ⟨rfl, rfl, rfl, rfl⟩

theorem lines_record (total : Nat) (events : List Event) :
    (record logged? total events).map LogEntry.line = record line? total events := by
  induction events generalizing total with
  | nil => rfl
  | cons event later ih =>
    rw [← List.singleton_append, record_append, record_append, List.map_append, ih, (record_event total event).1]

theorem items_record (total : Nat) (events : List Event) :
    (record logged? total events).filterMap LogEntry.item? = yielded events := by
  induction events generalizing total with
  | nil => rfl
  | cons event later ih =>
    rw [← List.singleton_append, record_append, List.filterMap_append, ih, (record_event total event).2.1]
    exact List.filterMap_append.symm

theorem counts_record (total : Nat) (events : List Event) :
    ((record logged? total events).map LogEntry.count).sum + (events.flatMap fedBytes).length = (received events).length := by
  induction events generalizing total with
  | nil => rfl
  | cons event later ih =>
    have bytes : received (event :: later) = event.bytes ++ received later := rfl
    have rest := ih (total + (received [event]).length)
    have one := (record_event total event).2.2.1
    rw [bytes, ← List.singleton_append, record_append, List.map_append, List.sum_append, List.flatMap_append,
      List.length_append, List.length_append, ← one, ← rest, List.flatMap_singleton]
    omega

/-- The ends of a source are noted down, each with the bytes received by then. -/
theorem totals_record (total : Nat) (events : List Event) :
    ((record logged? total events).filterMap LogEntry.total?).length = (events.filterMap answer?).countP ends := by
  induction events generalizing total with
  | nil => rfl
  | cons event later ih =>
    rw [← List.singleton_append, record_append, List.filterMap_append, List.length_append, ih,
      (record_event total event).2.2.2, List.filterMap_append, List.countP_append]

theorem exhausted_of_record {total count : Nat} {events : List Event} (noted : .exhausted count ∈ record logged? total events) :
    ∃ earlier later, events = earlier ++ .answered (.ok .exhausted) :: later ∧ count = total + (received earlier).length := by
  induction events generalizing total with
  | nil => cases noted
  | cons event others ih =>
    rcases List.mem_append.mp noted with now | afterwards
    · have spent : event = .answered (.ok .exhausted) ∧ count = total := by
        rcases event with bytes | (failure | (bytes | _ | _)) | (_ | (fault | failure) | packet)
        all_goals cases Option.mem_toList.mp now
        exact ⟨rfl, rfl⟩
      obtain ⟨rfl, rfl⟩ := spent
      exact ⟨[], others, rfl, rfl⟩
    · obtain ⟨earlier, later, rfl, rfl⟩ := ih afterwards
      refine ⟨event :: earlier, later, rfl, ?_⟩
      have bytes : received (event :: earlier) = event.bytes ++ received earlier := rfl
      rw [bytes, List.length_append, Nat.add_assoc]

end Event

namespace Decoder
open Grammar Event

variable {σ : Type} [ByteSource σ] {decoder : Decoder σ}

def logOf (decoder : Decoder σ) : Operation → List LogEntry
  | .feed _ => []
  | .pull => decoder.pull.log
  | .singles => decoder.singles.log
  | .take limit => (decoder.take limit).log

def log (decoder : Decoder σ) : List Operation → List LogEntry
  | [] => []
  | operation :: later => decoder.logOf operation ++ (decoder.operate operation).log later

def total (decoder : Decoder σ) : Nat := decoder.offset + decoder.buffered

omit [ByteSource σ] in
private theorem total_told (decoder : Decoder σ) (source : σ) (answer : Except Failure Pulled) :
    (decoder.told source answer).total = decoder.total + (Pulled.bytes answer).length := by
  rw [total, offset_told, buffered_told, ← Nat.add_assoc]
  rfl

omit [ByteSource σ] in
private theorem note_eq_logged (decoder : Decoder σ) (answer : Except Failure Pulled) :
    decoder.note answer = ((Event.answered answer).logged? decoder.total).toList := by
  rcases answer with failure | (bytes | _ | _) <;> rfl

omit [ByteSource σ] in
private theorem Step.total {event : Event} {next : Decoder σ} (step : Step decoder event next) :
    next.total = decoder.total + event.bytes.length := by
  cases step with
  | feed bytes =>
    rw [Decoder.total, ← length_pending, pending_feed, List.length_append, length_pending, ← Nat.add_assoc]
    rfl
  | ask kept source answer => exact total_told _ source answer
  | @deliver frame found =>
    have bound := (length_frame? found).2
    rw [Decoder.total, offset_after found, ← length_pending, pending_after, List.length_drop, Decoder.total, ← length_pending]
    simp only [Event.bytes, List.length_nil]
    omega
  | giveUp waiting kept gaveUp => rfl

omit [ByteSource σ] in
theorem Steps.total {events : List Event} {next : Decoder σ} (steps : Steps decoder events next) :
    next.total = decoder.total + (received events).length := by
  induction steps with
  | nil => rfl
  | @cons decoder middle next event later first rest ih =>
    have bytes : received (event :: later) = event.bytes ++ received later := rfl
    rw [ih, first.total, bytes, List.length_append, Nat.add_assoc]

/-- Each call of a pull notes down its answer, and then the pull notes down what it returns. -/
private theorem Pulls.log {calls : List (Call σ)} {pull : Pull σ} (pulls : Pulls decoder calls pull) :
    pull.log = record logged? decoder.total (calls.map (fun call => .answered call.answer) ++ [.returned pull.delivery]) := by
  induction pulls with
  | @found decoder frame found =>
    rw [List.map_nil, List.nil_append, record_single]
    cases frame.item decoder.offset decoder.pending with
    | ok packet => rfl
    | error fault => rfl
  | unsupplied waiting kept unsupplied => rfl
  | @refused decoder started source answer waiting kept going present answered empty =>
    rw [note_eq_logged]
    rcases answer with failure | (bytes | _ | _) <;> rfl
  | @more decoder started source answer calls pull waiting kept going present answered bytes rest ih =>
    rw [ih, note_eq_logged, total_told]
    rfl

theorem log_pull (coherent : decoder.Coherent) : decoder.pull.log = record logged? decoder.total decoder.pullEvents :=
  (pulls_pull coherent).log

private theorem log_singles (coherent : decoder.Coherent) :
    decoder.singles.log = record logged? decoder.total decoder.singlesEvents := by
  fun_induction singlesEvents decoder with
  | case1 decoder quiet =>
    rw [singles_of_none quiet]
    exact log_pull coherent
  | case2 decoder delivery given ih =>
    have steps := steps_pull coherent
    rw [singles_of_some given, record_append, ← steps.total, ← ih (steps.coherent coherent), ← log_pull coherent]

private theorem log_take (coherent : decoder.Coherent) (limit : Nat) :
    (decoder.take limit).log = record logged? decoder.total (decoder.takeEvents limit) := by
  induction limit generalizing decoder with
  | zero => rfl
  | succ limit ih =>
    have steps := steps_pull coherent
    rw [takeEvents, take]
    cases decoder.pull.delivery with
    | none => exact log_pull coherent
    | some delivery =>
      simp only
      rw [record_append, ← steps.total, ← ih (steps.coherent coherent), ← log_pull coherent]

theorem log_operation (coherent : decoder.Coherent) (operation : Operation) :
    decoder.logOf operation = record logged? decoder.total (decoder.events operation) := by
  cases operation with
  | feed bytes => rfl
  | pull => exact log_pull coherent
  | singles => exact log_singles coherent
  | take limit => exact log_take coherent limit

theorem log_operations (coherent : decoder.Coherent) (operations : List Operation) :
    decoder.log operations = record logged? decoder.total (decoder.history operations) := by
  induction operations generalizing decoder with
  | nil => rfl
  | cons operation later ih =>
    have steps := steps_operate coherent operation
    rw [log, history, record_append, ← steps.total, log_operation coherent, ih (steps.coherent coherent)]

private theorem countP_ends_le {answers : List (Except Failure Pulled)} (once : .ok .exhausted ∉ answers.dropLast) :
    answers.countP ends ≤ 1 := by
  rcases answers.eq_nil_or_concat with rfl | ⟨earlier, last, rfl⟩
  · exact Nat.zero_le 1
  rw [List.concat_eq_append, List.dropLast_concat] at once
  have none : earlier.countP ends = 0 := by
    apply List.countP_eq_zero.mpr
    intro answer member ended
    rcases answer with failure | (bytes | _ | _)
    · cases ended
    · cases ended
    · cases ended
    · exact once member
  rw [List.concat_eq_append, List.countP_append, none, Nat.zero_add]
  exact List.countP_le_length

/-- A feed is not noted down. A pull notes down each answer of its source, and after them the
packet or fault that it returns. So the log of a run tells what has been returned, when the source
has ended, and how many bytes it has given. -/
theorem log_records_history (options : Options) (source : Option σ) (operations : List Operation) :
    let start : Decoder σ := source.elim (new options) (withSource · options)
    let past := start.history operations
    let decoder := start.perform operations
    let log := start.log operations
    (∀ bytes, decoder.logOf (.feed bytes) = []) ∧
    decoder.pull.log.map LogEntry.line = record line? (received past).length
      (decoder.calls.map (fun call => .answered call.answer) ++ [.returned decoder.pull.delivery]) ∧
    log.map LogEntry.line = record line? 0 past ∧
    log.filterMap LogEntry.item? = yielded past ∧
    (log.filterMap LogEntry.total?).length ≤ 1 ∧
    (∀ total, .exhausted total ∈ log → ∃ earlier later,
      past = earlier ++ .answered (.ok .exhausted) :: later ∧ total = (received earlier).length) ∧
    (log.map LogEntry.count).sum + (past.flatMap fedBytes).length = decoder.offset + decoder.buffered := by
  intro start past decoder log
  have placed := (tiled_history options source operations).placed
  have coherent : start.Coherent := (placed_start options source).coherent
  have fresh : start.total = 0 := (placed_start options source).offset_add_buffered
  have arrived : decoder.total = (received past).length := placed.offset_add_buffered
  have recorded : log = record logged? 0 past := fresh ▸ log_operations coherent operations
  refine ⟨fun _ => rfl, ?_, ?_, ?_, ?_, ?_, ?_⟩
  · rw [log_pull placed.coherent, arrived, lines_record]
    rfl
  · rw [recorded, lines_record]
  · rw [recorded, items_record]
  · rw [recorded, totals_record]
    exact countP_ends_le ((course_history start operations).not_mem_dropLast coherent)
  · intro total noted
    rw [recorded] at noted
    obtain ⟨earlier, later, split, count⟩ := exhausted_of_record noted
    exact ⟨earlier, later, split, count.trans (Nat.zero_add _)⟩
  · rw [recorded, counts_record]
    exact arrived.symm

example : record line? 0 [.answered (.ok (.data [0, 0, 0, 0, 0, 0x80])), .returned (some (.ok (.sync 5))),
      .answered (.ok .exhausted), .returned none] =
    [(.trace, "pulled 6 bytes from source"), (.trace, "decoded Sync \x7b zeros: 5 \x7d"),
      (.debug, "byte source exhausted after 6 bytes")] := rfl

end Decoder

end SingleWire
