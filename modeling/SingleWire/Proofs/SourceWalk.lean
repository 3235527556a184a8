import SingleWire.Script
import SingleWire.Proofs.Tiling

/-! Pulls from a scripted source are a walk over its events: each event gives the packets
and faults that its bytes complete, or one result of its own. -/

namespace SingleWire

structure Stop where
  delivery : Option (Except DecodeError Packet)
  calls : Nat

namespace Decoder
open Grammar

/-- All packets and faults of bytes that are fed at once. -/
def atOnce (options : Options) (bytes : List UInt8) : List (Except DecodeError Packet) :=
  ((new options : Decoder Script).feed bytes).singles.deliveries

/-- What comes of one answer of a source that has given the bytes `seen` before. -/
def results (options : Options) (seen : List UInt8) : Except Failure Pulled → List (Option (Except DecodeError Packet))
  | .ok (.data []) | .ok .pending | .ok .exhausted => [none]
  | .ok (.data bytes) => ((atOnce options (seen ++ bytes)).drop (atOnce options seen).length).map some
  | .error failure => [some (.error (.source failure))]

/-- The walk over the events of a script up to its first end. -/
def walk (options : Options) : (seen : List UInt8) → (calls : Nat) → List ScriptEvent → List Stop
  | _, calls, [] | _, calls, .finish :: _ => [{ delivery := none, calls := calls + 1 }]
  | seen, calls, event :: later =>
    (results options seen event.pulled).map (fun delivery => { delivery, calls := calls + 1 }) ++
      walk options (seen ++ Pulled.bytes event.pulled) (calls + 1) later

variable {options : Options} {seen : List UInt8} {decoder : Decoder Script} {script : Script}

private theorem calls_pull (script : Script) : (ByteSource.pull script).2.calls = script.calls + 1 := by
  obtain ⟨events, calls⟩ := script
  cases events with
  | nil => rfl
  | cons event later => rfl

private theorem walk_of_end (ended : (ByteSource.pull script).1 = .ok .exhausted) (options : Options) (seen : List UInt8) :
    walk options seen script.calls script.events = [{ delivery := none, calls := script.calls + 1 }] := by
  obtain ⟨events, calls⟩ := script
  rcases events with _ | ⟨bytes | _ | _ | failure, later⟩
  · rfl
  · cases ended
  · cases ended
  · rfl
  · cases ended

private theorem walk_of_answer (going : (ByteSource.pull script).1 ≠ .ok .exhausted) (options : Options) (seen : List UInt8) :
    walk options seen script.calls script.events =
      (results options seen (ByteSource.pull script).1).map (fun delivery => { delivery, calls := script.calls + 1 }) ++
        walk options (seen ++ Pulled.bytes (ByteSource.pull script).1) (script.calls + 1)
          (ByteSource.pull script).2.events := by
  obtain ⟨events, calls⟩ := script
  rcases events with _ | ⟨bytes | _ | _ | failure, later⟩
  · exact absurd rfl going
  · rfl
  · rfl
  · exact absurd rfl going
  · rfl

private theorem walk_ne_nil (options : Options) (seen : List UInt8) (calls : Nat) (events : List ScriptEvent) :
    walk options seen calls events ≠ [] := by
  fun_induction walk options seen calls events with
  | case1 => simp
  | case2 => simp
  | case3 seen calls event later _ ih => simp [ih]

private theorem results_of_bytes (placed : Placed options seen decoder)
    (waiting : frame? decoder.width decoder.pending = none) {bytes : List UInt8} (some : bytes ≠ []) :
    results options seen (.ok (.data bytes)) =
      (parse decoder.width decoder.offset (decoder.pending ++ bytes)).map fun item => Option.some (delivered item) := by
  have items (bytes : List UInt8) : atOnce options bytes = whole options bytes := (decoded_feed options bytes).deliveries
  have before := placed.whole_append []
  rw [List.append_nil, List.append_nil, parse_of_none waiting, List.map_nil, List.append_nil] at before
  obtain ⟨first, rest, rfl⟩ := List.exists_cons_of_ne_nil some
  rw [results, items, items, placed.whole_append, before, List.drop_left' rfl, List.map_map]
  · rfl
  · simp

/-- The stops that a decoder still has to make: those of the bytes at hand, then those of
the events to come. -/
def upcoming (options : Options) (seen : List UInt8) (decoder : Decoder Script) (script : Script) : List Stop :=
  (parse decoder.width decoder.offset decoder.pending).map
      (fun item => { delivery := some (delivered item), calls := script.calls }) ++
    walk options seen script.calls script.events

/-- Where a decoder is in the walk over the events of its source. -/
inductive Ahead (options : Options) : Decoder Script → List Stop → Prop where
  | going {decoder : Decoder Script} {seen : List UInt8} {script : Script} (placed : Placed options seen decoder)
      (going : decoder.exhausted = false) (present : decoder.source = some script) :
    Ahead options decoder (upcoming options seen decoder script)
  | ended {decoder : Decoder Script} (coherent : decoder.Coherent)
      (waiting : frame? decoder.width decoder.pending = none) (ended : decoder.exhausted = true) : Ahead options decoder []

private theorem Ahead.exhausted_iff {stops : List Stop} (ahead : Ahead options decoder stops) :
    decoder.exhausted = true ↔ stops = [] := by
  cases ahead with
  | going placed going present =>
    refine ⟨?_, ?_⟩
    · intro ended
      rw [going] at ended
      cases ended
    · intro none
      exact absurd (List.append_eq_nil_iff.mp none).2 (walk_ne_nil _ _ _ _)
  | ended coherent waiting ended => exact ⟨fun _ => rfl, fun _ => ended⟩

structure Makes (options : Options) (pull : Pull Script) (stop : Stop) (later : List Stop) : Prop where
  delivery : pull.delivery = stop.delivery
  calls : pull.decoder.source.map Script.calls = some stop.calls
  ahead : Ahead options pull.decoder later

private theorem results_of_empty {answer : Except Failure Pulled} (empty : Pulled.bytes answer = []) :
    results options seen answer = [refusal answer] := by
  rcases answer with failure | (bytes | _ | _)
  · rfl
  · cases empty
    rfl
  · rfl
  · rfl

private theorem ahead_told {started : Option Started} (placed : Placed options seen decoder)
    (kept : (decoder.remember started).Coherent) (going : decoder.exhausted = false)
    (more : (ByteSource.pull script).1 ≠ .ok .exhausted) :
    let told := (decoder.remember started).told (ByteSource.pull script).2 (ByteSource.pull script).1
    Ahead options told (upcoming options (seen ++ Pulled.bytes (ByteSource.pull script).1) told (ByteSource.pull script).2) :=
  .going (placed.ask kept _ _) ((exhausted_told _ _ more).trans going) (source_told _ _ _)

private theorem makes_refused {started : Option Started} (placed : Placed options seen decoder)
    (waiting : frame? decoder.width decoder.pending = none) (kept : (decoder.remember started).Coherent)
    (going : decoder.exhausted = false) (empty : Pulled.bytes (ByteSource.pull script).1 = []) :
    ∃ stop later, walk options seen script.calls script.events = stop :: later ∧
      Makes options
        { delivery := refusal (ByteSource.pull script).1
          log := (decoder.remember started).note (ByteSource.pull script).1
          decoder := (decoder.remember started).told (ByteSource.pull script).2 (ByteSource.pull script).1 }
        stop later := by
  have remembered : frame? (decoder.remember started).width (decoder.remember started).pending = none := waiting
  have spent := waiting_told remembered (ByteSource.pull script).2 empty
  have called := source_told (decoder.remember started) (ByteSource.pull script).2 (ByteSource.pull script).1
  by_cases ended : (ByteSource.pull script).1 = .ok .exhausted
  · refine ⟨_, [], walk_of_end ended options seen, ?_, ?_, ?_⟩
    · rw [ended]
      rfl
    · rw [called, Option.map_some, calls_pull]
    · rw [ended] at spent ⊢
      exact .ended kept spent rfl
  · refine ⟨{ delivery := refusal (ByteSource.pull script).1, calls := script.calls + 1 }, _, ?_, rfl, ?_,
      ahead_told placed kept going ended⟩
    · rw [walk_of_answer ended, results_of_empty empty, upcoming, parse_of_none spent, calls_pull]
      rfl
    · rw [called, Option.map_some, calls_pull]

/-- Bytes go on with the walk, and what they complete is at hand then. -/
private theorem upcoming_of_bytes (started : Option Started) (placed : Placed options seen decoder)
    (waiting : frame? decoder.width decoder.pending = none) (bytes : Pulled.bytes (ByteSource.pull script).1 ≠ []) :
    upcoming options seen decoder script =
      upcoming options (seen ++ Pulled.bytes (ByteSource.pull script).1)
        ((decoder.remember started).told (ByteSource.pull script).2 (ByteSource.pull script).1)
        (ByteSource.pull script).2 := by
  have more := more_of_bytes bytes
  have found : results options seen (ByteSource.pull script).1 =
      (parse decoder.width decoder.offset (decoder.pending ++ Pulled.bytes (ByteSource.pull script).1)).map
        fun item => some (delivered item) := by
    rcases answered : (ByteSource.pull script).1 with failure | (data | _ | _)
    · rw [answered] at bytes
      exact absurd rfl bytes
    · rw [answered] at bytes
      exact results_of_bytes placed waiting bytes
    · rw [answered] at bytes
      exact absurd rfl bytes
    · exact absurd answered more
  rw [upcoming, parse_of_none waiting, walk_of_answer more, found, upcoming, width_told, offset_told, pending_told, calls_pull,
    List.map_map]
  rfl

private theorem makes_pulls {calls : List (Call Script)} {pull : Pull Script} (placed : Placed options seen decoder)
    (going : decoder.exhausted = false) (present : decoder.source = some script) (pulls : Pulls decoder calls pull) :
    ∃ stop later, upcoming options seen decoder script = stop :: later ∧ Makes options pull stop later := by
  induction pulls generalizing seen script with
  | @found decoder frame found =>
    refine ⟨{ delivery := some (delivered (frame.item decoder.offset decoder.pending)), calls := script.calls },
      upcoming options seen (decoder.after frame) script, ?_, rfl, ?_, .going (placed.deliver found) going present⟩
    · rw [upcoming, parse_of_some found, upcoming, offset_after found, pending_after]
      rfl
    · exact congrArg (Option.map Script.calls) present
  | unsupplied waiting kept unsupplied =>
    rcases unsupplied with ended | absent
    · rw [going] at ended
      cases ended
    · rw [present] at absent
      cases absent
  | @refused decoder started source answer waiting kept running there answered empty =>
    rw [present] at there
    cases there
    subst answered
    obtain ⟨stop, later, walked, makes⟩ := makes_refused placed waiting kept going empty
    refine ⟨stop, later, ?_, makes⟩
    rw [upcoming, parse_of_none waiting]
    exact walked
  | @more decoder started source answer calls pull waiting kept running there answered bytes rest ih =>
    rw [present] at there
    cases there
    subst answered
    -- The stops ahead are the same after bytes: they go from the walk to those at hand.
    have more := more_of_bytes bytes
    obtain ⟨stop, later, walked, makes⟩ := ih (placed.ask kept _ _) ((exhausted_told _ _ more).trans going) (source_told _ _ _)
    exact ⟨stop, later, (upcoming_of_bytes started placed waiting bytes).trans walked, makes.delivery, makes.calls, makes.ahead⟩

private theorem Ahead.pull {stops : List Stop} (ahead : Ahead options decoder stops) :
    (∃ stop later, stops = stop :: later ∧ Makes options decoder.pull stop later) ∨
    (stops = [] ∧ decoder.pull.delivery = none ∧ decoder.pull.decoder.source = decoder.source ∧
      Ahead options decoder.pull.decoder []) := by
  cases ahead with
  | going placed going present => exact .inl (makes_pulls placed going present (pulls_pull placed.coherent))
  | ended coherent waiting ended =>
    obtain ⟨started, kept, pulled⟩ := pull_of_unsupplied (.inl ended) coherent waiting
    rw [pulled]
    exact .inr ⟨rfl, rfl, rfl, .ended kept waiting ended⟩

theorem Ahead.poll {stops : List Stop} {calls : Nat} (ahead : Ahead options decoder stops)
    (called : decoder.source.map Script.calls = some calls) (times : Nat) :
    (decoder.poll times).deliveries = (List.range times).map (fun index => stops[index]?.bind Stop.delivery) ∧
    ((decoder.poll times).decoder.exhausted = true ↔ stops.length ≤ times) ∧
    (decoder.poll times).decoder.source.map Script.calls =
      some (((stops.take times).getLast?.map Stop.calls).getD calls) := by
  induction times generalizing decoder stops calls with
  | zero =>
    refine ⟨rfl, ?_, ?_⟩
    · rw [Decoder.poll, ahead.exhausted_iff, Nat.le_zero, List.length_eq_zero_iff]
    · rw [List.take_zero]
      exact called
  | succ times ih =>
    rcases ahead.pull with ⟨stop, later, rfl, makes⟩ | ⟨rfl, quiet, same, rest⟩
    · obtain ⟨deliveries, exhausted, count⟩ := ih makes.ahead makes.calls
      refine ⟨?_, ?_, ?_⟩
      · simp only [Decoder.poll, deliveries, makes.delivery, List.range_succ_eq_map, List.map_cons, List.map_map]
        rfl
      · simp only [Decoder.poll, exhausted, List.length_cons, Nat.add_le_add_iff_right]
      · simp only [Decoder.poll, count, List.take_succ_cons, List.getLast?_cons]
        cases (later.take times).getLast? with
        | none => rfl
        | some last => rfl
    · obtain ⟨deliveries, exhausted, count⟩ := ih rest ((congrArg (Option.map Script.calls) same).trans called)
      refine ⟨?_, ?_, ?_⟩
      · simp only [Decoder.poll, deliveries, quiet, List.range_succ_eq_map, List.map_cons, List.map_map]
        rfl
      · simp only [Decoder.poll, exhausted, List.length_nil, Nat.zero_le]
      · simpa only [Decoder.poll, List.take_nil] using count

/-- The results of pulls from a scripted source are those of the walk over its events, and
nothing once the walk has met the end. Each event has been asked for once when the first of
its results is returned, and none behind the end is. -/
theorem poll_script_eq_walk (options : Options) (events : List ScriptEvent) (times : Nat) :
    let polling := (withSource { events } options : Decoder Script).poll times
    let stops := walk options [] 0 events
    polling.deliveries = (List.range times).map (fun index => stops[index]?.bind Stop.delivery) ∧
    (polling.decoder.exhausted = true ↔ stops.length ≤ times) ∧
    polling.decoder.source.map Script.calls = some (((stops.take times).getLast?.map Stop.calls).getD 0) := by
  intro polling stops
  let script : Script := { events }
  have placed : Placed options [] (withSource script options) := placed_start options (some script)
  have start : Ahead options (withSource script options) stops := .going placed rfl rfl
  exact start.poll rfl times

end Decoder

end SingleWire
