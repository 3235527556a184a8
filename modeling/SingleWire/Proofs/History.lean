import SingleWire.Proofs.Calls

/-! A decoder among its caller and its source. However bytes arrive, by either way and in
pieces of any size, the packets and faults are those of all bytes fed at once, and a pull
gives up only when all that are complete have been returned. -/

namespace SingleWire

inductive Operation where
  | feed (bytes : List UInt8)
  | pull
  /-- Pulls until nothing comes. -/
  | singles
  /-- Pulls that are abandoned after so many deliveries. -/
  | take (limit : Nat)

/-- What can be seen of a decoder from outside. -/
inductive Event where
  | fed (bytes : List UInt8)
  | answered (answer : Except Failure Pulled)
  | returned (delivery : Option (Except DecodeError Packet))

namespace Event

def bytes : Event → List UInt8
  | fed bytes => bytes
  | answered answer => Pulled.bytes answer
  | returned _ => []

def returned? : Event → Option (Option (Except DecodeError Packet))
  | returned delivery => some delivery
  | _ => none

/-- The packet or fault that a pull returns. -/
def item? : Event → Option (Except DecodeError Packet)
  | returned (some (.ok packet)) => some (.ok packet)
  | returned (some (.error (.malformed fault))) => some (.error (.malformed fault))
  | _ => none

/-- A pull returns nothing, or a failure of the source. -/
def GivesUp : Event → Prop
  | returned none => True
  | returned (some (.error (.source _))) => True
  | _ => False

/-- All bytes received, fed or pulled, in the order of their arrival. -/
def received (events : List Event) : List UInt8 := events.flatMap bytes

def yielded (events : List Event) : List (Except DecodeError Packet) := events.filterMap item?

@[simp] theorem received_snoc (events : List Event) (event : Event) : received (events ++ [event]) = received events ++ event.bytes := by
  simp [received]

@[simp] theorem yielded_snoc (events : List Event) (event : Event) : yielded (events ++ [event]) = yielded events ++ event.item?.toList := by
  simp only [yielded, List.filterMap_append]
  cases found : event.item? with
  | none => rw [List.filterMap_cons_none found]; rfl
  | some item => rw [List.filterMap_cons_some found]; rfl

theorem item?_of_givesUp {event : Event} (gaveUp : event.GivesUp) : event.item? = none := by
  rcases event with bytes | answer | (_ | (fault | failure) | packet)
  · rfl
  · rfl
  · rfl
  · exact gaveUp.elim
  · rfl
  · exact gaveUp.elim

theorem item?_delivered (item : Except Fault Packet) :
    (returned (some (Decoder.delivered item))).item? = some (Decoder.delivered item) := by
  cases item with
  | ok packet => rfl
  | error fault => rfl

theorem givesUp_refusal (answer : Except Failure Pulled) : (returned (Decoder.refusal answer)).GivesUp := by
  cases answer with
  | ok pulled => trivial
  | error failure => trivial

end Event

namespace Decoder
open Grammar Event

variable {σ : Type} [ByteSource σ] {decoder : Decoder σ} {options : Options} {past : List Event}

def pullEvents (decoder : Decoder σ) : List Event :=
  decoder.calls.map (fun call => .answered call.answer) ++ [.returned decoder.pull.delivery]

def singlesEvents (decoder : Decoder σ) : List Event :=
  match _given : decoder.pull.delivery with
  | none => decoder.pullEvents
  | some _ => decoder.pullEvents ++ decoder.pull.decoder.singlesEvents
termination_by decoder.workload
decreasing_by exact workload_pull decoder (by rw [_given]; rfl)

def takeEvents (decoder : Decoder σ) : Nat → List Event
  | 0 => []
  | limit + 1 =>
    match decoder.pull.delivery with
    | none => decoder.pullEvents
    | some _ => decoder.pullEvents ++ decoder.pull.decoder.takeEvents limit

def events (decoder : Decoder σ) : Operation → List Event
  | .feed bytes => [.fed bytes]
  | .pull => decoder.pullEvents
  | .singles => decoder.singlesEvents
  | .take limit => decoder.takeEvents limit

def operate (decoder : Decoder σ) : Operation → Decoder σ
  | .feed bytes => decoder.feed bytes
  | .pull => decoder.pull.decoder
  | .singles => decoder.singles.decoder
  | .take limit => (decoder.take limit).decoder

def history (decoder : Decoder σ) : List Operation → List Event
  | [] => []
  | operation :: later => decoder.events operation ++ (decoder.operate operation).history later

def perform (decoder : Decoder σ) : List Operation → Decoder σ
  | [] => decoder
  | operation :: later => (decoder.operate operation).perform later

/-- What a decoder becomes with one event: it is fed, asks its source, returns a frame at
hand, or gives up. -/
inductive Step : Decoder σ → Event → Decoder σ → Prop where
  | feed {decoder : Decoder σ} (bytes : List UInt8) : Step decoder (.fed bytes) (decoder.feed bytes)
  | ask {decoder : Decoder σ} {started : Option Started} (kept : (decoder.remember started).Coherent) (source : σ)
      (answer : Except Failure Pulled) : Step decoder (.answered answer) ((decoder.remember started).told source answer)
  | deliver {decoder : Decoder σ} {frame : Frame} (found : frame? decoder.width decoder.pending = some frame) :
    Step decoder (.returned (some (delivered (frame.item decoder.offset decoder.pending)))) (decoder.after frame)
  | giveUp {decoder : Decoder σ} {started : Option Started} {delivery : Option (Except DecodeError Packet)}
      (waiting : frame? decoder.width decoder.pending = none) (kept : (decoder.remember started).Coherent)
      (gaveUp : (Event.returned delivery).GivesUp) : Step decoder (.returned delivery) (decoder.remember started)

inductive Steps : Decoder σ → List Event → Decoder σ → Prop where
  | nil {decoder : Decoder σ} : Steps decoder [] decoder
  | cons {decoder middle next : Decoder σ} {event : Event} {later : List Event} (first : Step decoder event middle)
      (rest : Steps middle later next) : Steps decoder (event :: later) next

omit [ByteSource σ] in
theorem Steps.append {middle next : Decoder σ} {earlier later : List Event} (first : Steps decoder earlier middle)
    (rest : Steps middle later next) : Steps decoder (earlier ++ later) next := by
  induction first with
  | nil => exact rest
  | cons step _ ih => exact .cons step (ih rest)

omit [ByteSource σ] in
theorem Steps.invariant {motive : List Event → Decoder σ → Prop} {events : List Event} {next : Decoder σ}
    (kept : ∀ {past decoder event next}, motive past decoder → Step decoder event next → motive (past ++ [event]) next)
    (steps : Steps decoder events next) (now : motive past decoder) : motive (past ++ events) next := by
  induction steps generalizing past with
  | nil =>
    rw [List.append_nil]
    exact now
  | cons first _ ih =>
    have later := ih (kept now first)
    rwa [List.append_assoc] at later

omit [ByteSource σ] in
theorem Step.coherent {event : Event} {next : Decoder σ} (step : Step decoder event next) (coherent : decoder.Coherent) :
    next.Coherent := by
  cases step with
  | feed bytes => exact Framer.Coherent.feed coherent bytes
  | ask kept source answer => exact coherent_told kept source answer
  | deliver found => exact Framer.coherent_after _ _
  | giveUp waiting kept gaveUp => exact kept

omit [ByteSource σ] in
theorem Steps.coherent {events : List Event} {next : Decoder σ} (steps : Steps decoder events next)
    (coherent : decoder.Coherent) : next.Coherent := by
  induction steps with
  | nil => exact coherent
  | cons first _ ih => exact ih (first.coherent coherent)

private theorem Pulls.steps {calls : List (Call σ)} {pull : Pull σ} (pulls : Pulls decoder calls pull) :
    Steps decoder (calls.map (fun call => .answered call.answer) ++ [.returned pull.delivery]) pull.decoder := by
  induction pulls with
  | found found => exact .cons (.deliver found) .nil
  | unsupplied waiting kept unsupplied => exact .cons (.giveUp waiting kept trivial) .nil
  | @refused decoder started source answer waiting kept going present answered empty =>
    -- An answer without bytes is one event, and that the pull gives up is the next.
    have remembered : frame? (decoder.remember started).width (decoder.remember started).pending = none := waiting
    have spent := waiting_told remembered (ByteSource.pull source).2 empty
    exact .cons (.ask kept _ answer) (.cons (.giveUp spent (coherent_told kept _ answer) (givesUp_refusal answer)) .nil)
  | more waiting kept going present answered bytes rest ih => exact .cons (.ask kept _ _) ih

theorem steps_pull (coherent : decoder.Coherent) : Steps decoder decoder.pullEvents decoder.pull.decoder :=
  (pulls_pull coherent).steps

theorem steps_singles (coherent : decoder.Coherent) : Steps decoder decoder.singlesEvents decoder.singles.decoder := by
  fun_induction singlesEvents decoder with
  | case1 decoder quiet =>
    rw [singles_of_none quiet]
    exact steps_pull coherent
  | case2 decoder delivery given ih =>
    have first := steps_pull coherent
    rw [singles_of_some given]
    exact first.append (ih (first.coherent coherent))

theorem steps_take (coherent : decoder.Coherent) (limit : Nat) :
    Steps decoder (decoder.takeEvents limit) (decoder.take limit).decoder := by
  induction limit generalizing decoder with
  | zero => exact .nil
  | succ limit ih =>
    have first := steps_pull coherent
    rw [takeEvents, take]
    cases decoder.pull.delivery with
    | none => exact first
    | some delivery => exact first.append (ih (first.coherent coherent))

theorem steps_operate (coherent : decoder.Coherent) (operation : Operation) :
    Steps decoder (decoder.events operation) (decoder.operate operation) := by
  cases operation with
  | feed bytes => exact .cons (.feed bytes) .nil
  | pull => exact steps_pull coherent
  | singles => exact steps_singles coherent
  | take limit => exact steps_take coherent limit

theorem steps_history (coherent : decoder.Coherent) (operations : List Operation) :
    Steps decoder (decoder.history operations) (decoder.perform operations) := by
  induction operations generalizing decoder with
  | nil => exact .nil
  | cons operation later ih =>
    have first := steps_operate coherent operation
    exact first.append (ih (first.coherent coherent))

theorem returned_pull (decoder : Decoder σ) : decoder.pullEvents.filterMap returned? = [decoder.pull.delivery] := by
  have silent : (decoder.calls.map fun call => Event.answered call.answer).filterMap returned? = [] := by
    apply List.filterMap_eq_nil_iff.mpr
    intro event member
    obtain ⟨call, _, rfl⟩ := List.mem_map.mp member
    rfl
  rw [pullEvents, List.filterMap_append, silent]
  rfl

theorem received_pullEvents (decoder : Decoder σ) :
    received decoder.pullEvents = decoder.calls.flatMap fun call => Pulled.bytes call.answer := by
  simp [received, pullEvents, List.flatMap_map, Event.bytes]

theorem yielded_pullEvents (decoder : Decoder σ) :
    yielded decoder.pullEvents = (returned decoder.pull.delivery).item?.toList := by
  have silent : yielded (decoder.calls.map fun call => .answered call.answer) = [] := by
    apply List.filterMap_eq_nil_iff.mpr
    intro event member
    obtain ⟨call, -, rfl⟩ := List.mem_map.mp member
    rfl
  rw [pullEvents, yielded_snoc, silent, List.nil_append]

theorem returned_singles (decoder : Decoder σ) :
    decoder.singlesEvents.filterMap returned? = decoder.singles.deliveries.map some ++ [none] := by
  fun_induction singlesEvents decoder with
  | case1 decoder quiet =>
    rw [returned_pull, singles_of_none quiet, quiet]
    rfl
  | case2 decoder delivery given ih =>
    rw [List.filterMap_append, returned_pull, ih, singles_of_some given, given]
    rfl

theorem returned_take (decoder : Decoder σ) (limit : Nat) :
    (decoder.takeEvents limit).filterMap returned? = (decoder.take limit).deliveries.map some ++
      if (decoder.take limit).deliveries.length < limit then [none] else [] := by
  induction limit generalizing decoder with
  | zero => rfl
  | succ limit ih =>
    cases given : decoder.pull.delivery with
    | none =>
      simp only [takeEvents, take, given]
      rw [returned_pull, given]
      rfl
    | some delivery =>
      simp only [takeEvents, take, given]
      rw [List.filterMap_append, returned_pull, ih, given]
      simp only [List.length_cons, Nat.add_lt_add_iff_right]
      rfl

def whole (options : Options) (bytes : List UInt8) : List (Except DecodeError Packet) :=
  (parse options.timestampWidth 0 bytes).map delivered

/-- Nothing has been returned too early, out of order or twice, and nothing too late. -/
structure Timely (options : Options) (past : List Event) : Prop where
  ordered : yielded past <+: whole options (received past)
  complete : ∀ event, past.getLast? = some event → event.GivesUp → yielded past = whole options (received past)

/-- Past items and the bytes at hand make up all bytes received, whatever comes later. -/
structure Faithful (options : Options) (past : List Event) (decoder : Decoder σ) : Prop where
  coherent : decoder.Coherent
  width : decoder.width = options.timestampWidth
  split : ∀ later, whole options (received past ++ later) =
    yielded past ++ (parse decoder.width decoder.offset (decoder.pending ++ later)).map delivered
  timely : ∀ count, Timely options (past.take count)

omit [ByteSource σ] in
private theorem Faithful.snoc {event : Event} {next : Decoder σ} (faithful : Faithful options past decoder)
    (coherent : next.Coherent) (width : next.width = options.timestampWidth)
    (split : ∀ later, whole options (received (past ++ [event]) ++ later) =
      yielded (past ++ [event]) ++ (parse next.width next.offset (next.pending ++ later)).map delivered)
    (spent : event.GivesUp → frame? next.width next.pending = none) : Faithful options (past ++ [event]) next := by
  -- Without later bytes the split says what has been returned so far.
  have now := split []
  rw [List.append_nil, List.append_nil] at now
  have timely : Timely options (past ++ [event]) := by
    refine ⟨⟨_, now.symm⟩, ?_⟩
    intro last found gaveUp
    rw [List.getLast?_concat] at found
    cases found
    rw [now, parse_of_none (spent gaveUp)]
    exact (List.append_nil _).symm
  refine ⟨coherent, width, split, ?_⟩
  intro count
  by_cases inside : count ≤ past.length
  · rw [List.take_append_of_le_length inside]
    exact faithful.timely count
  · rw [List.take_of_length_le (by rw [List.length_append, List.length_singleton]; omega)]
    exact timely

omit [ByteSource σ] in
private theorem Faithful.arrive {event : Event} {next : Decoder σ} (faithful : Faithful options past decoder)
    (coherent : next.Coherent) (width : next.width = decoder.width) (offset : next.offset = decoder.offset)
    (pending : next.pending = decoder.pending ++ event.bytes) (silent : event.item? = none)
    (spent : event.GivesUp → frame? next.width next.pending = none) : Faithful options (past ++ [event]) next := by
  apply faithful.snoc coherent (width.trans faithful.width) _ spent
  intro later
  rw [received_snoc, yielded_snoc, silent, width, offset, pending, Option.toList_none, List.append_nil, List.append_assoc,
    List.append_assoc, faithful.split]

omit [ByteSource σ] in
private theorem Faithful.deliver {frame : Frame} (faithful : Faithful options past decoder)
    (found : frame? decoder.width decoder.pending = some frame) :
    Faithful options (past ++ [.returned (some (delivered (frame.item decoder.offset decoder.pending)))]) (decoder.after frame) := by
  have item := item?_delivered (frame.item decoder.offset decoder.pending)
  have busy : ¬ (Event.returned (some (delivered (frame.item decoder.offset decoder.pending)))).GivesUp := by
    cases frame.item decoder.offset decoder.pending with
    | ok packet => exact id
    | error fault => exact id
  have coherent : (decoder.after frame).Coherent := Framer.coherent_after _ _
  apply faithful.snoc coherent faithful.width _ (fun gaveUp => absurd gaveUp busy)
  intro later
  rw [received_snoc, yielded_snoc, item, offset_after found, pending_after, Event.bytes, List.append_nil, faithful.split,
    parse_append_of_some found, List.map_cons, Option.toList_some, List.append_assoc]
  rfl

omit [ByteSource σ] in
private theorem Faithful.ask {started : Option Started} (faithful : Faithful options past decoder)
    (kept : (decoder.remember started).Coherent) (source : σ) (answer : Except Failure Pulled) :
    Faithful options (past ++ [.answered answer]) ((decoder.remember started).told source answer) :=
  faithful.arrive (coherent_told kept source answer) (width_told _ source answer) (offset_told _ source answer)
    (pending_told _ source answer) rfl (fun gaveUp => gaveUp.elim)

omit [ByteSource σ] in
private theorem Faithful.step {event : Event} {next : Decoder σ} (faithful : Faithful options past decoder)
    (step : Step decoder event next) : Faithful options (past ++ [event]) next := by
  cases step with
  | feed bytes =>
    have coherent : (decoder.feed bytes).Coherent := Framer.Coherent.feed faithful.coherent bytes
    exact faithful.arrive coherent rfl rfl (pending_feed decoder bytes) rfl (fun gaveUp => gaveUp.elim)
  | ask kept source answer => exact faithful.ask kept source answer
  | deliver found => exact faithful.deliver found
  | giveUp waiting kept gaveUp =>
    exact faithful.arrive kept rfl rfl (List.append_nil _).symm (item?_of_givesUp gaveUp) (fun _ => waiting)

private theorem Faithful.history (faithful : Faithful options past decoder) (operations : List Operation) (count : Nat) :
    Timely options ((past ++ decoder.history operations).take count) :=
  ((steps_history faithful.coherent operations).invariant Faithful.step faithful).timely count

omit [ByteSource σ] in
private theorem faithful_start (options : Options) (source : Option σ) :
    Faithful options [] (source.elim (new options) (withSource · options)) := by
  have timely : Timely options [] := by
    refine ⟨List.nil_prefix, ?_⟩
    intro event impossible
    cases impossible
  have moments (count : Nat) : Timely options (([] : List Event).take count) := by
    rw [List.take_nil]
    exact timely
  have coherent : (new options : Decoder σ).Coherent := coherent_new options
  cases source with
  | none => exact ⟨coherent, rfl, fun _ => rfl, moments⟩
  | some source => exact ⟨coherent, rfl, fun _ => rfl, moments⟩

/-- At every moment the packets and faults returned so far are the first of those of the
bytes received so far, and all of them when a pull has just given up. -/
theorem yielded_history_prefix (options : Options) (source : Option σ) (operations : List Operation) (count : Nat) :
    let start : Decoder σ := source.elim (new options) (withSource · options)
    let past := (start.history operations).take count
    let atOnce := ((new options : Decoder σ).feed (received past)).singles.deliveries
    yielded past <+: atOnce ∧ (∀ event, past.getLast? = some event → event.GivesUp → yielded past = atOnce) := by
  have timely := (faithful_start options source).history operations count
  refine ⟨?_, ?_⟩
  · rw [(decoded_feed options _).deliveries]
    exact timely.ordered
  · rw [(decoded_feed options _).deliveries]
    exact timely.complete

end Decoder

end SingleWire
