import SingleWire.Proofs.Tiling

/-! Operations are feeds and pulls one after another. What one feed and one pull keep
therefore holds of each decoder that pulls in their course. -/

namespace SingleWire.Decoder
open Event

variable {σ : Type} [ByteSource σ] {decoder : Decoder σ}

def singlesPullers (decoder : Decoder σ) : List (Decoder σ) :=
  match _given : decoder.pull.delivery with
  | none => [decoder]
  | some _ => decoder :: decoder.pull.decoder.singlesPullers
termination_by decoder.workload
decreasing_by exact workload_pull decoder (by rw [_given]; rfl)

def takePullers (decoder : Decoder σ) : Nat → List (Decoder σ)
  | 0 => []
  | limit + 1 =>
    match decoder.pull.delivery with
    | none => [decoder]
    | some _ => decoder :: decoder.pull.decoder.takePullers limit

def operationPullers (decoder : Decoder σ) : Operation → List (Decoder σ)
  | .feed _ => []
  | .pull => [decoder]
  | .singles => decoder.singlesPullers
  | .take limit => decoder.takePullers limit

def pullers (decoder : Decoder σ) : List Operation → List (Decoder σ)
  | [] => []
  | operation :: later => decoder.operationPullers operation ++ (decoder.operate operation).pullers later

/-- Feeds and pulls, the decoders that pull, and all that can be seen. -/
inductive Course : Decoder σ → List (Decoder σ) → List Event → Decoder σ → Prop where
  | nil {decoder : Decoder σ} : Course decoder [] [] decoder
  | feed {decoder next : Decoder σ} {pullers : List (Decoder σ)} {events : List Event} (bytes : List UInt8)
      (rest : Course (decoder.feed bytes) pullers events next) : Course decoder pullers (.fed bytes :: events) next
  | pull {decoder next : Decoder σ} {pullers : List (Decoder σ)} {events : List Event}
      (rest : Course decoder.pull.decoder pullers events next) :
    Course decoder (decoder :: pullers) (decoder.pullEvents ++ events) next

theorem Course.append {middle next : Decoder σ} {first second : List (Decoder σ)} {earlier later : List Event}
    (before : Course decoder first earlier middle) (after : Course middle second later next) :
    Course decoder (first ++ second) (earlier ++ later) next := by
  induction before with
  | nil => exact after
  | feed bytes _ ih => exact .feed bytes (ih after)
  | pull _ ih =>
    rw [List.append_assoc]
    exact .pull (ih after)

theorem course_pull (decoder : Decoder σ) : Course decoder [decoder] decoder.pullEvents decoder.pull.decoder := by
  have one : Course decoder [decoder] (decoder.pullEvents ++ []) decoder.pull.decoder := .pull .nil
  rwa [List.append_nil] at one

private theorem singlesEvents_of_none (quiet : decoder.pull.delivery = none) : decoder.singlesEvents = decoder.pullEvents := by
  rw [singlesEvents]
  split
  · rfl
  next delivery given =>
    rw [quiet] at given
    cases given

private theorem singlesEvents_of_some {delivery : Except DecodeError Packet} (given : decoder.pull.delivery = some delivery) :
    decoder.singlesEvents = decoder.pullEvents ++ decoder.pull.decoder.singlesEvents := by
  rw [singlesEvents]
  split
  next quiet =>
    rw [given] at quiet
    cases quiet
  · rfl

private theorem course_singles (decoder : Decoder σ) :
    Course decoder decoder.singlesPullers decoder.singlesEvents decoder.singles.decoder := by
  fun_induction singlesPullers decoder with
  | case1 decoder quiet =>
    rw [singles_of_none quiet, singlesEvents_of_none quiet]
    exact course_pull decoder
  | case2 decoder delivery given ih =>
    rw [singles_of_some given, singlesEvents_of_some given]
    exact .pull ih

private theorem course_take (decoder : Decoder σ) (limit : Nat) :
    Course decoder (decoder.takePullers limit) (decoder.takeEvents limit) (decoder.take limit).decoder := by
  induction limit generalizing decoder with
  | zero => exact .nil
  | succ limit ih =>
    rw [takePullers, takeEvents, take]
    cases decoder.pull.delivery with
    | none => exact course_pull decoder
    | some delivery => exact .pull (ih decoder.pull.decoder)

theorem course_operate (decoder : Decoder σ) (operation : Operation) :
    Course decoder (decoder.operationPullers operation) (decoder.events operation) (decoder.operate operation) := by
  cases operation with
  | feed bytes => exact .feed bytes .nil
  | pull => exact course_pull decoder
  | singles => exact course_singles decoder
  | take limit => exact course_take decoder limit

theorem course_history (decoder : Decoder σ) (operations : List Operation) :
    Course decoder (decoder.pullers operations) (decoder.history operations) (decoder.perform operations) := by
  induction operations generalizing decoder with
  | nil => exact .nil
  | cons operation later ih => exact (course_operate decoder operation).append (ih _)

theorem Course.invariant {motive : Decoder σ → Prop} {pullers : List (Decoder σ)} {events : List Event} {next : Decoder σ}
    (fed : ∀ {decoder} bytes, motive decoder → motive (decoder.feed bytes))
    (pulled : ∀ {decoder}, motive decoder → motive decoder.pull.decoder)
    (course : Course decoder pullers events next) (now : motive decoder) :
    (∀ puller ∈ pullers, motive puller) ∧ motive next := by
  induction course with
  | nil => exact ⟨List.forall_mem_nil motive, now⟩
  | feed bytes _ ih => exact ih (fed bytes now)
  | pull _ ih =>
    obtain ⟨later, last⟩ := ih (pulled now)
    exact ⟨List.forall_mem_cons.mpr ⟨now, later⟩, last⟩

private theorem delivery_of_pullEvents {first second : Decoder σ} (seen : first.pullEvents = second.pullEvents) :
    first.pull.delivery = second.pull.delivery := by
  have returned := returned_pull first
  rw [seen, returned_pull second] at returned
  exact (List.cons.inj returned).1.symm

private theorem singles_congr {related : Decoder σ → Decoder σ → Prop} {first second : Decoder σ}
    (pulled : ∀ {first second}, related first second →
      first.pullEvents = second.pullEvents ∧ related first.pull.decoder second.pull.decoder)
    (now : related first second) :
    first.singlesEvents = second.singlesEvents ∧ related first.singles.decoder second.singles.decoder := by
  fun_induction singlesEvents first generalizing second with
  | case1 first quiet =>
    obtain ⟨seen, kept⟩ := pulled now
    have same := (delivery_of_pullEvents seen).symm.trans quiet
    rw [singles_of_none quiet, singles_of_none same, singlesEvents_of_none same]
    exact ⟨seen, kept⟩
  | case2 first delivery given ih =>
    obtain ⟨seen, kept⟩ := pulled now
    have same := (delivery_of_pullEvents seen).symm.trans given
    obtain ⟨rest, last⟩ := ih kept
    rw [singles_of_some given, singles_of_some same, singlesEvents_of_some same, seen, rest]
    exact ⟨rfl, last⟩

private theorem take_congr {related : Decoder σ → Decoder σ → Prop} {first second : Decoder σ}
    (pulled : ∀ {first second}, related first second →
      first.pullEvents = second.pullEvents ∧ related first.pull.decoder second.pull.decoder)
    (now : related first second) (limit : Nat) :
    first.takeEvents limit = second.takeEvents limit ∧ related (first.take limit).decoder (second.take limit).decoder := by
  induction limit generalizing first second with
  | zero => exact ⟨rfl, now⟩
  | succ limit ih =>
    obtain ⟨seen, kept⟩ := pulled now
    have same := delivery_of_pullEvents seen
    rw [takeEvents, take, takeEvents, take, ← same, seen]
    cases first.pull.delivery with
    | none => exact ⟨rfl, kept⟩
    | some delivery =>
      obtain ⟨rest, last⟩ := ih kept
      exact ⟨congrArg (second.pullEvents ++ ·) rest, last⟩

/-- Decoders that pull alike, and stay related, have the same history. -/
theorem history_congr {related : Decoder σ → Decoder σ → Prop} {first second : Decoder σ}
    (fed : ∀ {first second} bytes, related first second → related (first.feed bytes) (second.feed bytes))
    (pulled : ∀ {first second}, related first second →
      first.pullEvents = second.pullEvents ∧ related first.pull.decoder second.pull.decoder)
    (now : related first second) (operations : List Operation) :
    first.history operations = second.history operations ∧
    related (first.perform operations) (second.perform operations) := by
  induction operations generalizing first second with
  | nil => exact ⟨rfl, now⟩
  | cons operation later ih =>
    have one : first.events operation = second.events operation ∧ related (first.operate operation) (second.operate operation) := by
      cases operation with
      | feed bytes => exact ⟨rfl, fed bytes now⟩
      | pull => exact pulled now
      | singles => exact singles_congr pulled now
      | take limit => exact take_congr pulled now limit
    obtain ⟨seen, kept⟩ := one
    obtain ⟨rest, last⟩ := ih kept
    refine ⟨?_, last⟩
    rw [history, seen, rest, history]

theorem coherent_pull (coherent : decoder.Coherent) : decoder.pull.decoder.Coherent :=
  (steps_pull coherent).coherent coherent

private theorem Pulls.width {calls : List (Call σ)} {pull : Pull σ} (pulls : Pulls decoder calls pull) :
    pull.decoder.width = decoder.width := by
  induction pulls with
  | found found => rfl
  | unsupplied waiting kept unsupplied => rfl
  | refused waiting kept going present answered empty => exact width_told _ _ _
  | more waiting kept going present answered bytes rest ih => exact ih.trans (width_told _ _ _)

theorem width_pull (coherent : decoder.Coherent) : decoder.pull.decoder.width = decoder.width :=
  (pulls_pull coherent).width

/-- A decoder that can be reached keeps its packet in progress in line with the bytes at hand. -/
theorem coherent_pullers (options : Options) (source : Option σ) (operations : List Operation) :
    let start : Decoder σ := source.elim (new options) (withSource · options)
    (∀ puller ∈ start.pullers operations, puller.Coherent ∧ puller.width = options.timestampWidth) ∧
    (start.perform operations).Coherent ∧ (start.perform operations).width = options.timestampWidth := by
  intro start
  have placed := placed_start options source
  refine (course_history start operations).invariant ?_ ?_ ⟨placed.coherent, placed.width⟩
  · intro decoder bytes known
    exact ⟨Framer.Coherent.feed known.1 bytes, known.2⟩
  · intro decoder known
    exact ⟨coherent_pull known.1, (width_pull known.1).trans known.2⟩

end SingleWire.Decoder
