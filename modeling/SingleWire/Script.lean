import SingleWire.Reader

/-! A source of bytes that follows a script: a list of what it does when it is called.
Any finite behaviour of a source or of a stream can be written as one. -/

namespace SingleWire

inductive ScriptEvent where
  | data (bytes : List UInt8)
  | pending
  | finish
  | fail (failure : Failure)
deriving DecidableEq

/-- The events still to come and the number of calls so far. Once the events are used
up the stream has ended. -/
structure Script where
  events : List ScriptEvent
  calls : Nat := 0
deriving DecidableEq

namespace ScriptEvent

def pulled : ScriptEvent → Except Failure Pulled
  | data bytes => .ok (.data bytes)
  | pending => .ok .pending
  | finish => .ok .exhausted
  | fail failure => .error failure

/-- How a read fails that has to wait. -/
def blocked : Failure := { kind := .wouldBlock, message := "operation would block" }

/-- What a read of at most `limit` bytes gives that meets the event, and what is left
of the event. -/
def read (limit : Nat) : ScriptEvent → Except Failure (List UInt8) × List ScriptEvent
  | data bytes => (.ok (bytes.take limit), if limit < bytes.length then [data (bytes.drop limit)] else [])
  | pending => (.error blocked, [])
  | finish => (.ok [], [])
  | fail failure => (.error failure, [])

def isInterruption : ScriptEvent → Bool
  | fail failure => failure.kind = .interrupted
  | _ => false

/-- The bytes of an event, or one for a failure that a reader passes on. -/
def readSupply : ScriptEvent → Nat
  | data bytes => bytes.length
  | fail failure => readCost (.error failure)
  | _ => 0

def total (measure : ScriptEvent → Nat) (events : List ScriptEvent) : Nat :=
  events.foldr (fun event rest => measure event + rest) 0

@[simp] theorem total_cons (measure : ScriptEvent → Nat) (event : ScriptEvent) (rest : List ScriptEvent) :
    total measure (event :: rest) = measure event + total measure rest := rfl

theorem total_append (measure : ScriptEvent → Nat) (first rest : List ScriptEvent) :
    total measure (first ++ rest) = total measure first + total measure rest := by
  induction first with
  | nil => exact (Nat.zero_add _).symm
  | cons event first ih => rw [List.cons_append, total_cons, total_cons, ih, Nat.add_assoc]

theorem length_read {limit : Nat} {event : ScriptEvent} {bytes : List UInt8}
    (found : (event.read limit).1 = .ok bytes) : bytes.length ≤ limit := by
  cases event with
  | data bytes => cases found; exact List.length_take_le limit bytes
  | finish => cases found; exact Nat.zero_le limit
  | pending | fail => cases found

/-- A read and what it leaves of an event share the bytes of the event. -/
theorem supply_read (limit : Nat) (event : ScriptEvent) :
    total readSupply (event.read limit).2 + readCost (event.read limit).1 ≤ event.readSupply := by
  cases event with
  | data bytes =>
    simp only [read, readCost, List.length_take]
    split
    · simp only [total, List.foldr_cons, List.foldr_nil, readSupply, List.length_drop]
      omega
    · simp only [total, List.foldr_nil, readSupply]
      omega
  | pending | finish => exact Nat.le_refl 0
  | fail failure => exact Nat.le_of_eq (Nat.zero_add _)

theorem interruption_of_read {limit : Nat} {event : ScriptEvent} {failure : Failure}
    (found : (event.read limit).1 = .error failure) (interrupted : failure.kind = .interrupted) :
    event.isInterruption = true ∧ (event.read limit).2 = [] := by
  cases event with
  | data | finish => cases found
  | pending => cases found; cases interrupted
  | fail => cases found; exact ⟨decide_eq_true interrupted, rfl⟩

end ScriptEvent

namespace Script

open ScriptEvent (pulled)

def pull (script : Script) : Except Failure Pulled × Script :=
  match script.events with
  | [] => (.ok .exhausted, { script with calls := script.calls + 1 })
  | event :: events => (event.pulled, { events, calls := script.calls + 1 })

def read (script : Script) (limit : Nat) : Except Failure (List UInt8) × Script :=
  match script.events with
  | [] => (.ok [], { script with calls := script.calls + 1 })
  | event :: events =>
    let (answer, left) := event.read limit
    (answer, { events := left ++ events, calls := script.calls + 1 })

def supply (script : Script) : Nat := ScriptEvent.total (fun event => Pulled.cost event.pulled) script.events

def readSupply (script : Script) : Nat := ScriptEvent.total ScriptEvent.readSupply script.events

instance : ByteSource Script where
  pull := pull
  supply := supply
  supply_pull script := by
    unfold pull
    split
    next empty => simp [supply, empty, Pulled.cost]
    next event events shape => simp [supply, shape, Nat.add_comm]

instance : Reader Script where
  read := read
  supply := readSupply
  interruptions script := script.events.countP ScriptEvent.isInterruption
  length_read script limit bytes found := by
    unfold read at found
    split at found
    · cases found; exact Nat.zero_le limit
    · exact ScriptEvent.length_read found
  supply_read script limit := by
    unfold read
    split
    next empty => simp [readSupply, empty, readCost]
    next event events shape =>
      have bound := event.supply_read limit
      simp only [readSupply, shape, ScriptEvent.total_append, ScriptEvent.total_cons]
      omega
  interruptions_read script limit failure found interrupted := by
    unfold read at found ⊢
    split at found
    · cases found
    next event events shape =>
      have ⟨counted, spent⟩ := ScriptEvent.interruption_of_read found interrupted
      simp [shape, counted, spent]

end Script

end SingleWire
