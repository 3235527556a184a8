import SingleWire.Proofs.BlockReading
import Mathlib.Logic.Function.Iterate

/-! What a source has left: its answers up to the point from which on it brings neither bytes nor
failures. For a script these are the answers to its events, and so for one that is read in blocks,
where interruptions are no answers. -/

namespace SingleWire

def bytesIn (answers : List (Except Failure Pulled)) : Nat := (answers.flatMap Pulled.bytes).length

def failuresIn (answers : List (Except Failure Pulled)) : Nat := answers.countP (!·.isOk)

/-- The answers that a source has left. Behind them it brings neither bytes nor failures for ever:
it has ended, or stays pending. -/
inductive Leaves {σ : Type} (ask : σ → Except Failure Pulled × σ) : σ → List (Except Failure Pulled) → Prop where
  | nothing {source : σ} (idle : ∀ calls, Pulled.cost (ask ((Prod.snd ∘ ask)^[calls] source)).1 = 0) :
    Leaves ask source []
  | answer {source : σ} {later : List (Except Failure Pulled)} (rest : Leaves ask (ask source).2 later) :
    Leaves ask source ((ask source).1 :: later)

section Leaves
variable {σ : Type} {ask : σ → Except Failure Pulled × σ} {source next : σ} {answers later : List (Except Failure Pulled)}

private theorem leaves_nothing (idle : σ → Prop)
    (kept : ∀ source, idle source → Pulled.cost (ask source).1 = 0 ∧ idle (ask source).2) (now : idle source) :
    Leaves ask source [] := by
  refine .nothing fun calls => (kept _ ?_).1
  exact Function.Iterate.rec idle now (fun source stays => (kept source stays).2) calls

private theorem Leaves.first {answer : Except Failure Pulled} (asked : ask source = (answer, next))
    (rest : Leaves ask next later) : Leaves ask source (answer :: later) := by
  have first : Leaves ask source ((ask source).1 :: later) := .answer (by rwa [asked])
  rwa [asked] at first

private theorem Leaves.congr (same : ask source = ask next) (leaves : Leaves ask next answers) :
    Leaves ask source answers := by
  cases leaves with
  | nothing idle =>
    refine .nothing fun calls => ?_
    cases calls with
    | zero => exact (congrArg (Pulled.cost ·.1) same).trans (idle 0)
    | succ calls =>
      rw [Function.iterate_succ_apply, Function.comp, same]
      exact idle (calls + 1)
  | answer rest =>
    rw [← same] at rest ⊢
    exact .answer rest

theorem bytesIn_cons (answer : Except Failure Pulled) (later : List (Except Failure Pulled)) :
    bytesIn (answer :: later) = (Pulled.bytes answer).length + bytesIn later := by
  rw [bytesIn, List.flatMap_cons, List.length_append, bytesIn]

theorem bytesIn_append (earlier later : List (Except Failure Pulled)) :
    bytesIn (earlier ++ later) = bytesIn earlier + bytesIn later := by
  rw [bytesIn, List.flatMap_append, List.length_append, bytesIn, bytesIn]

theorem failuresIn_append (earlier later : List (Except Failure Pulled)) :
    failuresIn (earlier ++ later) = failuresIn earlier + failuresIn later := List.countP_append

theorem leaves_script (events : List ScriptEvent) (calls : Nat) :
    Leaves ByteSource.pull ({ events, calls } : Script) (events.map ScriptEvent.pulled) := by
  induction events generalizing calls with
  | nil =>
    refine leaves_nothing (fun script : Script => script.events = []) ?_ rfl
    rintro ⟨_, calls⟩ rfl
    exact ⟨rfl, rfl⟩
  | cons event later ih => exact .first rfl (ih (calls + 1))

end Leaves

namespace BlockSource
variable {ignoreEnd : Bool} {later : List ScriptEvent} {rest : List (Except Failure Pulled)}

private theorem leaves_data
    (left : ∀ calls, Leaves pull ({ reader := { events := later, calls }, ignoreEnd } : BlockSource Script) rest)
    {bytes : List UInt8} (nonempty : bytes ≠ []) (calls : Nat) :
    Leaves pull ({ reader := { events := .data bytes :: later, calls }, ignoreEnd } : BlockSource Script)
      ((pieces bytes).map (fun piece => .ok (.data piece)) ++ rest) := by
  -- Each piece leaves fewer bytes.
  induction length : bytes.length using Nat.strongRecOn generalizing bytes calls with
  | ind length ih =>
    rw [pieces_of_ne_nil nonempty, List.map_cons, List.cons_append]
    refine .first (pull_of_data nonempty) ?_
    by_cases long : 256 < bytes.length
    · have positive : bytes.drop 256 ≠ [] := mt List.drop_eq_nil_iff.mp (Nat.not_le.mpr long)
      rw [if_pos long]
      exact ih _ (by rw [List.length_drop]; omega) positive (calls + 1) rfl
    · have short : bytes.drop 256 = [] := List.drop_eq_nil_of_le (Nat.not_lt.mp long)
      rw [if_neg long, short]
      exact left (calls + 1)

theorem leaves_blocks (ignoreEnd : Bool) (events : List ScriptEvent) (calls : Nat) :
    Leaves pull ({ reader := { events, calls }, ignoreEnd } : BlockSource Script) (events.flatMap (answers ignoreEnd)) := by
  induction events generalizing calls with
  | nil =>
    refine leaves_nothing (fun source : BlockSource Script => source.reader.events = []) ?_ rfl
    rintro ⟨⟨_, calls⟩, ignoreEnd⟩ rfl
    rw [pull_of_bytes rfl]
    exact ⟨by cases ignoreEnd <;> rfl, rfl⟩
  | cons event later ih =>
    rw [List.flatMap_cons]
    rcases pull_of_event ignoreEnd event calls later with
      ⟨bytes, nonempty, rfl⟩ | ⟨-, ⟨none, again⟩ | ⟨answer, one, -, answered⟩⟩
    · rw [answers, if_neg nonempty]
      exact leaves_data ih nonempty calls
    · rw [none]
      exact .congr again (ih (calls + 1))
    · rw [one]
      exact .first answered (ih (calls + 1))

private theorem supply_answer (ignoreEnd : Bool) (event : ScriptEvent) :
    bytesIn (answers ignoreEnd event) + failuresIn (answers ignoreEnd event) = event.readSupply := by
  rcases event with bytes | _ | _ | failure
  · by_cases empty : bytes = []
    · subst empty
      cases ignoreEnd <;> rfl
    · rw [answers, if_neg empty]
      have bytesLeft : bytesIn ((pieces bytes).map fun piece => .ok (.data piece)) = bytes.length := by
        rw [bytesIn, List.flatMap_map]
        exact congrArg List.length (List.flatMap_id.trans (flatten_pieces bytes))
      have noFailure : failuresIn ((pieces bytes).map fun piece => .ok (.data piece)) = 0 := by
        rw [failuresIn, List.countP_map]
        exact List.countP_eq_zero.mpr fun _ _ => Bool.false_ne_true
      rw [bytesLeft, noFailure]
      rfl
  · rfl
  · cases ignoreEnd <;> rfl
  · rw [answers, ScriptEvent.readSupply, readCost]
    by_cases interrupted : failure.kind = .interrupted
    · rw [if_pos interrupted, if_pos (.inl interrupted)]
      rfl
    · by_cases blocked : failure.kind = .wouldBlock
      · rw [if_neg interrupted, if_pos blocked, if_pos (.inr blocked)]
        rfl
      · rw [if_neg interrupted, if_neg blocked, if_neg (not_or.mpr ⟨interrupted, blocked⟩)]
        rfl

/-- What a script leaves that is read in blocks is its bytes, and the failures that are passed on. -/
theorem supply_answers (ignoreEnd : Bool) (script : Script) :
    bytesIn (script.events.flatMap (answers ignoreEnd)) + failuresIn (script.events.flatMap (answers ignoreEnd)) =
      script.readSupply := by
  rw [Script.readSupply]
  induction script.events with
  | nil => rfl
  | cons event later ih =>
    have one := supply_answer ignoreEnd event
    rw [List.flatMap_cons, bytesIn_append, failuresIn_append, ScriptEvent.total_cons]
    omega

end BlockSource

end SingleWire
