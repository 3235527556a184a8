import SingleWire.Proofs.PullLoop

/-! Every source is a script as far as it is asked. A pull that returns does the same with the
script of the answers that it has got, and so does an iteration, whatever the source may still
answer later. -/

namespace SingleWire

/-- The event that has a script give an answer. -/
def ScriptEvent.giving : Except Failure Pulled → ScriptEvent
  | .ok (.data bytes) => .data bytes
  | .ok .pending => .pending
  | .ok .exhausted => .finish
  | .error failure => .fail failure

variable {σ : Type}

/-- The decoder with a script in the place of its source. -/
def Decoder.scripted (script : Script) (decoder : Decoder σ) : Decoder Script :=
  { framer := decoder.framer, source := decoder.source.map fun _ => script, exhausted := decoder.exhausted }

def Pull.scripted (script : Script) (pull : Pull σ) : Pull Script :=
  { delivery := pull.delivery, log := pull.log, decoder := pull.decoder.scripted script }

def Run.scripted (script : Script) (run : Run σ) : Run Script :=
  { deliveries := run.deliveries, log := run.log, decoder := run.decoder.scripted script }

theorem Script.pull_giving (answer : Except Failure Pulled) (later : List ScriptEvent) (calls : Nat) :
    ByteSource.pull ({ events := .giving answer :: later, calls } : Script) =
      (answer, { events := later, calls := calls + 1 }) := by
  rcases answer with failure | (bytes | _ | _) <;> rfl

namespace Decoder

variable {ask : σ → Except Failure Pulled × σ} {decoder : Decoder σ}

private theorem scripted_told (decoder : Decoder σ) (source : σ) (script next : Script) (answer : Except Failure Pulled) :
    ((decoder.scripted script).told next answer) = (decoder.told source answer).scripted next := by
  rcases answer with failure | (bytes | _ | _) <;> rfl

private theorem scripted_note (decoder : Decoder σ) (script : Script) (answer : Except Failure Pulled) :
    (decoder.scripted script).note answer = decoder.note answer := by
  rcases answer with failure | (bytes | _ | _) <;> rfl

private theorem supplied_scripted {source : σ} (present : decoder.source = some source) (script : Script) :
    (decoder.scripted script).source = some script := by
  rw [scripted, present]
  rfl

private theorem unsupplied_scripted (unsupplied : decoder.Unsupplied) (script : Script) :
    (decoder.scripted script).Unsupplied := by
  refine unsupplied.imp id fun absent => ?_
  rw [scripted, absent]
  rfl

private theorem round_of_waiting_scripted {framer : Framer} {source : σ} (waiting : decoder.framer.next = (none, framer))
    (going : decoder.exhausted = false) (present : decoder.source = some source) (next : σ) (answer : Except Failure Pulled)
    (later : List ScriptEvent) (calls : Nat) :
    let current : Decoder σ := { decoder with framer }
    let left : Script := { events := later, calls := calls + 1 }
    (decoder.scripted { events := .giving answer :: later, calls }).round ByteSource.pull =
      if Pulled.bytes answer = [] then
        .inl { delivery := refusal answer, log := current.note answer, decoder := (current.told next answer).scripted left }
      else .inr (current.note answer, (current.told next answer).scripted left) := by
  intro current left
  let script : Script := { events := .giving answer :: later, calls }
  have round := @round_of_waiting _ ByteSource.pull (decoder.scripted script) script framer waiting going
    (supplied_scripted present script)
  rw [Script.pull_giving] at round
  rw [round, ← scripted_note current script, ← scripted_told current next script left]
  rfl

private theorem round_scripted (ask : σ → Except Failure Pulled × σ) (decoder : Decoder σ) :
    ∃ events, ∀ later calls,
      let left : Script := { events := later, calls := calls + events.length }
      (decoder.scripted { events := events ++ later, calls }).round ByteSource.pull =
        (decoder.round ask).map (Pull.scripted left) (Prod.map id (scripted left)) := by
  rcases cut : decoder.framer.next with ⟨_ | item, framer⟩
  · by_cases unsupplied : decoder.Unsupplied
    · refine ⟨[], fun later calls => ?_⟩
      rw [round_of_unsupplied cut unsupplied]
      exact round_of_unsupplied cut (unsupplied_scripted unsupplied _)
    · obtain ⟨going, source, present⟩ := present_of_supplied unsupplied
      refine ⟨[.giving (ask source).1], fun later calls => ?_⟩
      rw [round_of_waiting cut going present]
      refine (round_of_waiting_scripted cut going present (ask source).2 _ later calls).trans ?_
      split
      · rfl
      · rfl
  · refine ⟨[], fun later calls => ?_⟩
    rw [round_of_found cut]
    exact @round_of_found _ _ (decoder.scripted _) _ _ cut

/-- A pull that returns is the pull of a script, and has used up the events that it has met. -/
theorem Returns.exists_script {pull : Pull σ} (returns : Returns ask decoder pull) :
    ∃ events, ∀ later calls, (decoder.scripted { events := events ++ later, calls }).pull =
      pull.scripted { events := later, calls := calls + events.length } := by
  induction returns with
  | @now decoder pull done =>
    obtain ⟨events, same⟩ := round_scripted ask decoder
    refine ⟨events, fun later calls => (returns_pull _).unique (.now ?_)⟩
    rw [same, done]
    rfl
  | @again decoder supplied log pull going rest ih =>
    obtain ⟨first, same⟩ := round_scripted ask decoder
    obtain ⟨others, continued⟩ := ih
    refine ⟨first ++ others, fun later calls => (returns_pull _).unique ?_⟩
    have round := same (others ++ later) calls
    have after := continued later (calls + first.length)
    have further := returns_pull (supplied.scripted { events := others ++ later, calls := calls + first.length })
    rw [← List.append_assoc, going] at round
    rw [after, Nat.add_assoc, ← List.length_append] at further
    exact .again round further

theorem Iterates.exists_script {run : Run σ} (iterates : Iterates ask decoder run) :
    ∃ events, ∀ later calls, (decoder.scripted { events := events ++ later, calls }).singles =
      run.scripted { events := later, calls := calls + events.length } := by
  induction iterates with
  | @finish decoder pull returns nothing =>
    obtain ⟨events, same⟩ := returns.exists_script
    refine ⟨events, fun later calls => ?_⟩
    have pulled := same later calls
    rw [singles_of_none ((congrArg Pull.delivery pulled).trans nothing), pulled]
    rfl
  | @item decoder pull delivery run returns given rest ih =>
    obtain ⟨first, same⟩ := returns.exists_script
    obtain ⟨others, continued⟩ := ih
    refine ⟨first ++ others, fun later calls => ?_⟩
    have pulled := same (others ++ later) calls
    have run := continued later (calls + first.length)
    rw [← List.append_assoc] at pulled
    rw [singles_of_some ((congrArg Pull.delivery pulled).trans given), pulled, List.length_append, ← Nat.add_assoc]
    show Run.mk (delivery :: (scripted _ _).singles.deliveries) (_ ++ (scripted _ _).singles.log) (scripted _ _).singles.decoder = _
    rw [run]
    rfl

end Decoder

end SingleWire
