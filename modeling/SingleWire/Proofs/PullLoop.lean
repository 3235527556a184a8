import SingleWire.Proofs.RemainingAnswers

/-! Pulls come to an end when the source does. Of the source nothing is used here but its answers:
a round of the loop in a pull returns or takes bytes from them, and whatever is returned takes a
byte at hand or a failure. -/

namespace SingleWire

def failed : Except DecodeError Packet → Bool
  | .error (.source _) => true
  | _ => false

namespace Decoder

section Loop
variable {σ : Type}

/-- Fills the queue from a source that is given by its answers. -/
def fillFrom (ask : σ → Except Failure Pulled × σ) (decoder : Decoder σ) : Except Failure Bool × List LogEntry × Decoder σ :=
  if decoder.exhausted then (.ok false, [], decoder)
  else match decoder.source with
    | none => (.ok false, [], decoder)
    | some source => (outcome (ask source).1, decoder.note (ask source).1, decoder.told (ask source).2 (ask source).1)

/-- One round of the loop in a pull: what the pull returns, or what has been noted down and the
decoder that the loop goes on with. -/
def round (ask : σ → Except Failure Pulled × σ) (decoder : Decoder σ) : Pull σ ⊕ (List LogEntry × Decoder σ) :=
  let (item, framer) := decoder.framer.next
  let current := { decoder with framer }
  match item with
  | some item => .inl { delivery := some (delivered item), log := [.ofItem item], decoder := current }
  | none => match current.fillFrom ask with
    | (.ok true, log, supplied) => .inr (log, supplied)
    | (.ok false, log, supplied) => .inl { delivery := none, log, decoder := supplied }
    | (.error failure, log, supplied) => .inl { delivery := some (.error (.source failure)), log, decoder := supplied }

/-- The rounds of a pull that ends. -/
inductive Returns (ask : σ → Except Failure Pulled × σ) : Decoder σ → Pull σ → Prop where
  | now {decoder : Decoder σ} {pull : Pull σ} (done : decoder.round ask = .inl pull) : Returns ask decoder pull
  | again {decoder supplied : Decoder σ} {log : List LogEntry} {pull : Pull σ}
      (going : decoder.round ask = .inr (log, supplied)) (rest : Returns ask supplied pull) :
    Returns ask decoder { pull with log := log ++ pull.log }

inductive Iterates (ask : σ → Except Failure Pulled × σ) : Decoder σ → Run σ → Prop where
  | finish {decoder : Decoder σ} {pull : Pull σ} (returns : Returns ask decoder pull) (nothing : pull.delivery = none) :
    Iterates ask decoder { deliveries := [], log := pull.log, decoder := pull.decoder }
  | item {decoder : Decoder σ} {pull : Pull σ} {delivery : Except DecodeError Packet} {run : Run σ}
      (returns : Returns ask decoder pull) (given : pull.delivery = some delivery) (rest : Iterates ask pull.decoder run) :
    Iterates ask decoder
      { deliveries := delivery :: run.deliveries, log := pull.log ++ run.log, decoder := run.decoder }

/-- The answers that a decoder may still get. -/
inductive Remaining (ask : σ → Except Failure Pulled × σ) : Decoder σ → List (Except Failure Pulled) → Prop where
  | unsupplied {decoder : Decoder σ} (unsupplied : decoder.Unsupplied) : Remaining ask decoder []
  | supplied {decoder : Decoder σ} {source : σ} {answers : List (Except Failure Pulled)} (going : decoder.exhausted = false)
      (present : decoder.source = some source) (leaves : Leaves ask source answers) : Remaining ask decoder answers

/-- What a pull takes of the bytes at hand and of the answers to come: a byte for a packet or a
fault, and a failure for a failure. -/
structure Uses (ask : σ → Except Failure Pulled × σ) (decoder : Decoder σ) (answers : List (Except Failure Pulled))
    (pull : Pull σ) (rest : List (Except Failure Pulled)) : Prop where
  remaining : Remaining ask pull.decoder rest
  bytes : pull.decoder.buffered + bytesIn rest + pull.delivery.toList.countP (!failed ·) ≤ decoder.buffered + bytesIn answers
  failures : failuresIn rest + pull.delivery.toList.countP failed ≤ failuresIn answers

variable {ask : σ → Except Failure Pulled × σ} {decoder supplied : Decoder σ} {source : σ} {framer : Framer}
  {answers later : List (Except Failure Pulled)}

theorem round_of_found {item : Except Fault Packet} (found : decoder.framer.next = (some item, framer)) :
    decoder.round ask =
      .inl { delivery := some (delivered item), log := [.ofItem item], decoder := { decoder with framer } } := by
  rw [round, found]

theorem round_of_unsupplied (waiting : decoder.framer.next = (none, framer)) (unsupplied : decoder.Unsupplied) :
    decoder.round ask = .inl { delivery := none, log := [], decoder := { decoder with framer } } := by
  obtain ⟨_, supplier, exhausted⟩ := decoder
  rw [round, waiting]
  rcases unsupplied with ended | absent
  · cases ended
    rfl
  · cases absent
    cases exhausted <;> rfl

/-- The source is asked once. The loop ends with the answer unless that has brought bytes. -/
theorem round_of_waiting (waiting : decoder.framer.next = (none, framer)) (going : decoder.exhausted = false)
    (present : decoder.source = some source) :
    let current := { decoder with framer }
    let told := current.told (ask source).2 (ask source).1
    decoder.round ask =
      if Pulled.bytes (ask source).1 = [] then
        .inl { delivery := refusal (ask source).1, log := current.note (ask source).1, decoder := told }
      else .inr (current.note (ask source).1, told) := by
  obtain ⟨_, supplier, exhausted⟩ := decoder
  cases going
  cases present
  rw [round, waiting]
  simp only [fillFrom]
  generalize ask source = reply
  rcases reply with ⟨failure | (_ | ⟨first, rest⟩) | _ | _, next⟩ <;> rfl

private theorem queue_of_waiting (waiting : decoder.framer.next = (none, framer)) :
    framer.queue = decoder.framer.queue := by
  have same := Framer.queue_next_of_none (congrArg Prod.fst waiting)
  rwa [waiting] at same

private theorem note_of_bytes (decoder : Decoder σ) {answer : Except Failure Pulled} (bytes : Pulled.bytes answer ≠ []) :
    decoder.note answer = [.pulled (Pulled.bytes answer).length] := by
  rcases answer with failure | (given | _ | _)
  · exact absurd rfl bytes
  · rfl
  · exact absurd rfl bytes
  · exact absurd rfl bytes

/-- The loop goes round again only with more bytes in its queue. -/
theorem bytes_of_round {log : List LogEntry} (going : decoder.round ask = .inr (log, supplied)) :
    ∃ bytes, bytes ≠ [] ∧ log = [.pulled bytes.length] ∧ supplied.offset = decoder.offset ∧
      supplied.pending = decoder.pending ++ bytes := by
  rcases cut : decoder.framer.next with ⟨_ | item, framer⟩
  · by_cases unsupplied : decoder.Unsupplied
    · rw [round_of_unsupplied cut unsupplied] at going
      cases going
    · obtain ⟨running, source, present⟩ := present_of_supplied unsupplied
      have queue := queue_of_waiting cut
      rw [round_of_waiting cut running present] at going
      split at going
      · cases going
      next bytes =>
        cases going
        refine ⟨Pulled.bytes (ask source).1, bytes, ?_, ?_, ?_⟩
        · exact note_of_bytes _ bytes
        · rw [offset_told]
          exact congrArg ByteQueue.removed queue
        · rw [pending_told]
          exact congrArg (ByteQueue.pending · ++ _) queue
  · rw [round_of_found cut] at going
    cases going

private theorem Remaining.keep (remaining : Remaining ask decoder answers) (framer : Framer) :
    Remaining ask { decoder with framer } answers := by
  cases remaining with
  | unsupplied unsupplied => exact .unsupplied unsupplied
  | supplied going present leaves => exact .supplied going present leaves

private theorem failed_delivered (item : Except Fault Packet) : failed (delivered item) = false := by
  cases item <;> rfl

private theorem returns_found {item : Except Fault Packet} (found : decoder.framer.next = (some item, framer))
    (remaining : Remaining ask decoder answers) :
    ∃ pull rest, Returns ask decoder pull ∧ Uses ask decoder answers pull rest := by
  have less : framer.queue.size < decoder.framer.queue.size := by
    have shorter := Framer.size_next_lt (congrArg Prod.fst found)
    rwa [found] at shorter
  refine ⟨_, answers, .now (round_of_found found), remaining.keep framer, ?_, ?_⟩
  · simp only [Option.toList_some, List.countP_singleton, failed_delivered, Bool.not_false, if_true]
    show framer.queue.size + bytesIn answers + 1 ≤ decoder.framer.queue.size + bytesIn answers
    omega
  · simp [failed_delivered]

private theorem buffered_told_of_waiting (waiting : decoder.framer.next = (none, framer)) (source : σ)
    (answer : Except Failure Pulled) :
    (({ decoder with framer } : Decoder σ).told source answer).buffered = decoder.buffered + (Pulled.bytes answer).length := by
  rw [buffered_told]
  exact congrArg (ByteQueue.size · + _) (queue_of_waiting waiting)

private theorem countP_refusal (answer : Except Failure Pulled) (later : List (Except Failure Pulled)) :
    (refusal answer).toList.countP (!failed ·) = 0 ∧
    failuresIn later + (refusal answer).toList.countP failed = failuresIn (answer :: later) := by
  rw [failuresIn, failuresIn, List.countP_cons]
  cases answer with
  | error failure => exact ⟨rfl, rfl⟩
  | ok pulled => exact ⟨rfl, rfl⟩

private theorem returns_refused (waiting : decoder.framer.next = (none, framer)) (going : decoder.exhausted = false)
    (present : decoder.source = some source) (empty : Pulled.bytes (ask source).1 = [])
    (leaves : Leaves ask (ask source).2 later) :
    ∃ pull rest, Returns ask decoder pull ∧ Uses ask decoder ((ask source).1 :: later) pull rest := by
  let current : Decoder σ := { decoder with framer }
  have returned : decoder.round ask = _ := (round_of_waiting waiting going present).trans (if_pos empty)
  have size := buffered_told_of_waiting waiting (ask source).2 (ask source).1
  obtain ⟨noItem, failures⟩ := countP_refusal (ask source).1 later
  by_cases ended : (ask source).1 = .ok .exhausted
  · refine ⟨_, [], .now returned, .unsupplied (.inl ?_), ?_, ?_⟩
    · rw [ended]
      rfl
    · rw [noItem, size, bytesIn_cons]
      show _ + _ + 0 + 0 ≤ _
      omega
    · rw [← failures]
      exact Nat.add_le_add_right (Nat.zero_le _) _
  · refine ⟨_, later, .now returned, .supplied ((exhausted_told _ _ ended).trans going) (source_told _ _ _) leaves, ?_,
      Nat.le_of_eq failures⟩
    rw [noItem, size, bytesIn_cons]
    omega

private theorem nothing_of_cost {answer : Except Failure Pulled} (free : Pulled.cost answer = 0) :
    Pulled.bytes answer = [] ∧ failuresIn [answer] = 0 := by
  rcases answer with failure | (bytes | _ | _)
  · cases free
  · exact ⟨List.eq_nil_of_length_eq_zero free, rfl⟩
  · exact ⟨rfl, rfl⟩
  · exact ⟨rfl, rfl⟩

private theorem returns_of_leaves (going : decoder.exhausted = false) (present : decoder.source = some source)
    (leaves : Leaves ask source answers) :
    ∃ pull rest, Returns ask decoder pull ∧ Uses ask decoder answers pull rest := by
  induction leaves generalizing decoder with
  | @nothing source idle =>
    rcases cut : decoder.framer.next with ⟨_ | item, framer⟩
    · obtain ⟨empty, quiet⟩ : Pulled.bytes (ask source).1 = [] ∧ failuresIn [(ask source).1] = 0 := nothing_of_cost (idle 0)
      obtain ⟨pull, rest, returns, uses⟩ := returns_refused cut going present empty (.nothing fun calls => idle (calls + 1))
      have bytes := uses.bytes
      have failures := uses.failures
      rw [bytesIn_cons, empty, List.length_nil, Nat.zero_add] at bytes
      rw [quiet] at failures
      exact ⟨pull, rest, returns, uses.remaining, bytes, failures⟩
    · exact returns_found cut (.supplied going present (.nothing idle))
  | @answer source later rest ih =>
    -- Bytes may complete a frame, so the decoder that goes on is looked at afresh.
    rcases cut : decoder.framer.next with ⟨_ | item, framer⟩
    · by_cases empty : Pulled.bytes (ask source).1 = []
      · exact returns_refused cut going present empty rest
      · let current : Decoder σ := { decoder with framer }
        have running : (current.told (ask source).2 (ask source).1).exhausted = false :=
          (exhausted_told current _ (more_of_bytes empty)).trans going
        have again : decoder.round ask = _ := (round_of_waiting cut going present).trans (if_neg empty)
        have size := buffered_told_of_waiting cut (ask source).2 (ask source).1
        obtain ⟨pull, left, returns, uses⟩ := ih running (source_told _ _ _)
        refine ⟨_, left, .again again returns, uses.remaining, Nat.le_trans uses.bytes (Nat.le_of_eq ?_),
          Nat.le_trans uses.failures (List.sublist_cons_self _ _).countP_le⟩
        rw [size, bytesIn_cons, Nat.add_assoc]
    · exact returns_found cut (.supplied going present (.answer rest))

theorem exists_returns (remaining : Remaining ask decoder answers) :
    ∃ pull rest, Returns ask decoder pull ∧ Uses ask decoder answers pull rest := by
  cases remaining with
  | unsupplied unsupplied =>
    rcases cut : decoder.framer.next with ⟨_ | item, framer⟩
    · refine ⟨_, [], .now (round_of_unsupplied cut unsupplied), .unsupplied unsupplied, ?_, Nat.le_refl _⟩
      exact Nat.le_of_eq (congrArg (ByteQueue.size · + _) (queue_of_waiting cut))
    · exact returns_found cut (.unsupplied unsupplied)
  | supplied going present leaves => exact returns_of_leaves going present leaves

/-- Pulls give nothing in the end, since each delivery takes some of what is left. -/
theorem exists_iterates (remaining : Remaining ask decoder answers) :
    ∃ run, Iterates ask decoder run ∧ run.deliveries.countP (!failed ·) ≤ decoder.buffered + bytesIn answers ∧
      run.deliveries.countP failed ≤ failuresIn answers := by
  -- Neither the bytes nor the failures go down with each delivery, but their sum does.
  induction left : decoder.buffered + bytesIn answers + failuresIn answers using Nat.strongRecOn
    generalizing decoder answers with
  | ind left ih =>
    obtain ⟨pull, rest, returns, uses⟩ := exists_returns remaining
    have bytes := uses.bytes
    have failures := uses.failures
    cases given : pull.delivery with
    | none => exact ⟨_, .finish returns given, Nat.zero_le _, Nat.zero_le _⟩
    | some delivery =>
      rw [given, Option.toList_some] at bytes failures
      have one : [delivery].countP (!failed ·) + [delivery].countP failed = 1 := by
        rw [List.countP_singleton, List.countP_singleton]
        cases failed delivery <;> rfl
      obtain ⟨run, iterates, items, errors⟩ := ih _ (by omega) uses.remaining rfl
      refine ⟨_, .item returns given iterates, ?_, ?_⟩
      · rw [← List.singleton_append, List.countP_append]
        omega
      · rw [← List.singleton_append, List.countP_append]
        omega

theorem Returns.unique {pull other : Pull σ} (returns : Returns ask decoder pull)
    (too : Returns ask decoder other) : pull = other := by
  induction returns generalizing other with
  | now done =>
    cases too with
    | now also => exact Sum.inl.inj (done.symm.trans also)
    | again going => cases done.symm.trans going
  | again going rest ih =>
    cases too with
    | now done => cases going.symm.trans done
    | again also further =>
      cases going.symm.trans also
      rw [ih further]

theorem Iterates.unique {run other : Run σ} (iterates : Iterates ask decoder run)
    (too : Iterates ask decoder other) : run = other := by
  induction iterates generalizing other with
  | finish returns nothing =>
    cases too with
    | finish also => cases returns.unique also; rfl
    | item also given => cases returns.unique also; cases nothing.symm.trans given
  | item returns given rest ih =>
    cases too with
    | finish also nothing => cases returns.unique also; cases given.symm.trans nothing
    | item also got further =>
      cases returns.unique also
      cases given.symm.trans got
      rw [ih further]

end Loop

section Source
variable {σ : Type} [ByteSource σ]

private theorem fillFrom_pull (decoder : Decoder σ) : decoder.fillFrom ByteSource.pull = decoder.fill := by
  rw [fillFrom, fill]
  by_cases ended : decoder.exhausted
  · rw [if_pos ended, if_pos ended]
  · rw [if_neg ended, if_neg ended]
    cases decoder.source with
    | none => rfl
    | some source =>
      dsimp only
      generalize ByteSource.pull source = reply
      rcases reply with ⟨failure | (bytes | _ | _), next⟩ <;> rfl

private theorem round_of_filled {decoder supplied : Decoder σ} {framer : Framer} {result : Except Failure Bool}
    {log : List LogEntry} (waiting : decoder.framer.next = (none, framer))
    (filled : ({ decoder with framer } : Decoder σ).fill = (result, log, supplied)) :
    decoder.round ByteSource.pull = match result with
      | .ok true => .inr (log, supplied)
      | .ok false => .inl { delivery := none, log, decoder := supplied }
      | .error failure => .inl { delivery := some (.error (.source failure)), log, decoder := supplied } := by
  rw [round, waiting]
  simp only [fillFrom_pull, filled]
  rcases result with failure | _ | _ <;> rfl

theorem returns_pull (decoder : Decoder σ) : Returns ByteSource.pull decoder decoder.pull := by
  fun_induction pull decoder with
  | case1 decoder framer current packet found => exact .now (round_of_found found)
  | case2 decoder framer current fault found => exact .now (round_of_found found)
  | case3 decoder framer current log supplied filled rest waiting ih => exact .again (round_of_filled waiting filled) ih
  | case4 decoder framer current log supplied filled waiting => exact .now (round_of_filled waiting filled)
  | case5 decoder framer current failure log supplied filled waiting => exact .now (round_of_filled waiting filled)

theorem iterates_singles (decoder : Decoder σ) : Iterates ByteSource.pull decoder decoder.singles := by
  fun_induction singles decoder with
  | case1 decoder first given => exact .finish (returns_pull decoder) given
  | case2 decoder first delivery given rest ih => exact .item (returns_pull decoder) given ih

end Source

/-- Whatever a source answers before it brings nothing more for ever, each pull returns, and pulls
give nothing after at most as many deliveries as there are bytes at hand, bytes to come and failures
to come. An interrupted read is none of these. -/
theorem iteration_ends :
    (∀ {σ : Type} (ask : σ → Except Failure Pulled × σ) (decoder : Decoder σ) (answers : List (Except Failure Pulled)),
      Remaining ask decoder answers →
        (∃ pull rest, Returns ask decoder pull ∧ Uses ask decoder answers pull rest) ∧
        ∃ run, Iterates ask decoder run ∧ run.deliveries.countP (!failed ·) ≤ decoder.buffered + bytesIn answers ∧
          run.deliveries.countP failed ≤ failuresIn answers ∧
          run.deliveries.length ≤ decoder.buffered + bytesIn answers + failuresIn answers) ∧
    (∀ {σ : Type} (ask : σ → Except Failure Pulled × σ) (decoder supplied : Decoder σ) (log : List LogEntry),
      decoder.round ask = .inr (log, supplied) →
        ∃ bytes, bytes ≠ [] ∧ log = [.pulled bytes.length] ∧ supplied.offset = decoder.offset ∧
          supplied.pending = decoder.pending ++ bytes) ∧
    (∀ {σ : Type} [ByteSource σ] (decoder : Decoder σ),
      (∀ pull, Returns ByteSource.pull decoder pull ↔ pull = decoder.pull) ∧
      ∀ run, Iterates ByteSource.pull decoder run ↔ run = decoder.singles) ∧
    ∀ (script : Script) (ignoreEnd : Bool),
      let blocks : BlockSource Script := { reader := script, ignoreEnd }
      let blockAnswers := script.events.flatMap (BlockSource.answers ignoreEnd)
      Leaves ByteSource.pull script (script.events.map ScriptEvent.pulled) ∧ Leaves ByteSource.pull blocks blockAnswers ∧
      bytesIn blockAnswers + failuresIn blockAnswers = script.readSupply := by
  refine ⟨?_, ?_, ?_, ?_⟩
  · intro σ ask decoder answers remaining
    obtain ⟨run, iterates, items, failures⟩ := exists_iterates remaining
    have parts : run.deliveries.length = run.deliveries.countP failed + run.deliveries.countP (!failed ·) := by
      simpa using List.length_eq_countP_add_countP failed
    refine ⟨exists_returns remaining, run, iterates, items, failures, ?_⟩
    omega
  · intro σ ask decoder supplied log going
    exact bytes_of_round going
  · intro σ source decoder
    refine ⟨fun pull => ⟨fun returns => returns.unique (returns_pull decoder), ?_⟩,
      fun run => ⟨fun iterates => iterates.unique (iterates_singles decoder), ?_⟩⟩
    · rintro rfl
      exact returns_pull decoder
    · rintro rfl
      exact iterates_singles decoder
  · intro script ignoreEnd blocks blockAnswers
    exact ⟨leaves_script script.events script.calls, BlockSource.leaves_blocks ignoreEnd script.events script.calls,
      BlockSource.supply_answers ignoreEnd script⟩

end Decoder

end SingleWire
