import SingleWire.Script
import SingleWire.Proofs.Calls

/-! A stream that is read in blocks gives its bytes unchanged, whatever its reads do. Bytes that
come together are cut into full blocks and a last one; interruptions are read over; the end, and
a read that has to wait, are answers of their own. -/

namespace SingleWire

/-- Bytes in pieces that are as long as a block, but for the last. -/
def pieces (bytes : List UInt8) : List (List UInt8) :=
  (List.range ((bytes.length + 255) / 256)).map fun place => (bytes.drop (256 * place)).take 256

theorem pieces_of_ne_nil {bytes : List UInt8} (nonempty : bytes ≠ []) :
    pieces bytes = bytes.take 256 :: pieces (bytes.drop 256) := by
  have positive := List.length_pos_iff.mpr nonempty
  have count : (bytes.length + 255) / 256 = ((bytes.drop 256).length + 255) / 256 + 1 := by
    rw [List.length_drop]
    omega
  rw [pieces, count, List.range_succ_eq_map, List.map_cons, List.map_map, pieces]
  refine congrArg₂ _ rfl (List.map_congr_left ?_)
  intro place _
  rw [Function.comp, List.drop_drop, Nat.mul_succ, Nat.add_comm]

theorem flatten_pieces (bytes : List UInt8) : (pieces bytes).flatten = bytes := by
  -- Each piece leaves fewer bytes.
  induction length : bytes.length using Nat.strongRecOn generalizing bytes with
  | ind size ih =>
    by_cases empty : bytes = []
    · rw [empty]
      rfl
    · have positive := List.length_pos_iff.mpr empty
      have less : (bytes.drop 256).length < size := by
        rw [List.length_drop]
        omega
      rw [pieces_of_ne_nil empty, List.flatten_cons, ih _ less _ rfl, List.take_append_drop]

theorem length_of_mem_dropLast_pieces {bytes piece : List UInt8} (member : piece ∈ (pieces bytes).dropLast) :
    piece.length = 256 := by
  rw [pieces, ← List.map_dropLast, List.dropLast_eq_take, List.take_range] at member
  obtain ⟨place, inside, rfl⟩ := List.mem_map.mp member
  have bound := List.mem_range.mp inside
  rw [List.length_range] at bound
  rw [List.length_take, List.length_drop]
  omega

namespace BlockSource

def ending (ignoreEnd : Bool) : Pulled := if ignoreEnd then .pending else .exhausted

section Reader
variable {ρ : Type} [Reader ρ] {source : BlockSource ρ}

theorem pull_of_bytes {bytes : List UInt8} (answered : (Reader.read source.reader blockSize).1 = .ok bytes) :
    source.pull = (.ok (if bytes = [] then ending source.ignoreEnd else .data bytes),
      { source with reader := (Reader.read source.reader blockSize).2 }) := by
  rw [pull]
  split
  next next read =>
    have last := congrArg Prod.snd read
    rw [read] at answered
    cases answered
    rw [last]
    cases bytes <;> rfl
  next failure next read =>
    rw [read] at answered
    cases answered

theorem pull_of_failure {failure : Failure} (answered : (Reader.read source.reader blockSize).1 = .error failure) :
    source.pull =
      if failure.kind = .interrupted then ({ source with reader := (Reader.read source.reader blockSize).2 } : BlockSource ρ).pull
      else if failure.kind = .wouldBlock then (.ok .pending, { source with reader := (Reader.read source.reader blockSize).2 })
      else (.error failure, { source with reader := (Reader.read source.reader blockSize).2 }) := by
  rw [pull]
  split
  next bytes next read =>
    rw [read] at answered
    cases answered
  next other next read =>
    have last := congrArg Prod.snd read
    rw [read] at answered
    cases answered
    rw [last]
    split <;> rfl

def pulls (source : BlockSource ρ) : Nat → List (Except Failure Pulled) × BlockSource ρ
  | 0 => ([], source)
  | times + 1 =>
    let (answer, next) := source.pull
    let (later, last) := next.pulls times
    (answer :: later, last)

theorem length_of_pull {bytes : List UInt8} (given : source.pull.1 = .ok (.data bytes)) :
    0 < bytes.length ∧ bytes.length ≤ 256 := by
  fun_induction pull source with
  | case1 source block reader answer pulled =>
    have bound := Reader.length_read source.reader blockSize block (congrArg Prod.fst answer)
    cases block with
    | nil => cases ending : source.ignoreEnd <;> simp [pulled, ending] at given
    | cons first rest =>
      simp only [pulled] at given
      cases given
      exact ⟨Nat.succ_pos _, bound⟩
  | case2 source failure reader answer interrupted ih => exact ih given
  | case3 => cases given
  | case4 => cases given

theorem length_of_mem_pulls {bytes : List UInt8} {times : Nat} (given : .ok (.data bytes) ∈ (source.pulls times).1) :
    0 < bytes.length ∧ bytes.length ≤ 256 := by
  induction times generalizing source with
  | zero => cases given
  | succ times ih =>
    rcases List.mem_cons.mp given with now | later
    · exact length_of_pull now.symm
    · exact ih later

end Reader

section Script
variable {ignoreEnd : Bool} {calls : Nat} {events later : List ScriptEvent}

/-- The answers that come of an event. None comes of an interruption. -/
def answers (ignoreEnd : Bool) : ScriptEvent → List (Except Failure Pulled)
  | .data bytes => if bytes = [] then [.ok (ending ignoreEnd)] else (pieces bytes).map fun piece => .ok (.data piece)
  | .pending => [.ok .pending]
  | .finish => [.ok (ending ignoreEnd)]
  | .fail failure =>
    if failure.kind = .interrupted then []
    else if failure.kind = .wouldBlock then [.ok .pending]
    else [.error failure]

/-- The walk over the events of a script, with the number of reads at each answer. Behind the events
there is only the end, for as many more pulls as `idle` says. -/
def walk (ignoreEnd : Bool) (idle : Nat) : (reads : Nat) → List ScriptEvent → List (Except Failure Pulled × Nat)
  | reads, [] => (List.replicate idle (.ok (ending ignoreEnd))).zipIdx (reads + 1)
  | reads, event :: later =>
    (answers ignoreEnd event).zipIdx (reads + 1) ++
      walk ignoreEnd idle (reads + max 1 (answers ignoreEnd event).length) later

def bytesOf (events : List ScriptEvent) : List UInt8 := events.flatMap fun event => Pulled.bytes event.pulled

/-- What a pull does that gives the next answer of a walk. -/
structure Walks (ignoreEnd : Bool) (idle calls : Nat) (events : List ScriptEvent)
    (result : Except Failure Pulled × BlockSource Script) : Prop where
  /-- The answers behind it are those of the events that are left. -/
  walked : ∃ more, idle ≤ more ∧ walk ignoreEnd (idle + 1) calls events =
    (result.1, result.2.reader.calls) :: walk ignoreEnd more result.2.reader.calls result.2.reader.events
  ignoreEnd : result.2.ignoreEnd = ignoreEnd
  bytes : Pulled.bytes result.1 ++ bytesOf result.2.reader.events = bytesOf events

private theorem bytes_ending (ignoreEnd : Bool) : Pulled.bytes (.ok (ending ignoreEnd)) = [] := by cases ignoreEnd <;> rfl

theorem pull_of_data {bytes : List UInt8} (nonempty : bytes ≠ []) :
    ({ reader := { events := .data bytes :: later, calls }, ignoreEnd } : BlockSource Script).pull = (.ok (.data (bytes.take 256)),
      { reader := { events := (if 256 < bytes.length then [.data (bytes.drop 256)] else []) ++ later, calls := calls + 1 },
        ignoreEnd }) := by
  have taken : bytes.take blockSize ≠ [] := by
    rw [ne_eq, List.take_eq_nil_iff, not_or]
    exact ⟨nofun, nonempty⟩
  rw [pull_of_bytes rfl, if_neg taken]
  rfl

private theorem walks_data (idle : Nat) {bytes : List UInt8} (nonempty : bytes ≠ []) :
    Walks ignoreEnd idle calls (.data bytes :: later) (.ok (.data (bytes.take 256)),
      { reader := { events := (if 256 < bytes.length then [.data (bytes.drop 256)] else []) ++ later, calls := calls + 1 },
        ignoreEnd }) := by
  by_cases long : 256 < bytes.length
  · have rest : bytes.drop 256 ≠ [] := mt List.drop_eq_nil_iff.mp (Nat.not_le.mpr long)
    have some : 0 < (pieces (bytes.drop 256)).length := by
      rw [pieces_of_ne_nil rest]
      exact Nat.succ_pos _
    have reads : calls + max 1 ((pieces (bytes.drop 256)).length + 1) =
        calls + 1 + max 1 (pieces (bytes.drop 256)).length := by omega
    rw [if_pos long]
    refine ⟨⟨idle + 1, Nat.le_succ idle, ?_⟩, rfl, ?_⟩
    · simp only [walk, answers, if_neg nonempty, if_neg rest, pieces_of_ne_nil nonempty, List.map_cons, List.zipIdx_cons,
        List.cons_append, List.nil_append, List.length_cons, List.length_map]
      rw [reads]
    · simp only [bytesOf, List.cons_append, List.nil_append, List.flatMap_cons, ScriptEvent.pulled, Pulled.bytes]
      rw [← List.append_assoc, List.take_append_drop]
  · have short : bytes.drop 256 = [] := List.drop_eq_nil_of_le (Nat.not_lt.mp long)
    rw [if_neg long]
    refine ⟨⟨idle + 1, Nat.le_succ idle, ?_⟩, rfl, ?_⟩
    · simp only [walk, answers, if_neg nonempty, pieces_of_ne_nil nonempty, short, List.map_cons, List.zipIdx_cons]
      rfl
    · simp only [bytesOf, List.nil_append, List.flatMap_cons, ScriptEvent.pulled, Pulled.bytes]
      rw [List.take_of_length_le (Nat.not_lt.mp long)]

theorem pull_of_event (ignoreEnd : Bool) (event : ScriptEvent) (calls : Nat) (later : List ScriptEvent) :
    let source : BlockSource Script := { reader := { events := event :: later, calls }, ignoreEnd }
    let behind : BlockSource Script := { reader := { events := later, calls := calls + 1 }, ignoreEnd }
    (∃ bytes, bytes ≠ [] ∧ event = .data bytes) ∨
    Pulled.bytes event.pulled = [] ∧
      ((answers ignoreEnd event = [] ∧ source.pull = behind.pull) ∨
        ∃ answer, answers ignoreEnd event = [answer] ∧ Pulled.bytes answer = [] ∧ source.pull = (answer, behind)) := by
  intro source behind
  rcases event with bytes | _ | _ | failure
  · by_cases empty : bytes = []
    · subst empty
      have pulled : source.pull = _ := pull_of_bytes rfl
      exact .inr ⟨rfl, .inr ⟨_, rfl, bytes_ending ignoreEnd, pulled⟩⟩
    · exact .inl ⟨bytes, empty, rfl⟩
  · have pulled : source.pull = _ := pull_of_failure rfl
    exact .inr ⟨rfl, .inr ⟨_, rfl, rfl, pulled⟩⟩
  · have pulled : source.pull = _ := pull_of_bytes rfl
    exact .inr ⟨rfl, .inr ⟨_, rfl, bytes_ending ignoreEnd, pulled⟩⟩
  · have pulled : source.pull = _ := pull_of_failure rfl
    by_cases interrupted : failure.kind = .interrupted
    · rw [if_pos interrupted] at pulled
      exact .inr ⟨rfl, .inl ⟨if_pos interrupted, pulled⟩⟩
    · rw [if_neg interrupted] at pulled
      by_cases blocked : failure.kind = .wouldBlock
      · rw [if_pos blocked] at pulled
        exact .inr ⟨rfl, .inr ⟨_, (if_neg interrupted).trans (if_pos blocked), rfl, pulled⟩⟩
      · rw [if_neg blocked] at pulled
        exact .inr ⟨rfl, .inr ⟨_, (if_neg interrupted).trans (if_neg blocked), rfl, pulled⟩⟩

private theorem walks_pull (ignoreEnd : Bool) (idle calls : Nat) (events : List ScriptEvent) :
    Walks ignoreEnd idle calls events ({ reader := { events, calls }, ignoreEnd } : BlockSource Script).pull := by
  induction events generalizing calls with
  | nil =>
    rw [pull_of_bytes rfl]
    exact ⟨⟨idle, Nat.le_refl idle, rfl⟩, rfl, congrArg (· ++ []) (bytes_ending ignoreEnd)⟩
  | cons event later ih =>
    rcases pull_of_event ignoreEnd event calls later with
      ⟨bytes, nonempty, rfl⟩ | ⟨silent, ⟨none, again⟩ | ⟨answer, one, empty, answered⟩⟩
    · rw [pull_of_data nonempty]
      exact walks_data idle nonempty
    · obtain ⟨⟨more, enough, walked⟩, kept, bytes⟩ := ih (calls + 1)
      rw [again]
      refine ⟨⟨more, enough, ?_⟩, kept, ?_⟩
      · rw [walk, none]
        exact walked
      · rw [bytes, bytesOf, bytesOf, List.flatMap_cons, silent, List.nil_append]
    · rw [answered]
      refine ⟨⟨idle + 1, Nat.le_succ idle, ?_⟩, rfl, ?_⟩
      · rw [walk, one]
        rfl
      · rw [empty, bytesOf, bytesOf, List.flatMap_cons, silent]

private theorem pulls_walk {times idle : Nat} (enough : times ≤ idle) (ignoreEnd : Bool) (calls : Nat) (events : List ScriptEvent) :
    let run := ({ reader := { events, calls }, ignoreEnd } : BlockSource Script).pulls times
    let stops := (walk ignoreEnd idle calls events).take times
    run.1 = stops.map Prod.fst ∧ run.2.reader.calls = (stops.map Prod.snd).getLastD calls ∧
    run.1.flatMap Pulled.bytes ++ bytesOf run.2.reader.events = bytesOf events := by
  induction times generalizing idle calls events with
  | zero => exact ⟨rfl, rfl, rfl⟩
  | succ times ih =>
    obtain ⟨fewer, rfl⟩ := Nat.exists_eq_add_of_le' (Nat.lt_of_lt_of_le (Nat.succ_pos times) enough)
    obtain ⟨⟨more, kept, walked⟩, same, bytes⟩ := walks_pull ignoreEnd fewer calls events
    simp only [pulls]
    generalize ({ reader := { events, calls }, ignoreEnd } : BlockSource Script).pull = result at walked same bytes ⊢
    obtain ⟨answer, ⟨⟨left, reads⟩, still⟩⟩ := result
    cases same
    have fits : times ≤ more := Nat.le_trans (Nat.le_of_succ_le_succ enough) kept
    obtain ⟨answers, count, rest⟩ := ih fits reads left
    rw [walked, List.take_succ_cons, List.map_cons, List.map_cons, List.getLastD_cons, List.flatMap_cons, List.append_assoc]
    refine ⟨congrArg _ answers, count, ?_⟩
    rw [rest, bytes]

end Script

section Cursor

/-- What is done with a source over bytes in memory. -/
inductive Access where
  | pull
  | seek (position : Nat)

def accesses (source : BlockSource Cursor) : List Access → List (Option (Except Failure Pulled) × Nat)
  | [] => []
  | .pull :: later => (some source.pull.1, source.pull.2.reader.position) :: source.pull.2.accesses later
  | .seek position :: later =>
    let moved : BlockSource Cursor := { source with reader := source.reader.seek position }
    (none, moved.reader.position) :: moved.accesses later

/-- The slices of some bytes that accesses one after another give. -/
def slices (ignoreEnd : Bool) (bytes : List UInt8) : (position : Nat) → List Access → List (Option (Except Failure Pulled) × Nat)
  | _, [] => []
  | _, .seek position :: later => (none, position) :: slices ignoreEnd bytes position later
  | position, .pull :: later =>
    if position < bytes.length then
      let stop := min (position + 256) bytes.length
      (some (.ok (.data ((bytes.take stop).drop position))), stop) :: slices ignoreEnd bytes stop later
    else (some (.ok (ending ignoreEnd)), position) :: slices ignoreEnd bytes position later

private theorem pull_cursor (ignoreEnd : Bool) (bytes : Array UInt8) (position : Nat) :
    ({ reader := { bytes, position }, ignoreEnd } : BlockSource Cursor).pull =
      if position < bytes.size then
        let stop := min (position + 256) bytes.size
        (.ok (.data ((bytes.toList.take stop).drop position)), { reader := { bytes, position := stop }, ignoreEnd })
      else (.ok (ending ignoreEnd), { reader := { bytes, position }, ignoreEnd }) := by
  let block := (bytes.extract position (position + 256)).toList
  have sliced : block = (bytes.toList.take (min (position + 256) bytes.size)).drop position := by
    simp only [block, Array.toList_extract, List.extract_eq_take_drop]
    rw [List.drop_take, List.take_eq_take_iff, List.length_drop, Array.length_toList]
    omega
  have length : block.length = min (position + 256) bytes.size - position := by
    simp only [block, Array.length_toList, Array.size_extract]
  have read : Reader.read ({ bytes, position } : Cursor) blockSize = (.ok block, { bytes, position := position + block.length }) := rfl
  rw [pull_of_bytes (congrArg Prod.fst read), read]
  by_cases inside : position < bytes.size
  · have nonempty : block ≠ [] := by
      apply List.ne_nil_of_length_pos
      omega
    have stop : position + block.length = min (position + 256) bytes.size := by omega
    rw [if_neg nonempty, if_pos inside, stop, sliced]
  · have empty : block = [] := by
      apply List.eq_nil_of_length_eq_zero
      omega
    rw [if_pos empty, if_neg inside, empty]
    rfl

theorem accesses_eq_slices (ignoreEnd : Bool) (bytes : Array UInt8) (position : Nat) (operations : List Access) :
    ({ reader := { bytes, position }, ignoreEnd } : BlockSource Cursor).accesses operations =
      slices ignoreEnd bytes.toList position operations := by
  induction operations generalizing position with
  | nil => rfl
  | cons operation later ih =>
    cases operation with
    | seek target => exact congrArg _ (ih target)
    | pull =>
      rw [accesses, pull_cursor, slices]
      by_cases inside : position < bytes.size
      · simp only [if_pos inside, Array.length_toList, ih]
      · simp only [if_neg inside, Array.length_toList, ih]

end Cursor

/-- Pulls over a scripted stream give the walk over its events, and what they give is in front of
what is left of its bytes. Over bytes in memory they give slices, wherever the position is set. -/
theorem blocks_unchanged (ignoreEnd : Bool) :
    (∀ (events : List ScriptEvent) (times : Nat),
      let start : BlockSource Script := { reader := { events }, ignoreEnd }
      let (answers, last) := start.pulls times
      let stops := (walk ignoreEnd times 0 events).take times
      answers = stops.map Prod.fst ∧ last.reader.calls = (stops.map Prod.snd).getLastD 0 ∧
      answers.flatMap Pulled.bytes ++ bytesOf last.reader.events = bytesOf events ∧
      ∀ bytes, .ok (.data bytes) ∈ answers → 0 < bytes.length ∧ bytes.length ≤ 256) ∧
    (∀ bytes, (pieces bytes).flatten = bytes ∧ (pieces bytes).length = (bytes.length + 255) / 256 ∧
      ∀ piece ∈ (pieces bytes).dropLast, piece.length = 256) ∧
    ∀ (bytes : Array UInt8) (position : Nat) (operations : List Access),
      ({ reader := { bytes, position }, ignoreEnd } : BlockSource Cursor).accesses operations =
        slices ignoreEnd bytes.toList position operations := by
  refine ⟨?_, ?_, accesses_eq_slices ignoreEnd⟩
  · intro events times start
    obtain ⟨answers, calls, bytes⟩ := pulls_walk (Nat.le_refl times) ignoreEnd 0 events
    exact ⟨answers, calls, bytes, fun _ given => length_of_mem_pulls given⟩
  · intro bytes
    refine ⟨flatten_pieces bytes, ?_, fun _ member => length_of_mem_dropLast_pieces member⟩
    rw [pieces, List.length_map, List.length_range]

end BlockSource

end SingleWire
