import SingleWire.Proofs.FieldValue
import Mathlib.Algebra.BigOperators.Intervals
import Mathlib.Data.List.GetD
import Mathlib.Order.Bounds.Basic

/-! A field ends at the first byte that can be its last, and its value is one sum over the
places of its bytes. To read it in pieces comes to the same. -/

namespace SingleWire.Continuation
open Finset (range sum_range_succ sum_congr)

/-- The byte at a position can be the last of a field: it stands at the cap, or its top bit is clear. -/
def Ends (cap : Nat) (bytes : List UInt8) (position : Nat) : Prop :=
  ∃ byte, bytes[position]? = some byte ∧ (position + 1 = cap ∨ byte.toNat.testBit 7 = false)

/-- What the byte at a position adds to a field, in units of its place. -/
def groupAt (cap : Nat) (bytes : List UInt8) (position : Nat) : Nat :=
  let byte := (bytes.getD position 0).toNat
  if position + 1 = cap then byte else byte % 128

theorem top_clear_iff (byte : UInt8) : byte.toNat.testBit 7 = false ↔ byte.toNat < 128 := by
  have bound := byte.toNat_lt
  rw [Nat.testBit_eq_decide_div_mod_eq, decide_eq_false_iff_not]
  omega

variable {cap : Nat} {bytes field rest : List UInt8}

/-- All bytes of a field but the last promise another one, and leave room for it. -/
theorem exists_last (positive : 0 < cap) (ended : split? cap bytes = some (field, rest)) :
    ∃ front last, field = front ++ [last] ∧ front.length < cap ∧ (∀ byte ∈ front, 128 ≤ byte.toNat) ∧
      (front.length + 1 = cap ∨ last.toNat < 128) := by
  induction bytes generalizing cap field rest with
  | nil => cases ended
  | cons byte bytes ih =>
    simp only [split?] at ended
    split at ended
    next last =>
      cases ended
      refine ⟨[], byte, rfl, positive, by simp, ?_⟩
      rcases last with full | clear
      · exact .inl (by simp only [List.length_nil]; omega)
      · exact .inr clear
    next more =>
      obtain ⟨⟨group, left⟩, found, same⟩ := Option.map_eq_some_iff.mp ended
      cases same
      obtain ⟨front, last, rfl, room, marked, ending⟩ := ih (by omega) found
      refine ⟨byte :: front, last, rfl, ?_, ?_, ?_⟩
      · simp only [List.length_cons]
        omega
      · intro other member
        rcases List.mem_cons.mp member with rfl | member
        · omega
        · exact marked other member
      · simp only [List.length_cons]
        omega

/-- The last byte of a field is the first that can be. -/
theorem isLeast_of_split? (positive : 0 < cap) (ended : split? cap bytes = some (field, rest)) :
    IsLeast {position | Ends cap bytes position} (field.length - 1) := by
  obtain ⟨front, last, rfl, room, marked, ending⟩ := exists_last positive ended
  rw [(split?_eq_some ended).1, List.append_assoc, List.length_append, List.length_singleton, Nat.add_sub_cancel]
  refine ⟨⟨last, by simp, ?_⟩, ?_⟩
  · rwa [top_clear_iff]
  · intro position ⟨byte, there, can⟩
    rw [top_clear_iff] at can
    by_contra early
    rw [List.getElem?_append_left (by omega)] at there
    have continued := marked byte (List.mem_of_getElem? there)
    omega

theorem not_ends_of_split? (positive : 0 < cap) (unended : split? cap bytes = none) (position : Nat) :
    ¬ Ends cap bytes position := by
  intro ⟨byte, there, can⟩
  obtain ⟨-, short, marked⟩ := split?_eq_none unended
  have inside := (List.getElem?_eq_some_iff.mp there).1
  have continued := marked byte (List.mem_of_getElem? there)
  have room := short positive
  rw [top_clear_iff] at can
  omega

theorem groupAt_append (front more : List UInt8) {position : Nat} (inside : position < front.length) :
    groupAt cap (front ++ more) position = groupAt cap front position := by
  simp only [groupAt, List.getD_append _ _ _ _ inside]

theorem sum_eq_sum_range (within : bytes.length ≤ cap) :
    sum cap bytes = ∑ position ∈ range bytes.length, groupAt cap bytes position * 2 ^ (7 * position) := by
  induction bytes using List.reverseRecOn with
  | nil => rfl
  | append_singleton front last ih =>
    rw [List.length_append, List.length_singleton] at within ⊢
    have earlier : ∑ position ∈ range front.length, groupAt cap (front ++ [last]) position * 2 ^ (7 * position) =
        ∑ position ∈ range front.length, groupAt cap front position * 2 ^ (7 * position) := by
      apply sum_congr rfl
      intro position member
      rw [groupAt_append front [last] (Finset.mem_range.mp member)]
    have top : groupAt cap (front ++ [last]) front.length =
        if cap ≤ front.length + 1 then last.toNat else last.toNat % 128 := by
      simp only [groupAt, List.getD_append_right _ _ _ _ (Nat.le_refl _), Nat.sub_self, List.getD_cons_zero]
      exact if_congr (by omega) rfl rfl
    rw [sum_concat, sum_range_succ, earlier, top, ← ih (by omega), Nat.mul_comm (2 ^ _)]

theorem sum_eq_of_short (short : bytes.length < cap) :
    sum cap bytes = ∑ position ∈ range bytes.length, (bytes.getD position 0).toNat % 128 * 2 ^ (7 * position) := by
  rw [sum_eq_sum_range (Nat.le_of_lt short)]
  apply sum_congr rfl
  intro position member
  have inside := Finset.mem_range.mp member
  rw [groupAt, if_neg (by omega)]

variable {limit : UInt64}

theorem ended?_of_open {field : Field} (going : field.complete = false) : field.ended? = none := by
  rw [Field.ended?, if_neg (Bool.eq_false_iff.mp going)]

theorem ended?_of_complete {field : Field} (complete : field.complete = true) : field.ended? = some field.length := by
  rw [Field.ended?, if_pos complete]

theorem read_of_complete {bytes : List UInt8} {field : Field} (resumed : (Field.new limit).resume bytes = some field)
    (complete : field.complete = true) : read limit bytes = some (.complete field.value field.length) := by
  simp only [read, resumed, Option.bind_eq_bind, Option.bind_some, Option.pure_def, ended?_of_complete complete]

theorem read_of_open {bytes : List UInt8} {field : Field} (resumed : (Field.new limit).resume bytes = some field)
    (going : field.complete = false) : read limit bytes = some .incomplete := by
  simp only [read, resumed, Option.bind_eq_bind, Option.bind_some, Option.pure_def, ended?_of_open going]

theorem read_append {bytes : List UInt8} {field : Field} (resumed : (Field.new limit).resume bytes = some field)
    (complete : field.complete = true) (more : List UInt8) : read limit (bytes ++ more) = read limit bytes := by
  rw [read_of_complete resumed complete,
    read_of_complete (Field.resume_append_of_complete resumed complete more) complete]

/-- A field is read up to the first byte that can be its last, whatever follows it. Its value
is the sum of its groups, as far as a word holds it. -/
theorem read_eq_sum_of_groups (cap : UInt64) (bytes : List UInt8) (short : bytes.length < 2 ^ 61) :
    let limit := max 1 cap.toNat
    ((∃ position, Ends limit bytes position) → ∃ last value length, IsLeast {position | Ends limit bytes position} last ∧
      read cap bytes = some (.complete value length) ∧ length.toNat = last + 1 ∧
      value.toNat = (∑ position ∈ range (last + 1), groupAt limit bytes position * 2 ^ (7 * position)) % 2 ^ 64 ∧
      ∀ more, read cap (bytes.take (last + 1) ++ more) = read cap bytes) ∧
    ((∀ position, ¬ Ends limit bytes position) → read cap bytes = some .incomplete ∧ bytes.length < limit) := by
  intro limit
  have positive : 0 < limit := Nat.lt_of_lt_of_le Nat.zero_lt_one (Nat.le_max_left 1 _)
  cases ended : split? limit bytes with
  | none =>
    have never := not_ends_of_split? positive ended
    obtain ⟨field, resumed, going, -⟩ := Field.resume_new_of_open (Nat.le_of_lt short) ended
    refine ⟨?_, ?_⟩
    · intro ⟨position, ends⟩
      exact absurd ends (never position)
    · intro _
      exact ⟨read_of_open resumed going, (split?_eq_none ended).2.1 positive⟩
  | some parts =>
    obtain ⟨group, rest⟩ := parts
    have bound := length_split? positive ended
    have whole := (split?_eq_some ended).1
    have least := isLeast_of_split? positive ended
    have count : group.length - 1 + 1 = group.length := Nat.sub_add_cancel bound.1
    refine ⟨?_, ?_⟩
    · intro _
      obtain ⟨field, resumed, complete, length, value⟩ := Field.resume_new_of_ended (Nat.le_of_lt short) ended
      refine ⟨group.length - 1, _, _, least, read_of_complete resumed complete, ?_, ?_, ?_⟩
      · rw [length, count]
      · rw [value, sum_eq_sum_range bound.2, count, whole]
        congr 1
        apply sum_congr rfl
        intro position member
        rw [groupAt_append group rest (Finset.mem_range.mp member)]
      · intro more
        have few : group.length ≤ 2 ^ 61 := by
          rw [whole, List.length_append] at short
          omega
        obtain ⟨alone, taken, ends, -⟩ := Field.resume_new_of_ended few (split?_field ended)
        rw [count, whole, List.take_left' rfl, read_append taken ends, read_append taken ends]
    · intro never
      exact absurd least.1 (never _)

/-- Eleven bytes reach beyond a word. The last stands at the cap. -/
theorem read_eq_sum_of_groups_beyond_word :
    let bytes : List UInt8 := List.replicate 11 0xFF
    bytes.length < 2 ^ 61 ∧ (∃ position, Ends 11 bytes position) ∧
    ∃ last value length, IsLeast {position | Ends 11 bytes position} last ∧
      read 11 bytes = some (.complete value length) ∧ length.toNat = last + 1 ∧
      value.toNat = (∑ position ∈ range (last + 1), groupAt 11 bytes position * 2 ^ (7 * position)) % 2 ^ 64 ∧
      ∀ more, read 11 (bytes.take (last + 1) ++ more) = read 11 bytes := by
  intro bytes
  have short : bytes.length < 2 ^ 61 := by decide
  have ends : ∃ position, Ends 11 bytes position := ⟨10, 0xFF, rfl, .inl rfl⟩
  exact ⟨short, ends, (read_eq_sum_of_groups 11 bytes short).1 ends⟩

theorem foldlM_resume (field : Field) (pieces : List (List UInt8)) :
    pieces.foldlM Field.resume field = field.resume pieces.flatten := by
  induction pieces generalizing field with
  | nil => rfl
  | cons piece pieces ih =>
    rw [List.foldlM_cons, List.flatten_cons, Field.resume_append]
    exact congrArg (field.resume piece).bind (funext ih)

theorem foldlM_resume_of_complete {field after : Field} {pieces : List (List UInt8)} {count later : Nat}
    (resumed : (pieces.take count).foldlM Field.resume field = some after) (complete : after.complete = true)
    (behind : count ≤ later) : (pieces.take later).foldlM Field.resume field = some after := by
  obtain ⟨extra, rfl⟩ := Nat.exists_eq_add_of_le behind
  rw [List.take_add, List.foldlM_append, resumed, Option.bind_eq_bind, Option.bind_some, foldlM_resume,
    Field.resume_of_complete complete]

theorem split?_append_eq_take (ended : split? cap bytes = some (field, rest)) (more : List UInt8) :
    split? cap (bytes ++ more) = some ((bytes ++ more).take field.length, (bytes ++ more).drop field.length) := by
  rw [split?_append ended, (split?_eq_some ended).1, List.append_assoc, List.take_left' rfl, List.drop_left' rfl]

/-- A field that is read in pieces ends in the same piece as its last byte, with the value that
it has when it is read at once. Until then it holds all bytes, and from then on it stays. -/
theorem resume_pieces_eq_read (cap : UInt64) (pieces : List (List UInt8)) (short : pieces.flatten.length < 2 ^ 61)
    (count : Nat) :
    let limit := max 1 cap.toNat
    let fields (count : Nat) := (pieces.take count).foldlM Field.resume (Field.new cap)
    let arrived := (pieces.take count).flatten
    ∃ field, fields count = some field ∧
    (∀ length, field.ended? = some length ↔ ∃ value, read cap arrived = some (.complete value length)) ∧
    (∀ value length, read cap arrived = some (.complete value length) → field.value = value ∧ field.length = length) ∧
    (field.ended? = none → field.length.toNat = arrived.length ∧
      field.value.toNat =
        (∑ position ∈ range arrived.length, (arrived.getD position 0).toNat % 128 * 2 ^ (7 * position)) % 2 ^ 64 ∧
      field.length.toNat < limit) ∧
    ∀ length, field.ended? = some length →
      (∀ more, field.resume more = some field) ∧
      (∀ later, count ≤ later → fields later = some field) ∧
      split? limit pieces.flatten = some (pieces.flatten.take length.toNat, pieces.flatten.drop length.toNat) := by
  intro limit fields arrived
  have positive : 0 < limit := Nat.lt_of_lt_of_le Nat.zero_lt_one (Nat.le_max_left 1 _)
  have whole : pieces.flatten = arrived ++ (pieces.drop count).flatten := by
    rw [← List.flatten_append, List.take_append_drop]
  have few : arrived.length ≤ 2 ^ 61 := by
    rw [whole, List.length_append] at short
    omega
  have joined : fields count = (Field.new cap).resume arrived := foldlM_resume _ _
  cases ended : split? limit arrived with
  | none =>
    obtain ⟨field, resumed, going, length, value, -⟩ := Field.resume_new_of_open few ended
    have unread := read_of_open resumed going
    have inside := (split?_eq_none ended).2.1 positive
    have waiting := ended?_of_open going
    refine ⟨field, joined.trans resumed, ?_, ?_, ?_, ?_⟩
    · simp [waiting, unread]
    · simp [unread]
    · intro _
      refine ⟨length, ?_, ?_⟩
      · rw [value, sum_eq_of_short inside]
      · rwa [length]
    · simp [waiting]
  | some parts =>
    obtain ⟨taken, rest⟩ := parts
    obtain ⟨field, resumed, complete, size, -⟩ := Field.resume_new_of_ended few ended
    have given := read_of_complete resumed complete
    have returned := ended?_of_complete complete
    refine ⟨field, joined.trans resumed, ?_, ?_, ?_, ?_⟩
    · simp [returned, given]
    · intro value length found
      rw [given] at found
      cases found
      exact ⟨rfl, rfl⟩
    · simp [returned]
    · intro length found
      rw [returned] at found
      cases found
      refine ⟨?_, ?_, ?_⟩
      · exact Field.resume_of_complete complete
      · intro later behind
        exact foldlM_resume_of_complete (joined.trans resumed) complete behind
      · rw [whole, size]
        exact split?_append_eq_take ended _

/-- The fourth of five pieces, one of them empty, brings the last byte of a field and one more. -/
theorem resume_pieces_eq_read_inside_piece :
    let pieces : List (List UInt8) := [[0xC4], [], [0xA2], [0x11, 0x70], [0x01]]
    let fields (count : Nat) := (pieces.take count).foldlM Field.resume (Field.new 4)
    let waiting : Field := { value := 0x1144, length := 2, cap := 4, complete := false }
    let whole : Field := { value := 0x45144, length := 3, cap := 4, complete := true }
    pieces.flatten.length < 2 ^ 61 ∧
    fields 3 = some waiting ∧ waiting.length.toNat = [0xC4, 0xA2].length ∧ waiting.length.toNat < 4 ∧
    fields 4 = some whole ∧ (∃ value, read 4 (pieces.take 4).flatten = some (.complete value 3)) ∧
    fields 5 = some whole ∧ split? 4 pieces.flatten = some ([0xC4, 0xA2, 0x11], [0x70, 0x01]) := by
  intro pieces fields waiting whole
  have short : pieces.flatten.length < 2 ^ 61 := by decide
  have third : fields 3 = some waiting := by decide
  have fourth : fields 4 = some whole := by decide
  obtain ⟨field, held, -, -, going, -⟩ := resume_pieces_eq_read 4 pieces short 3
  obtain ⟨ended, found, returned, -, -, kept⟩ := resume_pieces_eq_read 4 pieces short 4
  cases held.symm.trans third
  cases found.symm.trans fourth
  obtain ⟨length, -, inside⟩ := going rfl
  obtain ⟨-, later, parts⟩ := kept 3 rfl
  exact ⟨short, third, length, inside, fourth, (returned 3).mp rfl, later 5 (by decide), parts⟩

end SingleWire.Continuation
