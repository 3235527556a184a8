import SingleWire.Continuation.Field
import SingleWire.Proofs.FieldGroups

/-! The field that takes bytes one at a time, in words of 64 bits, is the field of the
grammar: it ends at the same byte, and its value is the sum of the groups modulo 2^64. -/

namespace SingleWire.Continuation

private theorem toNat_lowMask {width : UInt64} (small : width.toNat < 64) :
    ((1 <<< width) - 1 : UInt64).toNat = 2 ^ width.toNat - 1 := by
  have power : 2 ^ width.toNat < 2 ^ 64 := Nat.pow_lt_pow_right (by decide) small
  have shifted : (1 <<< width : UInt64).toNat = 2 ^ width.toNat := by
    rw [UInt64.toNat_shiftLeft, Nat.mod_eq_of_lt small, Nat.shiftLeft_eq, UInt64.toNat_one, Nat.one_mul,
      Nat.mod_eq_of_lt power]
  rw [UInt64.toNat_sub_of_le, shifted, UInt64.toNat_one]
  rw [UInt64.le_iff_toNat_le, shifted]
  exact Nat.one_le_two_pow

private theorem testBit_not (word : UInt64) {index : Nat} (inside : index < 64) :
    (~~~word).toNat.testBit index = !word.toNat.testBit index := by
  have bound := word.toNat_lt
  rw [UInt64.toNat_not, UInt64.size, Nat.sub_sub, Nat.add_comm 1,
    show 18446744073709551616 = 2 ^ 64 from rfl, Nat.testBit_two_pow_sub_succ bound]
  simp [inside]

theorem testBit_of_le (value : UInt64) {index : Nat} (beyond : 64 ≤ index) : value.toNat.testBit index = false :=
  Nat.testBit_lt_two_pow (Nat.lt_of_lt_of_le value.toNat_lt (Nat.pow_le_pow_right (by decide) beyond))

theorem testBit_overwrite (value : UInt64) {start width : UInt64} (byte : UInt8)
    (inside : start.toNat + width.toNat ≤ 64) (begins : start.toNat < 64) (narrow : width.toNat < 64) (index : Nat) :
    (overwrite value start width byte).toNat.testBit index =
      if start.toNat ≤ index ∧ index < start.toNat + width.toNat then byte.toNat.testBit (index - start.toNat)
      else value.toNat.testBit index := by
  have mask : (((1 <<< width) - 1 : UInt64) <<< start).toNat.testBit index =
      decide (start.toNat ≤ index ∧ index < start.toNat + width.toNat) := by
    rw [UInt64.toNat_shiftLeft, Nat.mod_eq_of_lt begins, toNat_lowMask narrow, Nat.testBit_mod_two_pow,
      Nat.testBit_shiftLeft, Nat.testBit_two_pow_sub_one]
    simp only [← Bool.decide_and, decide_eq_decide]
    omega
  have placed : (byte.toUInt64 <<< start).toNat.testBit index =
      (decide (index < 64) && (decide (start.toNat ≤ index) && byte.toNat.testBit (index - start.toNat))) := by
    rw [UInt64.toNat_shiftLeft, Nat.mod_eq_of_lt begins, Nat.testBit_mod_two_pow, Nat.testBit_shiftLeft,
      UInt8.toNat_toUInt64]
  unfold overwrite
  rw [UInt64.toNat_or, UInt64.toNat_and, UInt64.toNat_and, Nat.testBit_or, Nat.testBit_and, Nat.testBit_and, mask, placed]
  by_cases low : index < 64
  · rw [testBit_not _ low, mask]
    split
    next between => simp [between, low]
    next outside => simp [outside]
  · have beyond := testBit_of_le value (Nat.not_lt.mp low)
    have outside : ¬ (start.toNat ≤ index ∧ index < start.toNat + width.toNat) := by omega
    simp [beyond, outside]

private theorem toNat_min (first second : UInt64) : (min first second).toNat = min first.toNat second.toNat := by
  by_cases ordered : first ≤ second
  · have le := UInt64.le_iff_toNat_le.mp ordered
    show (if first ≤ second then first else second).toNat = _
    rw [if_pos ordered, Nat.min_eq_left le]
  · have lt := mt UInt64.le_iff_toNat_le.mpr ordered
    show (if first ≤ second then first else second).toNat = _
    rw [if_neg ordered, Nat.min_eq_right (by omega)]

/-- The bits of a byte that would lie beyond the word are left out. -/
private theorem testBit_clipped (value : UInt64) (byte : UInt8) {start reach : UInt64} {width : Nat}
    (ends : reach.toNat = start.toNat + width) (narrow : width < 64) (index : Nat) :
    (if start < min reach 64 then overwrite value start (min reach 64 - start) byte else value).toNat.testBit index =
      if start.toNat ≤ index ∧ index < min (start.toNat + width) 64 then byte.toNat.testBit (index - start.toNat)
      else value.toNat.testBit index := by
  have stop : (min reach 64).toNat = min (start.toNat + width) 64 := by rw [toNat_min, ends]; rfl
  split
  next room =>
    rw [UInt64.lt_iff_toNat_lt, stop] at room
    have wide : (min reach 64 - start).toNat = min (start.toNat + width) 64 - start.toNat := by
      rw [UInt64.toNat_sub_of_le, stop]
      rw [UInt64.le_iff_toNat_le, stop]
      omega
    have same : start.toNat + (min (start.toNat + width) 64 - start.toNat) = min (start.toNat + width) 64 := by omega
    rw [testBit_overwrite, wide, same]
    · rw [wide]; omega
    · omega
    · rw [wide]; omega
  next full =>
    rw [UInt64.lt_iff_toNat_lt, stop] at full
    rw [if_neg (by omega)]

private theorem add?_of_fits (first second : UInt64) (fits : first.toNat + second.toNat < 2 ^ 64) :
    ∃ total, add? first second = some total ∧ total.toNat = first.toNat + second.toNat := by
  refine ⟨first + second, if_pos fits, ?_⟩
  rw [UInt64.toNat_add, Nat.mod_eq_of_lt fits]

private theorem add?_of_beyond {first second : UInt64} (beyond : 2 ^ 64 ≤ first.toNat + second.toNat) :
    add? first second = none := if_neg (Nat.not_lt.mpr beyond)

private theorem seven_mul?_of_fits (word : UInt64) (fits : 7 * word.toNat < 2 ^ 64) :
    ∃ product, mul? 7 word = some product ∧ product.toNat = 7 * word.toNat := by
  refine ⟨7 * word, if_pos fits, ?_⟩
  rw [UInt64.toNat_mul]
  exact Nat.mod_eq_of_lt fits

private theorem seven_mul?_of_beyond {word : UInt64} (beyond : 2 ^ 64 ≤ 7 * word.toNat) : mul? 7 word = none :=
  if_neg (Nat.not_lt.mpr beyond)

namespace Field

def width (field : Field) : Nat := if field.length.toNat + 1 = field.cap.toNat then 8 else 7

/-- What one more byte makes of a field. The bits that it gives lie above those of the bytes
before it, as far as the word reaches. -/
structure Pushed (field : Field) (byte : UInt8) (next : Field) : Prop where
  cap : next.cap = field.cap
  length : next.length.toNat = field.length.toNat + 1
  complete : next.complete = decide (field.length.toNat + 1 = field.cap.toNat ∨ byte.toNat < 128)
  testBit : ∀ index, next.value.toNat.testBit index =
    if 7 * field.length.toNat ≤ index ∧ index < min (7 * field.length.toNat + field.width) 64
    then byte.toNat.testBit (index - 7 * field.length.toNat) else field.value.toNat.testBit index

variable {field next : Field} {byte : UInt8}

theorem pushed_of_fits (field : Field) (byte : UInt8) (fits : 7 * (field.length.toNat + 1) < 2 ^ 64) :
    ∃ next, field.push byte = some next ∧ field.Pushed byte next := by
  have one : (1 : UInt64).toNat = 1 := rfl
  obtain ⟨length, counted, longer⟩ := add?_of_fits field.length 1 (by omega)
  obtain ⟨start, placed, first⟩ := seven_mul?_of_fits field.length (by omega)
  have last : (length == field.cap) = decide (field.length.toNat + 1 = field.cap.toNat) := by
    rw [Bool.eq_iff_iff, beq_iff_eq, decide_eq_true_iff, ← UInt64.toNat_inj, longer, one]
  have bits : (if (length == field.cap) = true then 8 else 7 : UInt64).toNat = field.width := by
    simp only [last, decide_eq_true_eq, width]
    split <;> rfl
  have narrow : field.width ≤ 8 := by
    unfold width
    split <;> omega
  obtain ⟨reach, reached, beyond⟩ := add?_of_fits start (if (length == field.cap) = true then 8 else 7) (by omega)
  rw [bits] at beyond
  simp only [push, counted, placed, reached, Option.bind_eq_bind, Option.bind_some, Option.pure_def]
  refine ⟨_, rfl, rfl, by rw [longer, one], ?_, ?_⟩
  · rw [Bool.decide_or, ← last]
    rfl
  · intro index
    rw [← first]
    exact testBit_clipped field.value byte beyond (by omega) index

/-- The counts leave their words together: 2^64 lies two above a multiple of seven. -/
theorem push_of_beyond (field : Field) (byte : UInt8) (beyond : 2 ^ 64 ≤ 7 * (field.length.toNat + 1)) :
    field.push byte = none := by
  have one : (1 : UInt64).toNat = 1 := rfl
  by_cases counts : 2 ^ 64 ≤ field.length.toNat + 1
  · rw [push, add?_of_beyond (by omega)]
    rfl
  · obtain ⟨length, counted, -⟩ := add?_of_fits field.length 1 (by omega)
    by_cases starts : 2 ^ 64 ≤ 7 * field.length.toNat
    · simp only [push, counted, seven_mul?_of_beyond starts, Option.bind_eq_bind, Option.bind_some, Option.bind_none]
    · obtain ⟨start, placed, first⟩ := seven_mul?_of_fits field.length (by omega)
      have reaches : 2 ^ 64 ≤ start.toNat + (if (length == field.cap) = true then 8 else 7 : UInt64).toNat := by
        split
        · rw [show (8 : UInt64).toNat = 8 from rfl]
          omega
        · rw [show (7 : UInt64).toNat = 7 from rfl]
          omega
      simp only [push, counted, placed, add?_of_beyond reaches, Option.bind_eq_bind, Option.bind_some, Option.bind_none]

theorem push_eq_some (pushed : field.push byte = some next) :
    7 * (field.length.toNat + 1) < 2 ^ 64 ∧ field.Pushed byte next := by
  by_cases fits : 7 * (field.length.toNat + 1) < 2 ^ 64
  · obtain ⟨other, same, facts⟩ := field.pushed_of_fits byte fits
    cases same.symm.trans pushed
    exact ⟨fits, facts⟩
  · rw [field.push_of_beyond byte (Nat.not_lt.mp fits)] at pushed
    cases pushed

/-- The next byte adds its group above those that are there. Bits from the 64th on are lost. -/
theorem Pushed.value (pushed : field.Pushed byte next) (below : field.value.toNat < 2 ^ (7 * field.length.toNat)) :
    next.value.toNat =
      (2 ^ (7 * field.length.toNat) * (byte.toNat % 2 ^ field.width) + field.value.toNat) % 2 ^ 64 := by
  apply Nat.eq_of_testBit_eq
  intro index
  rw [pushed.testBit, Nat.testBit_mod_two_pow, Nat.testBit_two_pow_mul_add _ below, Nat.testBit_mod_two_pow]
  generalize field.width = width
  have high (beyond : 7 * field.length.toNat ≤ index ∨ 64 ≤ index) : field.value.toNat.testBit index = false := by
    rcases beyond with beyond | beyond
    · exact Nat.testBit_lt_two_pow (Nat.lt_of_lt_of_le below (Nat.pow_le_pow_right (by decide) beyond))
    · exact testBit_of_le field.value beyond
  by_cases low : index < 64
  · rw [decide_eq_true low, Bool.true_and]
    by_cases early : index < 7 * field.length.toNat
    · rw [if_neg (by omega), if_pos early]
    · rw [if_neg early]
      by_cases taken : index - 7 * field.length.toNat < width
      · rw [if_pos (by omega), decide_eq_true taken, Bool.true_and]
      · rw [if_neg (by omega), high (.inl (by omega)), decide_eq_false taken, Bool.false_and]
  · rw [if_neg (by omega), high (.inr (by omega)), decide_eq_false low, Bool.false_and]

theorem resume_of_complete (ended : field.complete = true) (bytes : List UInt8) : field.resume bytes = some field := by
  cases bytes with
  | nil => rfl
  | cons byte rest => rw [resume, if_pos ended]

theorem resume_cons (going : field.complete = false) (byte : UInt8) (bytes : List UInt8) :
    field.resume (byte :: bytes) = (field.push byte).bind (·.resume bytes) := by
  rw [resume, if_neg (by simp [going])]

theorem resume_append (field : Field) (first second : List UInt8) :
    field.resume (first ++ second) = (field.resume first).bind (·.resume second) := by
  induction first generalizing field with
  | nil => rfl
  | cons byte first ih =>
    rw [List.cons_append]
    cases going : field.complete with
    | true => rw [resume_of_complete going, resume_of_complete going, Option.bind_some, resume_of_complete going]
    | false =>
      rw [resume_cons going, resume_cons going, Option.bind_assoc]
      exact congrArg (field.push byte).bind (funext fun next => ih next)

theorem resume_append_of_complete {after : Field} {first : List UInt8} (resumed : field.resume first = some after)
    (ended : after.complete = true) (second : List UInt8) : field.resume (first ++ second) = some after := by
  rw [resume_append, resumed, Option.bind_some, resume_of_complete ended]

/-- What a field comes to when `bytes` follow: the bytes that it takes are those of the
groups above it, and their sum is added above its value. -/
structure Reached (field : Field) (bytes : List UInt8) (after : Field) : Prop where
  cap : after.cap = field.cap
  complete : after.complete = (split? (field.cap.toNat - field.length.toNat) bytes).isSome
  length : after.length.toNat = field.length.toNat + (taken (field.cap.toNat - field.length.toNat) bytes).length
  value : after.value.toNat = (2 ^ (7 * field.length.toNat) *
    sum (field.cap.toNat - field.length.toNat) (taken (field.cap.toNat - field.length.toNat) bytes)
      + field.value.toNat) % 2 ^ 64

private structure Added (field : Field) (byte : UInt8) (next : Field) : Prop where
  complete : next.complete = decide (field.cap.toNat - field.length.toNat ≤ 1 ∨ byte.toNat < 128)
  left : next.cap.toNat - next.length.toNat = field.cap.toNat - field.length.toNat - 1
  weight : 2 ^ (7 * next.length.toNat) = 2 ^ (7 * field.length.toNat) * 128
  value : next.value.toNat = (2 ^ (7 * field.length.toNat) *
    (if field.cap.toNat - field.length.toNat ≤ 1 then byte.toNat else byte.toNat % 128) + field.value.toNat) % 2 ^ 64

private theorem Pushed.added (pushed : field.Pushed byte next) (room : field.length.toNat < field.cap.toNat)
    (below : field.value.toNat < 2 ^ (7 * field.length.toNat)) : field.Added byte next := by
  have last : field.length.toNat + 1 = field.cap.toNat ↔ field.cap.toNat - field.length.toNat ≤ 1 := by omega
  have group : byte.toNat % 2 ^ field.width =
      if field.cap.toNat - field.length.toNat ≤ 1 then byte.toNat else byte.toNat % 128 := by
    by_cases full : field.length.toNat + 1 = field.cap.toNat
    · rw [width, if_pos full, if_pos (last.mp full), Nat.mod_eq_of_lt byte.toNat_lt]
    · rw [width, if_neg full, if_neg (mt last.mpr full)]
      rfl
  refine ⟨?_, ?_, ?_, ?_⟩
  · rw [pushed.complete]
    exact decide_eq_decide.mpr (or_congr_left last)
  · rw [pushed.cap, pushed.length]
    omega
  · rw [pushed.length, Nat.mul_succ, Nat.pow_add]
  · rw [← group]
    exact pushed.value below

private theorem Added.below (added : field.Added byte next) (below : field.value.toNat < 2 ^ (7 * field.length.toNat))
    (going : ¬ field.cap.toNat - field.length.toNat ≤ 1) : next.value.toNat < 2 ^ (7 * next.length.toNat) := by
  have bound : byte.toNat % 128 < 128 := Nat.mod_lt _ (by decide)
  rw [added.value, added.weight, if_neg going]
  apply Nat.lt_of_le_of_lt (Nat.mod_le _ _)
  calc 2 ^ (7 * field.length.toNat) * (byte.toNat % 128) + field.value.toNat
      < 2 ^ (7 * field.length.toNat) * (byte.toNat % 128) + 2 ^ (7 * field.length.toNat) := by omega
    _ = 2 ^ (7 * field.length.toNat) * (byte.toNat % 128 + 1) := rfl
    _ ≤ 2 ^ (7 * field.length.toNat) * 128 := Nat.mul_le_mul_left _ bound

theorem reached_resume (field : Field) (bytes : List UInt8) (going : field.complete = false)
    (room : field.length.toNat < field.cap.toNat) (below : field.value.toNat < 2 ^ (7 * field.length.toNat))
    (short : field.length.toNat + bytes.length ≤ 2 ^ 61) :
    ∃ after, field.resume bytes = some after ∧ field.Reached bytes after := by
  induction bytes generalizing field with
  | nil =>
    refine ⟨field, rfl, rfl, going, rfl, ?_⟩
    simp only [taken, sum, Nat.mul_zero, Nat.zero_add]
    exact (Nat.mod_eq_of_lt field.value.toNat_lt).symm
  | cons byte bytes ih =>
    simp only [List.length_cons] at short
    obtain ⟨next, same, pushed⟩ := field.pushed_of_fits byte (by omega)
    have added := pushed.added room below
    have ends := added.complete
    rw [resume_cons going, same, Option.bind_some]
    by_cases last : field.cap.toNat - field.length.toNat ≤ 1 ∨ byte.toNat < 128
    · rw [decide_eq_true last] at ends
      refine ⟨next, resume_of_complete ends bytes, pushed.cap, ?_, ?_, ?_⟩
      · rw [ends, split?, if_pos last]
        rfl
      · rw [pushed.length, taken, if_pos last]
        rfl
      · rw [added.value, taken, if_pos last]
        rfl
    · rw [decide_eq_false last] at ends
      have small := added.below below (fun full => last (.inl full))
      obtain ⟨after, resumed, cap, complete, size, total⟩ :=
        ih next ends (by rw [pushed.cap, pushed.length]; omega) small (by rw [pushed.length]; omega)
      rw [added.left] at complete size total
      refine ⟨after, resumed, cap.trans pushed.cap, ?_, ?_, ?_⟩
      · rw [complete, split?, if_neg last, Option.isSome_map]
      · rw [size, pushed.length, taken, if_neg last, List.length_cons]
        omega
      · rw [total, added.weight, added.value, taken, if_neg last, sum, Nat.add_mod, Nat.mod_mod, ← Nat.add_mod]
        congr 1
        ring

/-- Bytes beyond the cap are not looked at. -/
theorem resume_take (bytes : List UInt8) {count : Nat} (going : field.complete = false)
    (room : field.length.toNat < field.cap.toNat) (below : field.value.toNat < 2 ^ (7 * field.length.toNat))
    (short : field.length.toNat + count ≤ 2 ^ 61) (enough : field.cap.toNat - field.length.toNat ≤ count) :
    field.resume (bytes.take count) = field.resume bytes := by
  have size := List.length_take_le count bytes
  obtain ⟨after, resumed, reached⟩ := field.reached_resume (bytes.take count) going room below (by omega)
  cases ended : after.complete with
  | true =>
    have whole := resume_append_of_complete resumed ended (bytes.drop count)
    rw [List.take_append_drop] at whole
    rw [resumed, whole]
  | false =>
    rw [reached.complete, Option.isSome_eq_false_iff, Option.isNone_iff_eq_none] at ended
    have few := (split?_eq_none ended).2.1 (by omega)
    rw [List.length_take] at few
    rw [List.take_of_length_le (by omega)]

theorem cap_new (cap : UInt64) : (new cap).cap.toNat = max 1 cap.toNat := by
  by_cases zero : cap = 0
  · rw [zero]
    rfl
  · have positive : cap.toNat ≠ 0 := fun none => zero (UInt64.toNat_inj.mp none)
    simp only [new, if_neg zero]
    omega

theorem reached_new (cap : UInt64) {bytes : List UInt8} (short : bytes.length ≤ 2 ^ 61) :
    ∃ after, (new cap).resume bytes = some after ∧ (new cap).Reached bytes after := by
  apply reached_resume
  · rfl
  · rw [cap_new]
    exact Nat.lt_of_lt_of_le Nat.zero_lt_one (Nat.le_max_left 1 _)
  · exact Nat.zero_lt_one
  · simpa only [new, UInt64.toNat_zero, Nat.zero_add] using short

variable {cap : UInt64} {bytes group rest : List UInt8} {after : Field}

theorem resume_new_of_ended (short : bytes.length ≤ 2 ^ 61) (ended : split? (max 1 cap.toNat) bytes = some (group, rest)) :
    ∃ after, (new cap).resume bytes = some after ∧ after.complete = true ∧ after.length.toNat = group.length ∧
      after.value.toNat = sum (max 1 cap.toNat) group % 2 ^ 64 := by
  obtain ⟨after, resumed, -, complete, length, value⟩ := reached_new cap short
  simp only [cap_new, show (new cap).length.toNat = 0 from rfl, show (new cap).value.toNat = 0 from rfl, Nat.sub_zero,
    ended, (split?_eq_some ended).2, Nat.mul_zero, Nat.pow_zero, Nat.one_mul, Nat.zero_add, Nat.add_zero,
    Option.isSome_some] at complete length value
  exact ⟨after, resumed, complete, length, value⟩

theorem resume_new_of_open (short : bytes.length ≤ 2 ^ 61) (unended : split? (max 1 cap.toNat) bytes = none) :
    ∃ after, (new cap).resume bytes = some after ∧ after.complete = false ∧ after.length.toNat = bytes.length ∧
      after.value.toNat = sum (max 1 cap.toNat) bytes % 2 ^ 64 ∧ after.cap.toNat = max 1 cap.toNat := by
  obtain ⟨after, resumed, same, complete, length, value⟩ := reached_new cap short
  simp only [cap_new, show (new cap).length.toNat = 0 from rfl, show (new cap).value.toNat = 0 from rfl, Nat.sub_zero,
    unended, (split?_eq_none unended).1, Nat.mul_zero, Nat.pow_zero, Nat.one_mul, Nat.zero_add, Nat.add_zero,
    Option.isSome_none] at complete length value
  refine ⟨after, resumed, complete, length, value, ?_⟩
  rw [same, cap_new]

/-- A field of a packet, with no more than nine bytes, fits a word. -/
theorem resume_ended (positive : 0 < cap.toNat) (few : cap.toNat ≤ 9)
    (ended : split? cap.toNat bytes = some (group, rest)) :
    ∃ after, (new cap).resume bytes = some after ∧ after.ended?.map UInt64.toNat = some group.length ∧
      after.value.toNat = sum cap.toNat group := by
  have limit : max 1 cap.toNat = cap.toNat := Nat.max_eq_right positive
  have bound := (length_split? positive ended).2
  obtain ⟨after, resumed, complete, length, value⟩ := resume_new_of_ended (by omega) (limit.symm ▸ split?_field ended)
  have small : sum cap.toNat group < 2 ^ 64 := by
    apply Nat.lt_of_lt_of_le ((sum_lt cap.toNat group).2 bound)
    exact Nat.pow_le_pow_right (by omega) (by omega)
  refine ⟨after, ?_, ?_, ?_⟩
  · rw [(split?_eq_some ended).1]
    exact resume_append_of_complete resumed complete rest
  · rw [ended?, if_pos complete, Option.map_some, length]
  · rw [value, limit, Nat.mod_eq_of_lt small]

structure Waiting (cap : UInt64) (bytes : List UInt8) (after : Field) : Prop where
  going : after.complete = false
  length : after.length.toNat = bytes.length
  below : after.value.toNat < 2 ^ (7 * bytes.length)
  cap : after.cap.toNat = cap.toNat

theorem resume_unended (positive : 0 < cap.toNat) (few : cap.toNat ≤ 9) (unended : split? cap.toNat bytes = none) :
    ∃ after, (new cap).resume bytes = some after ∧ Waiting cap bytes after := by
  have limit : max 1 cap.toNat = cap.toNat := Nat.max_eq_right positive
  have bound := (split?_eq_none unended).2.1 positive
  obtain ⟨after, resumed, complete, length, value, same⟩ := resume_new_of_open (by omega) (limit.symm ▸ unended)
  refine ⟨after, resumed, complete, length, ?_, same.trans limit⟩
  rw [value, limit]
  exact Nat.lt_of_le_of_lt (Nat.mod_le _ _) ((sum_lt cap.toNat bytes).1 bound)

theorem waiting_of_resumed (positive : 0 < cap.toNat) (few : cap.toNat ≤ 9) (unended : split? cap.toNat bytes = none)
    (resumed : (new cap).resume bytes = some after) : Waiting cap bytes after := by
  obtain ⟨other, same, waiting⟩ := resume_unended positive few unended
  cases same.symm.trans resumed
  exact waiting

/-- No count leaves its word in a field of a packet, however many bytes follow it. -/
theorem exists_resume_new (positive : 0 < cap.toNat) (few : cap.toNat ≤ 9) (bytes : List UInt8) :
    ∃ after, (new cap).resume bytes = some after := by
  cases ended : split? cap.toNat bytes with
  | none =>
    obtain ⟨after, resumed, -⟩ := resume_unended positive few ended
    exact ⟨after, resumed⟩
  | some parts =>
    obtain ⟨after, resumed, -⟩ := resume_ended positive few ended
    exact ⟨after, resumed⟩

theorem resume_resume_take (positive : 0 < cap.toNat) (few : cap.toNat ≤ 9) (unended : split? cap.toNat bytes = none)
    (resumed : (new cap).resume bytes = some after) (rest : List UInt8) :
    after.resume (rest.take after.cap.toNat) = (new cap).resume (bytes ++ rest) := by
  have waiting := waiting_of_resumed positive few unended resumed
  have short := (split?_eq_none unended).2.1 positive
  have length := waiting.length
  have same := waiting.cap
  rw [resume_append, resumed, Option.bind_some]
  apply resume_take
  · exact waiting.going
  · omega
  · rw [length]
    exact waiting.below
  · omega
  · omega

end Field

end SingleWire.Continuation
