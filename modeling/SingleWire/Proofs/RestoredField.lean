import SingleWire.Proofs.FieldValue

/-! A field that has been restored from any saved state. A length far beyond the value leaves
the bits that are there alone, but the place of its next byte may be too large for a word. Which
bytes stop the program there is said exactly. -/

namespace SingleWire.Continuation.Field

/-- The byte at a position of some bytes belongs to the field: none before it is the last. -/
def Takes (field : Field) (bytes : List UInt8) (position : Nat) : Prop :=
  position < bytes.length ∧ ∀ earlier < position,
    field.length.toNat + earlier + 1 ≠ field.cap.toNat ∧ 128 ≤ (bytes.getD earlier 0).toNat

/-- The field has changed in no bit below those that its next bytes give, and in none once the value is full. -/
structure KeepsLowBits (field after : Field) : Prop where
  below : ∀ index < 7 * field.length.toNat, after.value.toNat.testBit index = field.value.toNat.testBit index
  full : 10 ≤ field.length.toNat → after.value = field.value

variable {field next after : Field} {byte : UInt8} {bytes : List UInt8} {position : Nat}

private theorem takes_zero (field : Field) (byte : UInt8) (bytes : List UInt8) : field.Takes (byte :: bytes) 0 :=
  ⟨Nat.zero_lt_succ _, fun _ impossible => absurd impossible (Nat.not_lt_zero _)⟩

private theorem Pushed.not_takes_of_complete (pushed : field.Pushed byte next) (ended : next.complete = true) :
    ¬ field.Takes (byte :: bytes) (position + 1) := by
  intro takes
  obtain ⟨room, marked⟩ := takes.2 0 (Nat.zero_lt_succ _)
  rw [pushed.complete, decide_eq_true_iff] at ended
  rcases ended with full | clear
  · exact room full
  · exact Nat.not_le.mpr clear marked

private theorem Pushed.takes_succ (pushed : field.Pushed byte next) (going : next.complete = false) :
    field.Takes (byte :: bytes) (position + 1) ↔ next.Takes bytes position := by
  rw [pushed.complete, decide_eq_false_iff_not, not_or, Nat.not_lt] at going
  rw [Takes, Takes, List.length_cons, Nat.add_lt_add_iff_right, pushed.length, pushed.cap]
  refine and_congr_right fun _ => ⟨fun all earlier before => ?_, fun all earlier before => ?_⟩
  · obtain ⟨room, marked⟩ := all (earlier + 1) (Nat.succ_lt_succ before)
    exact ⟨by omega, marked⟩
  · cases earlier with
    | zero => exact going
    | succ earlier =>
      obtain ⟨room, marked⟩ := all earlier (Nat.lt_of_succ_lt_succ before)
      exact ⟨by omega, marked⟩

/-- The program stops at the first byte that is taken with a place too large for a word. -/
theorem resume_eq_none_iff (going : field.complete = false) :
    field.resume bytes = none ↔
      ∃ position, field.Takes bytes position ∧ 2 ^ 64 ≤ 7 * (field.length.toNat + position + 1) := by
  induction bytes generalizing field with
  | nil =>
    refine ⟨(nomatch ·), ?_⟩
    rintro ⟨position, takes, -⟩
    exact absurd takes.1 (Nat.not_lt_zero position)
  | cons byte bytes ih =>
    rw [resume_cons going]
    by_cases fits : 7 * (field.length.toNat + 1) < 2 ^ 64
    · obtain ⟨next, same, pushed⟩ := field.pushed_of_fits byte fits
      rw [same, Option.bind_some]
      cases ended : next.complete with
      | true =>
        rw [resume_of_complete ended]
        refine ⟨(nomatch ·), ?_⟩
        rintro ⟨_ | position, takes, beyond⟩
        · exact absurd beyond (Nat.not_le.mpr fits)
        · exact absurd takes (pushed.not_takes_of_complete ended)
      | false =>
        rw [ih ended, pushed.length]
        constructor
        · rintro ⟨position, takes, beyond⟩
          exact ⟨position + 1, (pushed.takes_succ ended).mpr takes, by omega⟩
        · rintro ⟨_ | position, takes, beyond⟩
          · exact absurd beyond (Nat.not_le.mpr fits)
          · exact ⟨position, (pushed.takes_succ ended).mp takes, by omega⟩
    · rw [field.push_of_beyond byte (Nat.not_lt.mp fits)]
      exact ⟨fun _ => ⟨0, takes_zero field byte bytes, Nat.not_lt.mp fits⟩, fun _ => rfl⟩

theorem testBit_resume_of_below (resumed : field.resume bytes = some after) {index : Nat}
    (below : index < 7 * field.length.toNat) : after.value.toNat.testBit index = field.value.toNat.testBit index := by
  induction bytes generalizing field with
  | nil =>
    cases resumed
    rfl
  | cons byte bytes ih =>
    cases going : field.complete with
    | true =>
      cases (resume_of_complete going _).symm.trans resumed
      rfl
    | false =>
      rw [resume_cons going] at resumed
      obtain ⟨next, same, later⟩ := Option.bind_eq_some_iff.mp resumed
      obtain ⟨-, pushed⟩ := push_eq_some same
      rw [ih later (by rw [pushed.length]; omega), pushed.testBit, if_neg (by omega)]

theorem keepsLowBits_of_resume (resumed : field.resume bytes = some after) : field.KeepsLowBits after := by
  refine ⟨fun index below => testBit_resume_of_below resumed below, ?_⟩
  intro long
  apply UInt64.toNat_inj.mp
  apply Nat.eq_of_testBit_eq
  intro index
  by_cases inside : index < 64
  · exact testBit_resume_of_below resumed (by omega)
  · rw [testBit_of_le _ (Nat.not_lt.mp inside), testBit_of_le _ (Nat.not_lt.mp inside)]

/-- A field that has ended stays as it is. One that goes on keeps the bits below its next byte,
and a full value, unless the program stops. It stops exactly if the field takes a byte whose
place is too large for a word. -/
theorem resume_stops_or_keeps_low_bits (field : Field) (bytes : List UInt8) :
    (field.complete = true → field.resume bytes = some field ∧ field.ended? = some field.length) ∧
    (field.complete = false →
      (field.resume bytes = none ↔
        ∃ position, field.Takes bytes position ∧ 2 ^ 64 ≤ 7 * (field.length.toNat + position + 1)) ∧
      ∀ after, field.resume bytes = some after → field.KeepsLowBits after) := by
  refine ⟨?_, ?_⟩
  · intro ended
    exact ⟨resume_of_complete ended bytes, if_pos ended⟩
  · intro going
    exact ⟨resume_eq_none_iff going, fun _ => keepsLowBits_of_resume⟩

/-- A field that goes on far behind its value, and one that has ended although its cap and its
length would let it go on. -/
theorem resume_stops_or_keeps_low_bits_far_beyond :
    let field : Field := { value := 0x123456789ABCDEF, length := 0x1000000000000000, cap := 20, complete := false }
    let after : Field := { value := 0x123456789ABCDEF, length := 0x1000000000000002, cap := 20, complete := true }
    let ended : Field := { value := 5, length := 0xFFFFFFFFFFFFFFFF, cap := 7, complete := true }
    let bytes : List UInt8 := [0xFF, 0x01]
    ended.complete = true ∧ ended.resume bytes = some ended ∧ ended.ended? = some 0xFFFFFFFFFFFFFFFF ∧
    field.complete = false ∧ field.resume bytes = some after ∧ field.KeepsLowBits after ∧
    ∀ position, field.Takes bytes position → 7 * (field.length.toNat + position + 1) < 2 ^ 64 := by
  intro field after ended bytes
  have resumed : field.resume bytes = some after := by decide
  obtain ⟨same, returned⟩ := (resume_stops_or_keeps_low_bits ended bytes).1 rfl
  obtain ⟨stops, kept⟩ := (resume_stops_or_keeps_low_bits field bytes).2 rfl
  refine ⟨rfl, same, returned, rfl, resumed, kept after resumed, ?_⟩
  intro position takes
  by_contra beyond
  have stopped := stops.mpr ⟨position, takes, Nat.not_lt.mp beyond⟩
  rw [resumed] at stopped
  cases stopped

/-- A length that seven times is more than a word holds stops the program at the next byte,
though the value is full. -/
theorem resume_stops_on_restored_length :
    let field : Field := { value := 0, length := 2635249153387078803, cap := 20, complete := false }
    field.complete = false ∧ 10 ≤ field.length.toNat ∧ field.resume [0x7F] = none ∧
    ¬ ∃ after, field.resume [0x7F] = some after ∧ after.value = field.value := by
  intro field
  have stopped : field.resume [0x7F] = none := by decide
  refine ⟨rfl, by decide, stopped, ?_⟩
  rintro ⟨after, resumed, -⟩
  rw [stopped] at resumed
  cases resumed

end SingleWire.Continuation.Field
